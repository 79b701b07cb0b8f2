/-
# What a program says to build

The meaning of a program without counts, without a ceiling on the depth and without one on
the output. A placement emits a block; a loop emits what its body emits for the first value
of its counter, then for the next one, and so on until the counter has passed the last
value; a call emits what the steps of the definition emit in the scope of the caller with
the arguments bound. What has no value, is not defined or could not be read is a rejection.

Such an execution need not come to an end. An emission is as much of it as was looked at:
the blocks so far, and whether the execution came to its end there, was rejected, or goes
on. Two emissions of one execution never contradict each other (`Emits.agrees`).

Key definitions: `Emission`, `Emission.andThen`, `Emission.Agrees`, `Reference`,
`Reference.Emits`.
Key theorems: `Emission.Agrees.andThen`, `Reference.Emits.agrees`.
-/
import Mathlib.Data.List.Infix
import VoxelBlueprint.Proofs.Execution.Agenda

namespace VoxelBlueprint

/-! ### Emissions -/

/-- Where the view of an execution ends. -/
inductive Ending where
  /-- The execution came to its end. -/
  | finished
  /-- It was rejected. -/
  | rejected (rejection : Rejection)
  /-- It goes on, but was looked at no further. -/
  | pending
  deriving DecidableEq

/-- As much of what an execution emits as was looked at. -/
structure Emission where
  blocks : List Block
  ending : Ending

namespace Emission

/-- What is emitted by two executions in a row. -/
def andThen (a b : Emission) : Emission :=
  if a.ending = .finished then ⟨a.blocks ++ b.blocks, b.ending⟩ else a

/-- Whether an emission is the other one or a shorter view of it. -/
inductive Precedes : Emission → Emission → Prop
  | refl (a : Emission) : Precedes a a
  | pending {blocks : List Block} {b : Emission} : blocks <+: b.blocks →
    Precedes ⟨blocks, .pending⟩ b

/-- Whether two emissions may be views of one execution. -/
def Agrees (a b : Emission) : Prop :=
  a.Precedes b ∨ b.Precedes a

theorem Agrees.refl (a : Emission) : a.Agrees a := .inl (.refl a)

theorem Agrees.symm {a b : Emission} (h : a.Agrees b) : b.Agrees a := Or.symm h

theorem pending_agrees (a : Emission) : Agrees ⟨[], .pending⟩ a :=
  .inl (.pending List.nil_prefix)

theorem andThen_finished (blocks : List Block) (b : Emission) :
    andThen ⟨blocks, .finished⟩ b = ⟨blocks ++ b.blocks, b.ending⟩ := if_pos rfl

theorem andThen_of_ne {a : Emission} (h : a.ending ≠ .finished) (b : Emission) :
    a.andThen b = a := if_neg h

theorem prefix_blocks_andThen (a b : Emission) : a.blocks <+: (a.andThen b).blocks := by
  unfold andThen
  split
  · exact List.prefix_append _ _
  · exact List.prefix_refl _

theorem Precedes.andThen {a a' b b' : Emission} (h : a.Precedes a')
    (hb : a.ending = .finished → a'.ending = .finished → b.Agrees b') :
    (a.andThen b).Agrees (a'.andThen b') := by
  cases h with
  | pending hp =>
    rw [andThen_of_ne (by simp)]
    exact .inl (.pending (hp.trans (prefix_blocks_andThen a' b')))
  | refl =>
    by_cases hf : a.ending = .finished
    · unfold Emission.andThen
      rw [if_pos hf, if_pos hf]
      rcases hb hf hf with hb | hb <;> cases hb
      · exact Agrees.refl _
      · exact .inl (.pending ((List.prefix_append_right_inj _).mpr ‹_›))
      · exact Agrees.refl _
      · exact .inr (.pending ((List.prefix_append_right_inj _).mpr ‹_›))
    · rw [andThen_of_ne hf, andThen_of_ne hf]
      exact Agrees.refl a

theorem Agrees.andThen {a a' b b' : Emission} (h : a.Agrees a')
    (hb : a.ending = .finished → a'.ending = .finished → b.Agrees b') :
    (a.andThen b).Agrees (a'.andThen b') := by
  rcases h with h | h
  · exact h.andThen hb
  · exact (h.andThen fun ha ha' => (hb ha' ha).symm).symm

end Emission

/-! ### The meaning of programs -/

/-- A part of a program in its scope. -/
inductive Part where
  | steps (scope : Scope) (steps : List Step)
  | step (scope : Scope) (step : Step)
  /-- A loop the counter of which comes to `value` next. -/
  | loop (scope : Scope) (counter : String) (last stride : Int) (body : List Step) (value : Int)

/-- What the meaning of a program depends on. -/
structure Reference where
  program : Program
  snapshot : Catalog.Snapshot
  maxExpressionDepth : Int

namespace Reference

/-- The limits under which values are computed. Of these the ceiling on open factors matters. -/
def limits (r : Reference) : Limits :=
  { maxExpressionDepth := r.maxExpressionDepth }

/-- The context in which callees are looked up. -/
def context (r : Reference) : RunContext :=
  { program := r.program, limits := r.limits }

/-- The block that is placed. -/
def block (r : Reference) (scope : Scope) (p : Int × Int × Int) (blockType : Json) : Block where
  x := p.1
  y := p.2.1
  z := p.2.2
  blockType := r.snapshot.resolve (Catalog.requestedId scope blockType)

/-- What the parts of a program emit. -/
inductive Emits (r : Reference) : Part → Emission → Prop
  | pending {part : Part} : Emits r part ⟨[], .pending⟩
  | nil {scope : Scope} : Emits r (.steps scope []) ⟨[], .finished⟩
  | cons {scope : Scope} {step : Step} {steps : List Step} {a b : Emission} :
    Emits r (.step scope step) a → (a.ending = .finished → Emits r (.steps scope steps) b) →
    Emits r (.steps scope (step :: steps)) (a.andThen b)
  | place {scope : Scope} {x y z blockType : Json} {p : Int × Int × Int} :
    coordinatesAt r.limits scope [.field "place"] x y z = .ok p →
    Emits r (.step scope (.place x y z blockType)) ⟨[r.block scope p blockType], .finished⟩
  | placeRejected {scope : Scope} {x y z blockType : Json} {rejection : Rejection} :
    coordinatesAt r.limits scope [.field "place"] x y z = .error rejection →
    Emits r (.step scope (.place x y z blockType)) ⟨[], .rejected rejection⟩
  | loop {scope : Scope} {counter : String} {start stop step : Json} {body : List Step}
    {first last stride : Int} {a : Emission} :
    loopRange r.limits scope start stop step = .ok (first, last, stride) →
    Emits r (.loop scope counter last stride body first) a →
    Emits r (.step scope (.loop counter start stop step body)) a
  | loopRejected {scope : Scope} {counter : String} {start stop step : Json} {body : List Step}
    {rejection : Rejection} :
    loopRange r.limits scope start stop step = .error rejection →
    Emits r (.step scope (.loop counter start stop step body)) ⟨[], .rejected rejection⟩
  | call {scope : Scope} {callee : String} {arguments : List (String × Json)}
    {entered : List Step × Scope} {a : Emission} :
    enterCall r.context scope callee arguments = .ok entered →
    Emits r (.steps entered.2 entered.1) a →
    Emits r (.step scope (.call callee arguments)) a
  | callRejected {scope : Scope} {callee : String} {arguments : List (String × Json)}
    {rejection : Rejection} :
    enterCall r.context scope callee arguments = .error rejection →
    Emits r (.step scope (.call callee arguments)) ⟨[], .rejected rejection⟩
  | invalid {scope : Scope} {m : Malformation} :
    Emits r (.step scope (.invalid m)) ⟨[], .rejected (.malformed m)⟩
  | passed {scope : Scope} {counter : String} {last stride value : Int} {body : List Step} :
    ¬ Remains last stride value →
    Emits r (.loop scope counter last stride body value) ⟨[], .finished⟩
  | next {scope : Scope} {counter : String} {last stride value : Int} {body : List Step}
    {a b : Emission} : Remains last stride value →
    Emits r (.steps (scope.bind counter (.int value)) body) a →
    (a.ending = .finished → Emits r (.loop scope counter last stride body (value + stride)) b) →
    Emits r (.loop scope counter last stride body value) (a.andThen b)

open Emission

/-- **A part of a program has one meaning**: no two emissions of it contradict each other. -/
theorem Emits.agrees {r : Reference} {part : Part} {a : Emission} (ha : r.Emits part a) :
    ∀ {b : Emission}, r.Emits part b → a.Agrees b := by
  induction ha with
  | pending => exact fun _ => pending_agrees _
  | nil =>
    intro b hb
    cases hb with
    | pending => exact (pending_agrees _).symm
    | nil => exact Agrees.refl _
  | cons _ _ ih₁ ih₂ =>
    intro b hb
    cases hb with
    | pending => exact (pending_agrees _).symm
    | cons h₁ h₂ => exact (ih₁ h₁).andThen fun ha hb => ih₂ ha (h₂ hb)
  | place h =>
    intro b hb
    cases hb with
    | pending => exact (pending_agrees _).symm
    | place h' =>
      cases h.symm.trans h'
      exact Agrees.refl _
    | placeRejected h' => cases h.symm.trans h'
  | placeRejected h =>
    intro b hb
    cases hb with
    | pending => exact (pending_agrees _).symm
    | place h' => cases h.symm.trans h'
    | placeRejected h' =>
      cases h.symm.trans h'
      exact Agrees.refl _
  | loop h _ ih =>
    intro b hb
    cases hb with
    | pending => exact (pending_agrees _).symm
    | loop h' hb =>
      cases h.symm.trans h'
      exact ih hb
    | loopRejected h' => cases h.symm.trans h'
  | loopRejected h =>
    intro b hb
    cases hb with
    | pending => exact (pending_agrees _).symm
    | loop h' => cases h.symm.trans h'
    | loopRejected h' =>
      cases h.symm.trans h'
      exact Agrees.refl _
  | call h _ ih =>
    intro b hb
    cases hb with
    | pending => exact (pending_agrees _).symm
    | call h' hb =>
      cases h.symm.trans h'
      exact ih hb
    | callRejected h' => cases h.symm.trans h'
  | callRejected h =>
    intro b hb
    cases hb with
    | pending => exact (pending_agrees _).symm
    | call h' => cases h.symm.trans h'
    | callRejected h' =>
      cases h.symm.trans h'
      exact Agrees.refl _
  | invalid =>
    intro b hb
    cases hb with
    | pending => exact (pending_agrees _).symm
    | invalid => exact Agrees.refl _
  | passed hr =>
    intro b hb
    cases hb with
    | pending => exact (pending_agrees _).symm
    | passed => exact Agrees.refl _
    | next hr' => exact absurd hr' hr
  | next hr _ _ ih₁ ih₂ =>
    intro b hb
    cases hb with
    | pending => exact (pending_agrees _).symm
    | passed hr' => exact absurd hr hr'
    | next _ h₁ h₂ => exact (ih₁ h₁).andThen fun ha hb => ih₂ ha (h₂ hb)

/-- Whether these are the first `k` blocks that a part emits, or all of them if there are
fewer: some view of it shows them, and none shows others. -/
def First (r : Reference) (part : Part) (k : ℕ) (blocks : List Block) : Prop :=
  (∃ e, r.Emits part e ∧ e.blocks.take k = blocks) ∧
    ∀ e, r.Emits part e → e.blocks.take k <+: blocks

/-- A view that shows everything, or `k` blocks, shows the first `k`. -/
theorem Emits.first {r : Reference} {part : Part} {e : Emission} {k : ℕ} (h : r.Emits part e)
    (hk : e.ending ≠ .pending ∨ k ≤ e.blocks.length) : r.First part k (e.blocks.take k) := by
  refine ⟨⟨e, h, rfl⟩, fun e' h' => ?_⟩
  rcases h.agrees h' with ha | ha
  · cases ha with
    | refl => exact List.prefix_refl _
    | pending hp =>
      -- the other view may show more, but then this one shows `k` blocks
      have hk := hk.resolve_left (absurd rfl)
      rw [List.prefix_iff_eq_take.mp hp, List.take_take, Nat.min_eq_left hk]
  · cases ha with
    | refl => exact List.prefix_refl _
    | pending hp => exact List.IsPrefix.take hp k

end Reference
end VoxelBlueprint
