/-
# Runs against the meaning of their programs

Whatever `execute` does is explained by what the program means: its output is a part of
what is emitted, which ends where the output is full, where a ceiling was exceeded, or
where the execution itself comes to its end or is rejected. The executor for the lists of
steps inside a step is an argument of the functions for one step, so each of them is
explained under the assumption that this executor is.

Key definitions: `Program.reference`, `Limits.Exceeded`, `Reference.Explains`.
Key theorems: `Reference.Explains.seq`, `execute_explained`,
`Program.expansion_refines_reference`.
-/
import VoxelBlueprint.Proofs.Execution.Reference
import VoxelBlueprint.Proofs.Execution.Runs

namespace VoxelBlueprint

open Effects

/-- What the meaning of the program in a context depends on, with blocks from a snapshot. -/
def RunContext.reference (c : RunContext) (snapshot : Catalog.Snapshot) : Reference where
  program := c.program
  snapshot := snapshot
  maxExpressionDepth := c.limits.maxExpressionDepth

/-- Whether so much work is more than a ceiling allows, which is `limit`. -/
def Limits.Exceeded (limits : Limits) (work : Work) : Ceiling → Int → Prop
  | .callDepth, limit => limit = limits.maxCallDepth ∧ limit + 1 < work.levels
  | .executedSteps, limit => limit = limits.maxSteps ∧ limit < work.steps
  | .callCount, limit => limit = limits.maxCalls ∧ limit < work.calls

namespace Reference

/-- How the end of a part of a run is explained by what the part emits. -/
inductive Explains (r : Reference) (limits : Limits) (part : Part) (s : RunState) :
    EStateM.Result Rejection RunState Unit → Prop
  | finished {blocks : List Block} {s' : RunState} : r.Emits part ⟨blocks, .finished⟩ →
    s'.output.toList = s.output.toList ++ blocks → Explains r limits part s (.ok () s')
  | full {blocks : List Block} {s' : RunState} : r.Emits part ⟨blocks, .pending⟩ →
    s'.output.toList = s.output.toList ++ blocks → s'.isFull limits = true →
    Explains r limits part s (.ok () s')
  | rejected {blocks : List Block} {rejection : Rejection} {s' : RunState} :
    r.Emits part ⟨blocks, .rejected rejection⟩ →
    s'.output.toList = s.output.toList ++ blocks → rejection.isRunaway = false →
    Explains r limits part s (.error rejection s')
  | runaway {blocks : List Block} {ceiling : Ceiling} {limit : Int} {s' : RunState} :
    r.Emits part ⟨blocks, .pending⟩ →
    s'.output.toList = s.output.toList ++ blocks → limits.Exceeded s'.work ceiling limit →
    Explains r limits part s (.error (.runaway ceiling limit) s')

variable {r : Reference} {limits : Limits} {part first rest : Part} {s s₁ s₂ : RunState}
  {result : EStateM.Result Rejection RunState Unit}

open Emission

/-- A state with the same output explains the same. -/
theorem Explains.congr (h : r.Explains limits part s₁ result)
    (hs : s₁.output.toList = s.output.toList) : r.Explains limits part s result := by
  cases h with
  | finished he ho => exact .finished he (by rw [ho, hs])
  | full he ho hf => exact .full he (by rw [ho, hs]) hf
  | rejected he ho hr => exact .rejected he (by rw [ho, hs]) hr
  | runaway he ho hx => exact .runaway he (by rw [ho, hs]) hx

/-- A part that emits what another part emits. -/
theorem Explains.imp (h : r.Explains limits first s result)
    (hp : ∀ a, r.Emits first a → r.Emits part a) : r.Explains limits part s result := by
  cases h with
  | finished he ho => exact .finished (hp _ he) ho
  | full he ho hf => exact .full (hp _ he) ho hf
  | rejected he ho hr => exact .rejected (hp _ he) ho hr
  | runaway he ho hx => exact .runaway (hp _ he) ho hx

/-! #### Parts of a run with nothing in the output -/

theorem Explains.emits_of_ok (h : r.Explains limits part s (.ok () s₁))
    (hs : s.output.toList = []) : r.Emits part ⟨s₁.output.toList, .finished⟩ ∨
      r.Emits part ⟨s₁.output.toList, .pending⟩ ∧ s₁.isFull limits = true := by
  cases h with
  | finished he ho => exact .inl (by rwa [ho, hs])
  | full he ho hf => exact .inr ⟨by rwa [ho, hs], hf⟩

theorem Explains.emits_of_error {rejection : Rejection}
    (h : r.Explains limits part s (.error rejection s₁)) (hs : s.output.toList = [])
    (hr : rejection.isRunaway = false) :
    r.Emits part ⟨s₁.output.toList, .rejected rejection⟩ := by
  cases h with
  | rejected he ho _ => rwa [ho, hs]
  | runaway => cases hr

theorem Explains.emits_of_runaway {ceiling : Ceiling} {limit : Int}
    (h : r.Explains limits part s (.error (.runaway ceiling limit) s₁))
    (hs : s.output.toList = []) :
    r.Emits part ⟨s₁.output.toList, .pending⟩ ∧ limits.Exceeded s₁.work ceiling limit := by
  cases h with
  | rejected _ _ hr => cases hr
  | runaway he ho hx => exact ⟨by rwa [ho, hs], hx⟩

/-! #### Parts in a row -/

section Sequence

/-- A part that emits what one part emits and then what another one does. -/
def Sequence (r : Reference) (part first rest : Part) : Prop :=
  ∀ a b, r.Emits first a → (a.ending = .finished → r.Emits rest b) → r.Emits part (a.andThen b)

variable (hseq : r.Sequence part first rest)
include hseq

/-- What the first part emits is all there is if it was not finished. -/
theorem Sequence.emits_first {a : Emission} (h : r.Emits first a) (ha : a.ending ≠ .finished) :
    r.Emits part a := by
  have := hseq a ⟨[], .pending⟩ h fun hf => absurd hf ha
  rwa [andThen_of_ne ha] at this

theorem Sequence.emits_both {blocks : List Block} {b : Emission}
    (h : r.Emits first ⟨blocks, .finished⟩) (hb : r.Emits rest b) :
    r.Emits part ⟨blocks ++ b.blocks, b.ending⟩ := by
  have := hseq _ b h fun _ => hb
  rwa [andThen_finished] at this

/-- A rejection in the first part. -/
theorem Explains.seq_error {rejection : Rejection}
    (h : r.Explains limits first s (.error rejection s₁)) :
    r.Explains limits part s (.error rejection s₁) := by
  cases h with
  | rejected he ho hr => exact .rejected (hseq.emits_first he (by simp)) ho hr
  | runaway he ho hx => exact .runaway (hseq.emits_first he (by simp)) ho hx

/-- An end of the first part with a full output, where nothing more is done. -/
theorem Explains.seq_full (h : r.Explains limits first s (.ok () s₁))
    (hf : s₁.isFull limits = true) : r.Explains limits part s (.ok () s₁) := by
  cases h with
  | finished he ho =>
    refine .full (hseq.emits_both he .pending) ?_ hf
    rw [ho, List.append_nil]
  | full he ho hf => exact .full (hseq.emits_first he (by simp)) ho hf

/-- An end of the first part with room for more, from which the other part goes on. -/
theorem Explains.seq (h : r.Explains limits first s (.ok () s₁)) (hf : s₁.isFull limits = false)
    (h' : r.Explains limits rest s₁ result) : r.Explains limits part s result := by
  cases h with
  | full he ho hf' => rw [hf] at hf'; cases hf'
  | finished he ho =>
    cases h' with
    | finished he' ho' =>
      exact .finished (hseq.emits_both he he') (by rw [ho', ho, List.append_assoc])
    | full he' ho' hf' =>
      exact .full (hseq.emits_both he he') (by rw [ho', ho, List.append_assoc]) hf'
    | rejected he' ho' hr =>
      exact .rejected (hseq.emits_both he he') (by rw [ho', ho, List.append_assoc]) hr
    | runaway he' ho' hx =>
      exact .runaway (hseq.emits_both he he') (by rw [ho', ho, List.append_assoc]) hx

end Sequence

end Reference

/-! ### The executor -/

section Executor

open Reference

variable {c : RunContext} {snapshot : Catalog.Snapshot} {inner : Executor}

/-- Whatever an executor does with a list of steps is explained by what the list emits. -/
def Executor.Explained (c : RunContext) (snapshot : Catalog.Snapshot) (inner : Executor) :
    Prop :=
  ∀ steps scope s,
    (c.reference snapshot).Explains c.limits (.steps scope steps) s (inner steps scope s)

theorem runPlace_explained (hs : c.captured = some snapshot) (scope : Scope)
    (x y z blockType : Json) (s : RunState) :
    (c.reference snapshot).Explains c.limits (.step scope (.place x y z blockType)) s
      (runPlace c scope x y z blockType s) := by
  have hc : coordinatesAt (c.reference snapshot).limits = coordinatesAt c.limits :=
    coordinatesAt_congr rfl
  rw [runPlace, ofExcept_bind_apply]
  cases h : coordinatesAt c.limits scope [.field "place"] x y z with
  | error rejection =>
    exact .rejected (.placeRejected (by rw [hc, h])) (List.append_nil _).symm
      (isRunaway_coordinatesAt h)
  | ok q =>
    refine .finished (.place (by rw [hc, h])) ?_
    have hsnap : s.snapshot c = snapshot := by rw [RunState.snapshot, hs]; rfl
    show (s.place c scope q.1 q.2.1 q.2.2 blockType).output.toList = _
    rw [RunState.output_place, Array.toList_push, hsnap]
    rfl

/-- A loop with an empty body emits nothing. -/
theorem emits_loop_nil (r : Reference) (scope : Scope) (counter : String) {last stride : Int}
    (hs : stride ≠ 0) : ∀ (count : ℕ) (value : Int), loopCount value last stride = count →
      r.Emits (.loop scope counter last stride [] value) ⟨[], .finished⟩ := by
  intro count
  induction count with
  | zero =>
    intro value hn
    exact .passed (not_remains_of_loopCount hs hn)
  | succ count ih =>
    intro value hn
    obtain ⟨hr, hn'⟩ := remains_of_loopCount hs hn
    exact .next hr .nil fun _ => ih (value + stride) hn'

theorem iterate_explained (h : inner.Explained c snapshot) (scope : Scope)
    (counter : String) {last stride : Int} (hs : stride ≠ 0) (body : List Step) :
    ∀ (count : ℕ) (value : Int) (s : RunState), loopCount value last stride = count →
      (c.reference snapshot).Explains c.limits (.loop scope counter last stride body value) s
        (iterate c inner scope counter stride body count value s) := by
  intro count
  induction count with
  | zero =>
    intro value s hn
    exact .finished (.passed (not_remains_of_loopCount hs hn)) (List.append_nil _).symm
  | succ count ih =>
    intro value s hn
    obtain ⟨hr, hn'⟩ := remains_of_loopCount hs hn
    have hseq : (c.reference snapshot).Sequence
        (.loop scope counter last stride body value)
        (.steps (scope.bind counter (.int value)) body)
        (.loop scope counter last stride body (value + stride)) := fun _ _ ha hb => .next hr ha hb
    have hi := h body (scope.bind counter (.int value)) s.countIteration
    rw [iterate_succ]
    cases hb : inner body (scope.bind counter (.int value)) s.countIteration with
    | error rejection s' =>
      rw [hb] at hi
      exact (hi.congr (s := s) rfl).seq_error hseq
    | ok u s' =>
      rw [hb] at hi
      have hi := hi.congr (s := s) rfl
      simp only
      split
      · rename_i hf
        exact hi.seq_full hseq hf
      · rename_i hf
        exact hi.seq hseq (by simpa using hf) (ih (value + stride) s' hn')

theorem runLoop_explained (h : inner.Explained c snapshot) (scope : Scope)
    (counter : String) (start stop stride : Json) (body : List Step) (s : RunState) :
    (c.reference snapshot).Explains c.limits
      (.step scope (.loop counter start stop stride body)) s
      (runLoop c inner scope counter start stop stride body s) := by
  have hc : loopRange (c.reference snapshot).limits = loopRange c.limits :=
    loopRange_congr rfl
  rw [runLoop_apply]
  cases hr : loopRange c.limits scope start stop stride with
  | error rejection =>
    exact .rejected (.loopRejected (by rw [hc, hr])) (List.append_nil _).symm
      (isRunaway_loopRange hr)
  | ok range =>
    obtain ⟨first, last, n⟩ := range
    have hn := stride_ne_zero hr
    have hp : ∀ a, (c.reference snapshot).Emits (.loop scope counter last n body first) a →
        (c.reference snapshot).Emits (.step scope (.loop counter start stop stride body)) a :=
      fun a => .loop (by rw [hc, hr])
    cases body with
    | nil =>
      exact .finished (hp _ (emits_loop_nil _ scope counter hn _ first rfl))
        (List.append_nil _).symm
    | cons step body =>
      exact (iterate_explained h scope counter hn (step :: body) _ first s rfl).imp hp

theorem runCall_explained (h : inner.Explained c snapshot) (scope : Scope)
    (callee : String) (arguments : List (String × Json)) (s : RunState) :
    (c.reference snapshot).Explains c.limits (.step scope (.call callee arguments)) s
      (runCall c inner scope callee arguments s) := by
  have hc : enterCall (c.reference snapshot).context =
      enterCall c := enterCall_congr rfl rfl
  rw [runCall_apply]
  split
  · rename_i hx
    exact .runaway .pending (List.append_nil _).symm ⟨rfl, hx⟩
  · cases he : enterCall c scope callee arguments with
    | error rejection =>
      exact .rejected (.callRejected (by rw [hc, he])) (List.append_nil _).symm
        (isRunaway_enterCall he)
    | ok entered =>
      have hi := (h entered.1 entered.2 s.countCall).congr (s := s) rfl
      exact hi.imp fun a => .call (by rw [hc, he])

theorem runStep_explained (hs : c.captured = some snapshot) (h : inner.Explained c snapshot)
    (scope : Scope) (s : RunState) : ∀ step : Step,
      (c.reference snapshot).Explains c.limits (.step scope step) s (runStep c inner scope step s)
  | .place x y z blockType => runPlace_explained hs scope x y z blockType s
  | .loop counter start stop stride body =>
    runLoop_explained h scope counter start stop stride body s
  | .call callee arguments => runCall_explained h scope callee arguments s
  | .invalid _ => .rejected .invalid (List.append_nil _).symm rfl

theorem runSteps_explained (hs : c.captured = some snapshot) (h : inner.Explained c snapshot)
    (scope : Scope) :
    ∀ (steps : List Step) (s : RunState),
      (c.reference snapshot).Explains c.limits (.steps scope steps) s
        (runSteps c inner scope steps s)
  | [], s => .finished .nil (List.append_nil _).symm
  | step :: steps, s => by
    have hseq : (c.reference snapshot).Sequence (.steps scope (step :: steps))
        (.step scope step) (.steps scope steps) := fun _ _ => .cons
    rw [runSteps_cons]
    split
    · rename_i hf
      exact .full .pending (List.append_nil _).symm hf
    · split
      · rename_i hx
        exact .runaway .pending (List.append_nil _).symm ⟨rfl, hx⟩
      · have hi := (runStep_explained hs h scope s.countStep step).congr (s := s) rfl
        cases hr : runStep c inner scope step s.countStep with
        | error rejection s' =>
          rw [hr] at hi
          exact hi.seq_error hseq
        | ok u s' =>
          rw [hr] at hi
          by_cases hf : s'.isFull c.limits
          · -- with a full output the other steps do nothing
            have hn : runSteps c inner scope steps s' = .ok () s' := by
              cases steps with
              | nil => exact runSteps_nil ..
              | cons => rw [runSteps_cons, if_pos hf]
            simp only [hn]
            exact hi.seq_full hseq hf
          · exact hi.seq hseq (by simpa using hf) (runSteps_explained hs h scope steps s')

/-- **Whatever `execute` does is explained by what the steps emit.** -/
theorem execute_explained (hs : c.captured = some snapshot) : ∀ room : ℕ,
    Executor.Explained c snapshot (execute c room)
  | 0, steps, scope, s => by
    rw [execute, modify_bind_apply]
    refine .runaway .pending (List.append_nil _).symm ⟨rfl, ?_⟩
    show c.limits.maxCallDepth + 1 <
      (max s.work.levels ((c.limits.maxCallDepth + 1).toNat + 1) : ℕ)
    omega
  | room + 1, steps, scope, s => by
    rw [execute, modify_bind_apply]
    exact (runSteps_explained hs (execute_explained hs room) scope steps _).congr rfl

end Executor

/-! ### Runs from the start -/

namespace Program

open Stage

variable (limits : Limits) (p : Program) (ledger : Ledger)

/-- What the meaning of a program depends on when it is run with a ledger. -/
def reference : Reference :=
  (p.context limits ledger.store.current).reference ledger.store.current

/-- The part of the program at which a run starts. -/
def main : Part := .steps [] p.steps

theorem outcome_explained : (p.reference limits ledger).Explains limits p.main { ledger }
    (p.outcome limits ledger) :=
  execute_explained (c := p.context limits ledger.store.current) rfl _ _ _ _

variable {limits p ledger}

/-- A rejection that is not for a ceiling comes while there is room. -/
theorem room_of_rejected {rejection : Rejection} {s : RunState}
    (h : p.run limits ledger = .error rejection s) (hr : rejection.isRunaway = false) :
    s.isFull limits = false := by
  have ho := outcome_of_run_error h
  by_cases hd : 0 ≤ limits.maxCallDepth
  · obtain ⟨n, hn⟩ := p.eventually_outcome limits ledger
    exact room_of_error hd (by rw [hn n le_rfl, ho]; rfl)
  · rw [outcome_of_no_depth limits p ledger hd] at ho
    cases ho
    cases hr

/-- **A run refines the meaning of its program.** If it ends well, its blocks are the first
ones that the program emits, as many as the ceiling allows, and all of them if they are fewer.
If it is rejected, the program emits its blocks and is rejected likewise, unless a ceiling was
exceeded: then the blocks are as much as was seen of what the program emits. -/
theorem expansion_refines_reference :
    (∀ blocks ledger', p.expand limits ledger = .ok blocks ledger' →
      (p.reference limits ledger).First p.main limits.maxBlocks.toNat blocks ∧
        (blocks.length < limits.maxBlocks.toNat →
          (p.reference limits ledger).Emits p.main ⟨blocks, .finished⟩)) ∧
    (∀ rejection s, p.run limits ledger = .error rejection s → rejection.isRunaway = false →
      (p.reference limits ledger).Emits p.main ⟨s.output.toList, .rejected rejection⟩ ∧
        s.output.size < limits.maxBlocks.toNat) ∧
    (∀ ceiling limit s, p.run limits ledger = .error (.runaway ceiling limit) s →
      (p.reference limits ledger).Emits p.main ⟨s.output.toList, .pending⟩ ∧
        s.output.size ≤ limits.maxBlocks.toNat ∧ limits.Exceeded s.work ceiling limit) ∧
    (∀ a b, (p.reference limits ledger).Emits p.main a →
      (p.reference limits ledger).Emits p.main b → a.Agrees b) := by
  obtain ⟨n, hn⟩ := p.eventually_outcome limits ledger
  have hs := p.size_stage limits ledger n
  rw [hn n le_rfl] at hs
  have he := p.outcome_explained limits ledger
  refine ⟨?_, ?_, ?_, fun _ _ ha hb => ha.agrees hb⟩
  · intro blocks ledger' h
    rw [expand_eq] at h
    cases hr : p.run limits ledger with
    | error rejection s => rw [hr] at h; cases h
    | ok u s =>
      rw [hr] at h
      cases h
      obtain ⟨s', ho, rfl⟩ := outcome_of_run_ok hr
      rw [ho] at he hs
      have hs : s'.output.toList.length ≤ limits.maxBlocks.toNat := hs
      rcases he.emits_of_ok rfl with he | ⟨he, hf⟩
      · have hfirst := he.first (k := limits.maxBlocks.toNat) (.inl (by simp))
        rw [List.take_of_length_le hs] at hfirst
        exact ⟨hfirst, fun _ => he⟩
      · have hl : limits.maxBlocks.toNat ≤ s'.output.toList.length := by
          rw [RunState.isFull_iff] at hf
          rw [Array.length_toList]
          omega
        have hfirst := he.first (.inr hl)
        rw [List.take_of_length_le hs] at hfirst
        exact ⟨hfirst, fun hlt => absurd hlt (Nat.not_lt.mpr hl)⟩
  · intro rejection s h hr
    have hf := room_of_rejected h hr
    rw [outcome_of_run_error h] at he
    refine ⟨he.emits_of_error rfl hr, ?_⟩
    rw [Bool.eq_false_iff, Ne, RunState.isFull_iff] at hf
    omega
  · intro ceiling limit s h
    rw [outcome_of_run_error h] at he hs
    obtain ⟨he, hx⟩ := he.emits_of_runaway rfl
    exact ⟨he, hs, hx⟩

/-- A row of three blocks, and a step behind it that could not be read. -/
def row : Program :=
  { steps :=
      [.loop "x" (.int 0) (.int 2) (.int 1) [.place (.str "x") (.int 0) (.int 0) (.str "a")],
       .invalid ⟨.stepNotObject, []⟩] }

theorem expansion_refines_reference_row :
    (row.reference { maxBlocks := 2 } quarry).First row.main 2
      [⟨0, 0, 0, "minecraft:a"⟩, ⟨1, 0, 0, "minecraft:a"⟩] ∧
    (row.reference {} quarry).Emits row.main
      ⟨[⟨0, 0, 0, "minecraft:a"⟩, ⟨1, 0, 0, "minecraft:a"⟩, ⟨2, 0, 0, "minecraft:a"⟩],
       .rejected (.malformed ⟨.stepNotObject, []⟩)⟩ ∧
    (row.reference { maxSteps := 2 } quarry).Emits row.main
      ⟨[⟨0, 0, 0, "minecraft:a"⟩], .pending⟩ := by
  have full : row.expand { maxBlocks := 2 } quarry =
      .ok [⟨0, 0, 0, "minecraft:a"⟩, ⟨1, 0, 0, "minecraft:a"⟩]
        (quarry.record (.programRun 2 3 0)) := by decide +kernel
  have rejected : row.run {} quarry = .error (.malformed ⟨.stepNotObject, []⟩)
      { ledger := quarry
        output := #[⟨0, 0, 0, "minecraft:a"⟩, ⟨1, 0, 0, "minecraft:a"⟩, ⟨2, 0, 0, "minecraft:a"⟩]
        work := { steps := 5, iterations := 3, levels := 2 } } := by decide +kernel
  have runaway : row.run { maxSteps := 2 } quarry = .error (.runaway .executedSteps 2)
      { ledger := quarry
        output := #[⟨0, 0, 0, "minecraft:a"⟩]
        work := { steps := 3, iterations := 2, levels := 2 } } := by decide +kernel
  exact ⟨(expansion_refines_reference.1 _ _ full).1,
    (expansion_refines_reference.2.1 _ _ rejected rfl).1,
    (expansion_refines_reference.2.2.1 _ _ _ runaway).1⟩

end Program
end VoxelBlueprint
