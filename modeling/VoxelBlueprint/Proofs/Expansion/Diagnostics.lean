/-
# What rejections say

Whatever a document holds, it is expanded or rejected, and a rejection says what is wrong: that
the document has the wrong shape, or which expression has no value and at which place of the
document it stands, or which ceiling was exceeded. A text may also be rejected for holding no
document at all. There is nothing else for which a document or a text is rejected.

What composite work is rejected for is found by looking at its parts (`RaisesOnly`); what a run
is rejected for is found by looking at the rules of its transitions.

Key definitions: `Effects.RaisesOnly`, `Path.LeadsToValue`, `Rejection.Diagnoses`,
`Rejection.IsPrecise`.
Key theorems: `RunContext.Moves.diagnoses`, `Program.diagnoses_run`, `diagnoses_expandDocument`,
`expandText_apply`, `expansion_rejects_precisely`.
-/
import VoxelBlueprint.Proofs.Execution.Ceilings
import VoxelBlueprint.Proofs.Expansion.Documents

namespace VoxelBlueprint

/-! ### Computations that may only be ended by some errors -/

namespace Effects

variable {ε σ α β : Type} {P : ε → Prop}

/-- Whether a computation is ended by no other errors than those of a kind. -/
def RaisesOnly (P : ε → Prop) (x : EStateM ε σ α) : Prop :=
  ∀ s e s', x s = .error e s' → P e

namespace RaisesOnly

theorem pure (a : α) : RaisesOnly P (Pure.pure a : EStateM ε σ α) :=
  nofun

theorem throw {e : ε} (h : P e) : RaisesOnly P (MonadExcept.throw e : EStateM ε σ α) := by
  intro s e' s' he
  cases he
  exact h

theorem update (f : σ → σ) : RaisesOnly P (modify f : EStateM ε σ PUnit) :=
  nofun

theorem ofExcept {x : Except ε α} (h : ∀ e, x = .error e → P e) :
    RaisesOnly P (MonadExcept.ofExcept x : EStateM ε σ α) := by
  cases x with
  | ok a => exact pure a
  | error e => exact throw (h e rfl)

theorem bind {x : EStateM ε σ α} {f : α → EStateM ε σ β} (hx : RaisesOnly P x)
    (hf : ∀ a, RaisesOnly P (f a)) : RaisesOnly P (x >>= f) := by
  intro s e s' h
  rw [bind_apply] at h
  cases hr : x s with
  | ok a t =>
    rw [hr] at h
    exact hf a t e s' h
  | error e' t =>
    rw [hr] at h
    cases h
    exact hx s e s' hr

theorem get_bind {f : σ → EStateM ε σ α} (hf : ∀ s, RaisesOnly P (f s)) :
    RaisesOnly P (get >>= f) :=
  fun s => hf s s

theorem map {x : EStateM ε σ α} (f : α → β) (hx : RaisesOnly P x) : RaisesOnly P (f <$> x) :=
  hx.bind fun a => pure (f a)

/-- What handles an error may pass it on. -/
theorem tryCatch {x : EStateM ε σ α} {handle : ε → EStateM ε σ α} (hx : RaisesOnly P x)
    (hh : ∀ e, P e → RaisesOnly P (handle e)) : RaisesOnly P (MonadExcept.tryCatch x handle) := by
  intro s e s' h
  rw [tryCatch_apply] at h
  cases hr : x s with
  | ok a t =>
    rw [hr] at h
    cases h
  | error e' t =>
    rw [hr] at h
    exact hh e' (hx s e' t hr) t e s' h

end RaisesOnly
end Effects

open Effects

/-! ### What is said -/

/-- Whether a path leads to a value that a document says in place of an integer or of an argument:
as it is written in rejections, where steps are named by what they do. -/
inductive Path.LeadsToValue : Path → Prop
  | placement {axis : String} : axis ∈ ["x", "y", "z"] →
    LeadsToValue [.field "place", .field axis]
  | entry {index : Nat} {axis : String} : axis ∈ ["x", "y", "z"] →
    LeadsToValue [.field "blocks", .index index, .field axis]
  | loop {part : String} : part ∈ ["from", "to", "step"] →
    LeadsToValue [.field "for", .field part]
  | argument {callee name : String} :
    LeadsToValue [.field "call", .field callee, .field "args", .field name]

/-- Whether a rejection says what is wrong with a document, for an expansion with some limits. -/
inductive Rejection.Diagnoses (limits : Limits) : Rejection → Prop
  | malformed (m : Malformation) : Diagnoses limits (.malformed m)
  | unevaluable {path : Path} (hp : path.LeadsToValue) (fault : EvaluationFault)
    (expression : String) : Diagnoses limits (.unevaluable fault path expression)
  | runaway (ceiling : Ceiling) : Diagnoses limits (.runaway ceiling (limits.ceiling ceiling))

/-! ### Values -/

section Values

variable {limits : Limits} {scope : Scope} {r : Rejection}

/-- The fault of an expression is told with its place. -/
theorem diagnoses_mapError {α : Type} {x : Except Expression.Fault α} {path : Path} {text : String}
    (hp : path.LeadsToValue)
    (h : (x.mapError fun fault => .unevaluable (.expression fault) path text) = .error r) :
    r.Diagnoses limits := by
  cases x with
  | ok a => cases h
  | error fault =>
    cases h
    exact .unevaluable hp _ _

theorem diagnoses_integerAt {path : Path} {value : Json} (hp : path.LeadsToValue)
    (h : integerAt limits scope path value = .error r) : r.Diagnoses limits :=
  diagnoses_mapError hp h

theorem diagnoses_argumentAt {path : Path} {value : Json} (hp : path.LeadsToValue)
    (h : argumentAt limits scope path value = .error r) : r.Diagnoses limits :=
  diagnoses_mapError hp h

theorem diagnoses_coordinatesAt {path : Path} {x y z : Json}
    (hp : ∀ axis ∈ ["x", "y", "z"], Path.LeadsToValue (path ++ [.field axis]))
    (h : coordinatesAt limits scope path x y z = .error r) : r.Diagnoses limits := by
  rcases bind_eq_error h with hx | ⟨_, -, h⟩
  · exact diagnoses_integerAt (hp "x" (by simp)) hx
  rcases bind_eq_error h with hy | ⟨_, -, h⟩
  · exact diagnoses_integerAt (hp "y" (by simp)) hy
  rcases bind_eq_error h with hz | ⟨_, -, h⟩
  · exact diagnoses_integerAt (hp "z" (by simp)) hz
  · cases h

theorem diagnoses_loopRange {start stop stride : Json}
    (h : loopRange limits scope start stop stride = .error r) : r.Diagnoses limits := by
  rcases bind_eq_error h with hx | ⟨_, -, h⟩
  · exact diagnoses_integerAt (.loop (by simp)) hx
  rcases bind_eq_error h with hy | ⟨_, -, h⟩
  · exact diagnoses_integerAt (.loop (by simp)) hy
  rcases bind_eq_error h with hz | ⟨n, -, h⟩
  · exact diagnoses_integerAt (.loop (by simp)) hz
  by_cases hn : n = 0
  · rw [if_pos hn] at h
    cases h
    exact .unevaluable (.loop (by simp)) _ _
  · rw [if_neg hn] at h
    cases h

theorem diagnoses_bindArguments {callee : String} : ∀ {asked : List (String × Option Json)},
    bindArguments limits scope callee asked = .error r → r.Diagnoses limits
  | (name, none) :: _, h => by
    cases h
    exact .malformed _
  | (name, some value) :: asked, h => by
    rcases bind_eq_error h with ha | ⟨_, -, h⟩
    · exact diagnoses_argumentAt .argument ha
    rcases bind_eq_error h with hb | ⟨_, -, h⟩
    · exact diagnoses_bindArguments hb
    · cases h

theorem diagnoses_enterCall {c : RunContext} {callee : String} {arguments : List (String × Json)}
    (h : enterCall c scope callee arguments = .error r) : r.Diagnoses c.limits := by
  unfold enterCall at h
  cases hd : c.program.find? callee with
  | none =>
    rw [hd] at h
    cases h
    exact .malformed _
  | some d =>
    rw [hd] at h
    rcases bind_eq_error h with hb | ⟨_, -, h⟩
    · exact diagnoses_bindArguments hb
    · cases h

end Values

/-! ### Runs -/

namespace RunContext

variable {c : RunContext} {r : Rejection} {s s' : RunState}

theorem Begins.diagnoses {scope : Scope} {rest : Agenda} {step : Step}
    (h : c.Begins scope rest s step (.error r s')) : r.Diagnoses c.limits := by
  cases h with
  | placeFailed h => exact diagnoses_coordinatesAt (fun _ => .placement) h
  | loopFailed h => exact diagnoses_loopRange h
  | tooManyCalls => exact .runaway .callCount
  | callFailed _ h => exact diagnoses_enterCall h
  | callTooDeep => exact .runaway .callDepth
  | invalid => exact .malformed _

/-- A transition that is rejected says what is wrong. -/
theorem Moves.diagnoses {agenda : Agenda} (h : c.Moves agenda s (.error r s')) :
    r.Diagnoses c.limits := by
  cases h with
  | bodyTooDeep => exact .runaway .callDepth
  | tooManySteps => exact .runaway .executedSteps
  | step _ _ h => exact h.diagnoses

end RunContext

variable (limits : Limits)

/-- A run that is rejected says what is wrong. -/
theorem Program.diagnoses_run {p : Program} {ledger : Ledger} {r : Rejection} {s : RunState}
    (h : p.run limits ledger = .error r s) : r.Diagnoses limits := by
  obtain ⟨n, hn⟩ := exists_stage_of_run_error h
  rcases exists_rejecting hn with h0 | ⟨m, agenda, t, ht, hm⟩
  · rw [stage_zero] at h0
    by_cases hd : 0 ≤ limits.maxCallDepth
    · rw [if_pos hd] at h0
      cases h0
    · rw [if_neg hd] at h0
      cases h0
      exact .runaway .callDepth
  · exact (hm ▸ moves_stage ht).diagnoses

/-! ### Documents -/

section Documents

variable (document : Json)

theorem diagnoses_readBlock (snapshot : Catalog.Snapshot) (index : Nat) (entry : Json) :
    RaisesOnly (Rejection.Diagnoses limits) (readBlock limits snapshot index entry) := by
  unfold readBlock
  refine .bind (.ofExcept fun r h => ?_) fun _ => .bind nofun fun _ => .pure _
  unfold entryCoordinates at h
  by_cases ho : entry.isObject = true
  · rw [if_pos ho] at h
    exact diagnoses_coordinatesAt (fun _ => .entry) h
  · rw [if_neg ho] at h
    cases h
    exact .malformed _

theorem diagnoses_readBlocks (snapshot : Catalog.Snapshot) :
    ∀ (index : Nat) (entries : List Json),
      RaisesOnly (Rejection.Diagnoses limits) (readBlocks limits snapshot index entries)
  | _, [] => .pure _
  | index, entry :: entries =>
    .bind (diagnoses_readBlock limits snapshot index entry) fun _ =>
      .bind (diagnoses_readBlocks snapshot (index + 1) entries) fun _ => .pure _

theorem diagnoses_expandBlockList :
    RaisesOnly (Rejection.Diagnoses limits) (expandBlockList limits document) := by
  unfold expandBlockList
  split
  · exact .get_bind fun ledger => diagnoses_readBlocks limits _ _ _
  · exact .throw (.malformed _)

theorem diagnoses_expand (p : Program) :
    RaisesOnly (Rejection.Diagnoses limits) (p.expand limits) := by
  intro ledger r l h
  rw [Program.expand_eq] at h
  cases hr : p.run limits ledger with
  | ok u s =>
    rw [hr] at h
    cases h
  | error r' s =>
    rw [hr] at h
    cases h
    exact Program.diagnoses_run limits hr

theorem diagnoses_expandProgram :
    RaisesOnly (Rejection.Diagnoses limits) (expandProgram limits document) := by
  refine .bind ?_ (diagnoses_expand limits)
  unfold readProgram
  cases Program.read document with
  | error m => exact .throw (.malformed m)
  | ok p =>
    dsimp only
    split
    · exact .bind (.update _) fun _ => .pure p
    · exact .pure p

theorem diagnoses_dispatch :
    RaisesOnly (Rejection.Diagnoses limits) (dispatch limits document) := by
  unfold dispatch
  split
  · exact .throw (.malformed _)
  · exact .throw (.malformed _)
  · exact .bind (diagnoses_expandBlockList limits document) fun _ => .pure _
  · refine .tryCatch (.map _ (diagnoses_expandProgram limits document)) fun r hr => .map _ ?_
    unfold fallBack
    split
    · exact .bind (.update _) fun _ => diagnoses_expandBlockList limits document
    · exact .throw hr

/-- A document that is rejected is told what is wrong with it. -/
theorem diagnoses_expandDocument :
    RaisesOnly (Rejection.Diagnoses limits) (expandDocument limits document) :=
  .bind (diagnoses_dispatch limits document) fun _ => .pure _

end Documents

/-! ### Texts -/

theorem expandText_apply (text : List Char) (ledger : Ledger) :
    expandText limits text ledger =
      match Document.decode text with
      | .ok document => expandDocument limits document ledger
      | .error fault => .error (.undecodable fault) ledger := by
  rw [expandText, bind_apply, decodeDocument]
  cases Document.decode text <;> rfl

/-! ### How it reads -/

/-- Whether a rejection of a document reads precisely: the document has the wrong shape, or a
place and an expression are given, or a ceiling with its name and its value. -/
def Rejection.IsPrecise (limits : Limits) (r : Rejection) : Prop :=
  r.kindName = "StructuralError" ∨
  (r.kindName = "EvaluationError" ∧
    ∃ path expression, r.path? = some path ∧ path ≠ "" ∧ r.expression? = some expression) ∨
  (r.kindName = "BudgetExceededError" ∧
    ∃ ceiling limit, r = .runaway ceiling limit ∧
      (ceiling.name, limit) ∈
        [("call depth", limits.maxCallDepth), ("executed steps", limits.maxSteps),
          ("call count", limits.maxCalls)])

/-- A path that leads to a value is written with the name of a field at its start. -/
theorem Path.LeadsToValue.exists_text {path : Path} (h : path.LeadsToValue) :
    ∃ text, path.text? = some text ∧ text ≠ "" := by
  cases h with
  | placement => exact ⟨_, rfl, by simp [Path.text]⟩
  | entry => exact ⟨_, rfl, by simp [Path.text]⟩
  | loop => exact ⟨_, rfl, by simp [Path.text]⟩
  | argument => exact ⟨_, rfl, by simp [Path.text]⟩

/-- What says what is wrong reads precisely. -/
theorem Rejection.Diagnoses.isPrecise {r : Rejection} (h : r.Diagnoses limits) :
    r.IsPrecise limits := by
  cases h with
  | malformed m => exact .inl rfl
  | unevaluable hp fault expression =>
    obtain ⟨text, ht, hne⟩ := hp.exists_text
    exact .inr (.inl ⟨rfl, text, expression, ht, hne, rfl⟩)
  | runaway ceiling =>
    refine .inr (.inr ⟨rfl, ceiling, limits.ceiling ceiling, rfl, ?_⟩)
    cases ceiling <;> simp [Ceiling.name, Limits.ceiling]

/-- **Every rejection reads precisely.** Whatever a document holds and whatever the catalog is, the
document is expanded, or it is rejected precisely. Of a text this is true as well, or it is
rejected because it holds no document. -/
theorem expansion_rejects_precisely (limits : Limits) (ledger : Ledger) :
    (∀ document : Json,
      (∃ b l, expandDocument limits document ledger = .ok b l) ∨
      ∃ r l, expandDocument limits document ledger = .error r l ∧ r.IsPrecise limits) ∧
    ∀ text : List Char,
      (∃ b l, expandText limits text ledger = .ok b l) ∨
      (∃ r l, expandText limits text ledger = .error r l ∧ r.IsPrecise limits) ∨
      ∃ r fault, expandText limits text ledger = .error r ledger ∧
        r.kindName = "DocumentDecodeError" ∧ Document.decode text = .error fault := by
  have documents : ∀ document : Json,
      (∃ b l, expandDocument limits document ledger = .ok b l) ∨
      ∃ r l, expandDocument limits document ledger = .error r l ∧ r.IsPrecise limits := by
    intro document
    cases h : expandDocument limits document ledger with
    | ok b l => exact .inl ⟨b, l, rfl⟩
    | error r l =>
      have hr := diagnoses_expandDocument limits document ledger r l h
      exact .inr ⟨r, l, rfl, hr.isPrecise⟩
  refine ⟨documents, fun text => ?_⟩
  rw [expandText_apply]
  cases hd : Document.decode text with
  | ok document =>
    rcases documents document with ⟨b, l, hb⟩ | ⟨r, l, hr, hp⟩
    · exact .inl ⟨b, l, hb⟩
    · exact .inr (.inl ⟨r, l, hr, hp⟩)
  | error fault => exact .inr (.inr ⟨.undecodable fault, fault, rfl, rfl, rfl⟩)

end VoxelBlueprint
