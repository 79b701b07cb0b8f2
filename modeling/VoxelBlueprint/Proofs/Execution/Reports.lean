/-
# What an execution asks of its snapshot

An execution asks its snapshot for a block when it begins a placement whose coordinates can be
had, and at no other transition. So the reports that a run adds to the ledger, whether it ends well
or is rejected on the way, are those of the ids that its stages ask for.

Key definitions: `RunContext.ask?`, `Program.Asks`.
Key theorems: `RunContext.Moves.reports`, `Program.reports_stage`, `Program.reports_outcome`.
-/
import VoxelBlueprint.Proofs.Catalog.Reports
import VoxelBlueprint.Proofs.Execution.Runs

namespace VoxelBlueprint

open Effects Stage

namespace RunContext

variable {c : RunContext} {snapshot : Catalog.Snapshot} {rest : Agenda} {s : RunState}
  {stage : Stage RunState}

/-- The canonical id for which the next transition asks the snapshot, if it asks for one. -/
def ask? (c : RunContext) : Stage RunState → Option String
  | .ok (.steps scope (.place x y z blockType :: _) :: _) s =>
    if s.isFull c.limits = false ∧ s.work.steps + 1 ≤ c.limits.maxSteps then
      match coordinatesAt c.limits scope [.field "place"] x y z with
      | .ok _ => some (Catalog.requestedId scope blockType)
      | .error _ => none
    else none
  | _ => none

theorem ask?_of_full {task : Task} (h : s.isFull c.limits = true) :
    c.ask? (.ok (task :: rest) s) = none := by
  unfold ask?
  split
  · rename_i he
    cases he
    rw [if_neg (by simp [h])]
  · rfl

theorem ask?_of_tooManySteps {scope : Scope} {step : Step} {steps : List Step}
    (h : c.limits.maxSteps < s.work.steps + 1) :
    c.ask? (.ok (.steps scope (step :: steps) :: rest) s) = none := by
  unfold ask?
  split
  · rename_i he
    cases he
    rw [if_neg fun hm => by omega]
  · rfl

/-- Where nothing is asked for and the ledger stays as it is, nothing is reported. -/
theorem reports_of_none {a : Stage RunState} {l l' : Ledger} (h : c.ask? a = none) (hl : l' = l) :
    Ledger.Reports snapshot (fun id => c.ask? a = some id) l l' := by
  subst hl
  exact (Ledger.Reports.refl snapshot l').congr fun id => by simp [h]

/-- A step that is begun asks for a block if it is a placement at coordinates that can be had. -/
theorem Begins.reports (hc : c.captured = some snapshot) {scope : Scope} {step : Step}
    {steps : List Step} (hf : s.isFull c.limits = false)
    (hs : s.work.steps + 1 ≤ c.limits.maxSteps)
    (h : c.Begins scope (.steps scope steps :: rest) s.countStep step stage) :
    Ledger.Reports snapshot
      (fun id => c.ask? (.ok (.steps scope (step :: steps) :: rest) s) = some id)
      s.ledger stage.state.ledger := by
  cases h with
  | @place x y z blockType p hp =>
    have ha : c.ask? (.ok (.steps scope (.place x y z blockType :: steps) :: rest) s) =
        some (Catalog.requestedId scope blockType) := by
      simp only [ask?, hf, hs, hp, and_self, if_true]
    have hr := Ledger.Reports.blockFor snapshot scope blockType s.ledger
    have hsnapshot : s.countStep.snapshot c = snapshot := by
      rw [RunState.snapshot, hc, Option.getD_some]
    rw [← hsnapshot] at hr ⊢
    exact hr.congr fun id => by rw [ha, Option.some_inj, eq_comm]
  | @placeFailed x y z blockType r hp =>
    refine reports_of_none ?_ rfl
    simp only [ask?, hf, hs, hp, and_self, if_true]
  | skip | loop | loopFailed | tooManyCalls | callFailed | callTooDeep | call | invalid =>
    exact reports_of_none rfl rfl

/-- A transition reports what it asks for. -/
theorem Moves.reports (hc : c.captured = some snapshot) {agenda : Agenda}
    (h : c.Moves agenda s stage) :
    Ledger.Reports snapshot (fun id => c.ask? (.ok agenda s) = some id) s.ledger
      stage.state.ledger := by
  cases h with
  | full hf => exact reports_of_none (ask?_of_full hf) rfl
  | tooManySteps _ hm => exact reports_of_none (ask?_of_tooManySteps hm) rfl
  | step hf hs hb => exact hb.reports hc hf hs
  | idle | done | passed | bodyTooDeep | body => exact reports_of_none rfl rfl

end RunContext

namespace Program

variable (limits : Limits) (p : Program) (ledger : Ledger)

/-- Whether a run of a program asks for an id, at some stage. -/
def Asks (id : String) : Prop :=
  ∃ n, (p.context limits ledger.store.current).ask? (p.stage limits ledger n) = some id

/-- A run has reported what its stages so far have asked for. -/
theorem reports_stage (n : ℕ) :
    Ledger.Reports ledger.store.current
      (fun id => ∃ m < n, (p.context limits ledger.store.current).ask? (p.stage limits ledger m) =
        some id)
      ledger (p.stage limits ledger n).state.ledger := by
  induction n with
  | zero =>
    have hl : (p.stage limits ledger 0).state.ledger = ledger := by
      rw [stage_zero]
      split <;> rfl
    rw [hl]
    exact (Ledger.Reports.refl _ ledger).congr fun id => by simp
  | succ n ih =>
    have hstep : Ledger.Reports ledger.store.current
        (fun id => (p.context limits ledger.store.current).ask? (p.stage limits ledger n) = some id)
        (p.stage limits ledger n).state.ledger (p.stage limits ledger (n + 1)).state.ledger := by
      cases ha : p.stage limits ledger n with
      | ok agenda s => exact (moves_stage ha).reports rfl
      | error r s =>
        rw [stage_succ, ha]
        exact RunContext.reports_of_none rfl rfl
    refine (ih.trans hstep).congr fun id => ?_
    simp only [Nat.lt_succ_iff_lt_or_eq, or_and_right, exists_or, exists_eq_left]

/-- The outcome of a run has reported what the run asks for, be it a rejection or not. -/
theorem reports_outcome :
    Ledger.Reports ledger.store.current (p.Asks limits ledger) ledger
      (ofResult [] (p.outcome limits ledger)).state.ledger := by
  obtain ⟨n, hn⟩ := p.eventually_outcome limits ledger
  have hr := p.reports_stage limits ledger n
  rw [hn n (le_refl n)] at hr
  refine hr.congr fun id => ⟨fun ⟨m, _, hm⟩ => ⟨m, hm⟩, fun ⟨m, hm⟩ => ⟨m, ?_, hm⟩⟩
  -- once the outcome is reached, nothing is asked for any more
  by_contra hge
  rw [hn m (Nat.not_lt.mp hge)] at hm
  cases ho : p.outcome limits ledger <;> rw [ho] at hm <;> cases hm

end Program
end VoxelBlueprint
