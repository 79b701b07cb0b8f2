/-
# Runs from the start

A run of a program from the start begins with an empty output and nothing counted, and
takes its blocks from the snapshot that is current then. Transition by transition it goes
through stages, which from some transition on are all the same: the outcome.

Key definitions: `Program.run`, `Program.outcome`, `Program.stage`.
Key theorems: `Program.eventually_outcome`, `Program.expand_eq`, `Program.outcome_of_run_ok`,
`Program.exists_stage_of_run_error`, `Program.exists_rejecting`.
-/
import VoxelBlueprint.Expansion.Dispatch
import VoxelBlueprint.Proofs.Execution.Growth

namespace VoxelBlueprint

open Effects Stage

namespace Stage

variable {σ : Type} {t : Transition σ} {a : Stage σ}

/-- Where an execution ends it stays. -/
theorem eventually_ofResult (ht : ∀ s, t [] s = .ok [] s)
    {result : EStateM.Result Rejection σ Unit} (h : Leads t a (ofResult [] result)) :
    ∃ n, ∀ m ≥ n, (next t)^[m] a = ofResult [] result := by
  obtain ⟨n, hn⟩ := h
  refine ⟨n, fun m hm => ?_⟩
  obtain ⟨k, rfl⟩ := Nat.exists_eq_add_of_le' hm
  rw [Function.iterate_add_apply, hn]
  cases result with
  | ok u s => exact iterate_nil ht k s
  | error r s => exact iterate_error k r s

end Stage

namespace Program

variable (limits : Limits) (p : Program) (ledger : Ledger)

/-- The context in which a program is run with a snapshot. -/
def context (snapshot : Catalog.Snapshot) : RunContext :=
  { program := p, limits, captured := some snapshot }

/-- How a run of a program from the start ends. -/
def run : EStateM.Result Rejection RunState Unit :=
  runProgram (p.context limits ledger.store.current) { ledger }

/-- How the execution of its steps ends, before the end of the run is recorded. -/
def outcome : EStateM.Result Rejection RunState Unit :=
  let c := p.context limits ledger.store.current
  execute c c.maxLevels p.steps [] { ledger }

/-- The stage of a run from the start after so many transitions. -/
def stage (n : ℕ) : Stage RunState :=
  let c := p.context limits ledger.store.current
  (next c.transition)^[n] (c.start { ledger })

theorem stage_succ (n : ℕ) : p.stage limits ledger (n + 1) =
    next (p.context limits ledger.store.current).transition (p.stage limits ledger n) :=
  Function.iterate_succ_apply' _ _ _

/-- From some transition on the stage of a run is its outcome. -/
theorem eventually_outcome :
    ∃ n, ∀ m ≥ n, p.stage limits ledger m = ofResult [] (p.outcome limits ledger) :=
  eventually_ofResult (RunContext.transition_nil _)
    (start_leads (p.context limits ledger.store.current) { ledger })

theorem run_eq : p.run limits ledger =
    match p.outcome limits ledger with
    | .ok _ s => .ok () (s.record s.endEvent)
    | .error r s => .error r s :=
  runProgram_apply _ _

theorem expand_eq : p.expand limits ledger =
    match p.run limits ledger with
    | .ok _ s => .ok s.output.toList s.ledger
    | .error r s => .error r s.ledger := by
  unfold expand run context
  split <;> simp_all

/-- The stage in which a run starts: its list of steps is open if the depth allows one. -/
theorem stage_zero : p.stage limits ledger 0 =
    if 0 ≤ limits.maxCallDepth then .ok [.steps [] p.steps] (({ ledger } : RunState).countLevels 1)
    else .error (.runaway .callDepth limits.maxCallDepth)
      (({ ledger } : RunState).countLevels 1) := by
  refine (RunContext.openSteps_apply (p.context limits ledger.store.current) [] p.steps []
    { ledger }).trans ?_
  have : (p.context limits ledger.store.current).maxLevels ≤ Agenda.levels [] ↔
      ¬ 0 ≤ limits.maxCallDepth := by
    unfold RunContext.maxLevels
    show (limits.maxCallDepth + 1).toNat ≤ 0 ↔ _
    omega
  simp only [this, ite_not]
  rfl

/-- A run in which no list of steps may be opened is rejected at once. -/
theorem outcome_of_no_depth (hd : ¬ 0 ≤ limits.maxCallDepth) :
    p.outcome limits ledger = .error (.runaway .callDepth limits.maxCallDepth)
      (({ ledger } : RunState).countLevels 1) := by
  have hl : (p.context limits ledger.store.current).maxLevels = 0 :=
    Int.toNat_of_nonpos (by show limits.maxCallDepth + 1 ≤ 0; omega)
  unfold outcome
  simp only [hl]
  rw [execute, hl]
  rfl

/-- The output of a run never passes the ceiling. -/
theorem size_stage (n : ℕ) :
    (p.stage limits ledger n).state.output.size ≤ limits.maxBlocks.toNat := by
  have h := size_iterate (c := p.context limits ledger.store.current) n
    (p.stage limits ledger 0)
  have h0 : (p.stage limits ledger 0).state.output.size = 0 := by
    rw [stage_zero]
    split <;> rfl
  rw [h0, Nat.zero_max] at h
  exact h

variable {limits p ledger}

/-- A run that ends well ends with the outcome and the record of it. -/
theorem outcome_of_run_ok {s : RunState} (h : p.run limits ledger = .ok () s) :
    ∃ s', p.outcome limits ledger = .ok () s' ∧ s = s'.record s'.endEvent := by
  rw [run_eq] at h
  cases ho : p.outcome limits ledger with
  | ok u s' =>
    rw [ho] at h
    cases h
    exact ⟨s', rfl, rfl⟩
  | error r s' => rw [ho] at h; cases h

theorem outcome_of_run_error {r : Rejection} {s : RunState}
    (h : p.run limits ledger = .error r s) : p.outcome limits ledger = .error r s := by
  rw [run_eq] at h
  cases ho : p.outcome limits ledger with
  | ok u s' => rw [ho] at h; cases h
  | error r' s' => rw [ho] at h; cases h; rfl

/-- A run that is rejected comes to its rejection. -/
theorem exists_stage_of_run_error {r : Rejection} {s : RunState}
    (h : p.run limits ledger = .error r s) : ∃ n, p.stage limits ledger n = .error r s := by
  obtain ⟨n, hn⟩ := p.eventually_outcome limits ledger
  refine ⟨n, (hn n (le_refl n)).trans ?_⟩
  rw [outcome_of_run_error h]
  rfl

/-- Every stage comes from the one before it by a rule. -/
theorem moves_stage {n : ℕ} {agenda : Agenda} {s : RunState}
    (h : p.stage limits ledger n = .ok agenda s) :
    (p.context limits ledger.store.current).Moves agenda s (p.stage limits ledger (n + 1)) := by
  rw [stage_succ, h]
  exact RunContext.moves_transition _ agenda s

/-- A run is rejected at its start, or by a transition. -/
theorem exists_rejecting {n : ℕ} {r : Rejection} {s : RunState}
    (h : p.stage limits ledger n = .error r s) : p.stage limits ledger 0 = .error r s ∨
      ∃ m agenda t, p.stage limits ledger m = .ok agenda t ∧
        p.stage limits ledger (m + 1) = .error r s := by
  induction n with
  | zero => exact .inl h
  | succ n ih =>
    cases ha : p.stage limits ledger n with
    | ok agenda t => exact .inr ⟨n, agenda, t, ha, h⟩
    | error r' s' =>
      rw [stage_succ, ha] at h
      cases h
      exact ih ha

/-- A run in which a list of steps may be opened is rejected only while there is room. -/
theorem room_of_error (hd : 0 ≤ limits.maxCallDepth) {n : ℕ} {r : Rejection} {s : RunState}
    (h : p.stage limits ledger n = .error r s) : s.isFull limits = false := by
  rcases exists_rejecting h with h0 | ⟨m, agenda, t, ht, hr⟩
  · rw [stage_zero, if_pos hd] at h0
    cases h0
  · obtain ⟨hf, ho⟩ := (hr ▸ moves_stage ht).not_full
    rw [RunState.isFull_congr _ ho]
    exact hf

end Program

/-- A ledger with a catalog of one block. -/
def quarry : Ledger := { store := { current := ⟨["minecraft:a"], "v1", "quarry", 0⟩ } }

end VoxelBlueprint
