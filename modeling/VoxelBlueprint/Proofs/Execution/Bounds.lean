/-
# Every run ends within its limits

A run ends after a number of transitions that depends on the ceiling on the steps alone.
A loop may take as many values as it likes and a definition may call itself: each value
of a loop costs a step, since its body is not empty and it is begun only while there is
room, and each step opens one list or one loop at the most. `potential` counts the steps
that may still be taken, four times each, and what is on the agenda.

Key definitions: `RunState.due`, `Stage.Paid`, `Stage.potential`, `Program.finalState`.
Key theorems: `RunContext.Moves.paid`, `RunContext.Moves.potential_lt`,
`Stage.ended_iterate`, `Program.run_within_limits`.
-/
import VoxelBlueprint.Proofs.Execution.Runs

namespace VoxelBlueprint

open Stage

/-! ### What the work so far has paid for -/

/-- Whether a loop has something to do for each of its values. -/
def Task.Proper : Task → Prop
  | .steps _ _ => True
  | .loop _ _ _ _ body _ => body ≠ []

/-- How many steps are taken next without fail: one if a step is next and there is room. -/
def RunState.due (limits : Limits) (s : RunState) : Agenda → Nat
  | .steps _ (_ :: _) :: _ => if s.isFull limits then 0 else 1
  | _ => 0

/-- The invariant of a run: loops have bodies, no list is open beyond the depth, the steps
are within their ceiling, and every iteration is paid for by a step that was taken or is due. -/
structure RunContext.Paid (c : RunContext) (agenda : Agenda) (s : RunState) : Prop where
  proper : ∀ task ∈ agenda, task.Proper
  levels : agenda.levels ≤ c.maxLevels
  steps : s.work.steps ≤ c.limits.maxSteps.toNat
  iterations : s.work.iterations ≤ s.work.steps + s.due c.limits agenda

/-- The invariant of a run on its stages: a rejection may come with one step too many, or
with one iteration that was not paid for. -/
def Stage.Paid (c : RunContext) : Stage RunState → Prop
  | .ok agenda s => c.Paid agenda s
  | .error _ s => s.work.steps ≤ c.limits.maxSteps.toNat + 1 ∧
    s.work.iterations ≤ s.work.steps + 1

namespace RunState

variable {limits : Limits} {s : RunState}

theorem due_le_one (limits : Limits) (s : RunState) : ∀ agenda : Agenda, s.due limits agenda ≤ 1
  | [] => Nat.zero_le _
  | .steps _ [] :: _ => Nat.zero_le _
  | .steps _ (_ :: _) :: _ => by
    show (if s.isFull limits then 0 else 1) ≤ 1
    split <;> omega
  | .loop _ _ _ _ _ _ :: _ => Nat.zero_le _

theorem due_full (hf : s.isFull limits = true) : ∀ agenda : Agenda, s.due limits agenda = 0
  | [] => rfl
  | .steps _ [] :: _ => rfl
  | .steps _ (_ :: _) :: _ => if_pos hf
  | .loop _ _ _ _ _ _ :: _ => rfl

theorem due_step (hf : s.isFull limits = false) (scope : Scope) {steps : List Step}
    (hs : steps ≠ []) (rest : Agenda) : s.due limits (.steps scope steps :: rest) = 1 := by
  cases steps with
  | nil => exact absurd rfl hs
  | cons step steps => exact if_neg (by simp [hf])

end RunState

namespace RunContext

variable {c : RunContext}

/-- Beginning a step puts one task at the most on the agenda, and opens a list only where the
depth allows it. -/
theorem Begins.agenda {scope : Scope} {rest agenda : Agenda} {s s' : RunState} {step : Step}
    (h : c.Begins scope rest s step (.ok agenda s')) :
    agenda = rest ∨ ∃ task : Task, agenda = task :: rest ∧ task.Proper ∧
      Agenda.levels (task :: rest) ≤ max rest.levels c.maxLevels := by
  cases h with
  | place | skip => exact .inl rfl
  | loop hb => exact .inr ⟨_, rfl, hb, le_max_left _ _⟩
  | call _ _ hl => exact .inr ⟨_, rfl, trivial, le_max_of_le_right hl⟩

/-- Beginning a step counts no step and no iteration. -/
theorem Begins.work {scope : Scope} {rest : Agenda} {s : RunState} {step : Step}
    {stage : Stage RunState} (h : c.Begins scope rest s step stage) :
    stage.state.work.steps = s.work.steps ∧ stage.state.work.iterations = s.work.iterations := by
  cases h <;> exact ⟨rfl, rfl⟩

/-- What is left of an agenda of which the first task is dropped keeps the invariant. -/
theorem Paid.tail {task : Task} {rest : Agenda} {s : RunState} (h : c.Paid (task :: rest) s)
    (hd : s.due c.limits (task :: rest) = 0) : c.Paid rest s where
  proper t ht := h.proper t (List.mem_cons_of_mem _ ht)
  levels := by
    have := h.levels
    cases task <;> simp only [Agenda.levels] at this <;> omega
  steps := h.steps
  iterations := by
    have := h.iterations
    omega

/-- One transition keeps the invariant. -/
theorem Moves.paid {agenda : Agenda} {s : RunState} {stage : Stage RunState}
    (h : c.Moves agenda s stage) (hi : c.Paid agenda s) : Stage.Paid c stage := by
  have hs := hi.steps
  have ht := hi.iterations
  have hd := RunState.due_le_one c.limits s agenda
  cases h with
  | idle => exact hi
  | done => exact hi.tail rfl
  | full hf => exact hi.tail (RunState.due_full hf _)
  | passed => exact hi.tail rfl
  | bodyTooDeep => exact ⟨Nat.le_succ_of_le hs, Nat.succ_le_succ ht⟩
  | body hf _ hl =>
    have hb := hi.proper _ List.mem_cons_self
    refine ⟨?_, hl, hs, ?_⟩
    · intro task htask
      rcases List.mem_cons.mp htask with rfl | htask
      · trivial
      rcases List.mem_cons.mp htask with rfl | htask
      · exact hb
      · exact hi.proper task (List.mem_cons_of_mem _ htask)
    · rw [RunState.due_step (s := s.countIteration.countLevels _) hf _ hb]
      exact Nat.succ_le_succ ht
  | tooManySteps =>
    refine ⟨Nat.succ_le_succ hs, ?_⟩
    rw [RunState.steps_countStep, RunState.iterations_countStep]
    omega
  | step hf hl hb =>
    obtain ⟨hbs, hbi⟩ := hb.work
    rw [RunState.steps_countStep] at hbs
    rw [RunState.iterations_countStep] at hbi
    cases stage with
    | error r s' =>
      show s'.work.steps ≤ _ ∧ _
      simp only [state] at hbs hbi
      omega
    | ok agenda' s' =>
      simp only [state] at hbs hbi
      have hp := (List.forall_mem_cons.mp hi.proper).2
      obtain rfl | ⟨task, rfl, ht', hl'⟩ := hb.agenda
      · exact ⟨List.forall_mem_cons.mpr ⟨trivial, hp⟩, hi.levels, by omega, by omega⟩
      · exact ⟨List.forall_mem_cons.mpr ⟨ht', List.forall_mem_cons.mpr ⟨trivial, hp⟩⟩,
          hl'.trans (max_le hi.levels le_rfl), by omega, by omega⟩

/-- A transition takes the step that is due, if one is, and no other. -/
theorem Moves.steps {agenda : Agenda} {s : RunState} {stage : Stage RunState}
    (h : c.Moves agenda s stage) :
    stage.state.work.steps = s.work.steps + s.due c.limits agenda := by
  cases h with
  | full hf =>
    rw [RunState.due_full hf]
    rfl
  | tooManySteps hf =>
    rw [RunState.due_step hf _ (List.cons_ne_nil _ _)]
    rfl
  | step hf _ hb =>
    rw [RunState.due_step hf _ (List.cons_ne_nil _ _), hb.work.1]
    rfl
  | _ => rfl

/-- After a transition that begins an iteration a step is due, unless it was rejected for
the depth. -/
theorem Moves.iterations {agenda : Agenda} {s : RunState} {stage : Stage RunState}
    (h : c.Moves agenda s stage) (hp : ∀ task ∈ agenda, task.Proper) :
    stage.state.work.iterations = s.work.iterations ∨
      (∃ s', stage = .error (.runaway .callDepth c.limits.maxCallDepth) s') ∨
      ∃ agenda' s', stage = .ok agenda' s' ∧ s'.due c.limits agenda' = 1 := by
  cases h with
  | bodyTooDeep => exact .inr (.inl ⟨_, rfl⟩)
  | body hf =>
    have hb := hp _ List.mem_cons_self
    exact .inr (.inr ⟨_, _, rfl,
      RunState.due_step (s := s.countIteration.countLevels _) hf _ hb _⟩)
  | step _ _ hb => exact .inl hb.work.2
  | _ => exact .inl rfl

end RunContext

namespace Stage

variable {c : RunContext}

theorem Paid.next {a : Stage RunState} (h : Paid c a) : Paid c (next c.transition a) := by
  cases a with
  | error r s => exact h
  | ok agenda s => exact (c.moves_transition agenda s).paid h

theorem Paid.iterate {a : Stage RunState} (h : Paid c a) (n : ℕ) :
    Paid c ((Stage.next c.transition)^[n] a) := by
  induction n generalizing a with
  | zero => exact h
  | succ n ih => exact ih h.next

/-! ### How many transitions are left -/

/-- Whether there is nothing left to do. -/
def Ended : Stage RunState → Prop
  | .ok [] _ => True
  | .ok (_ :: _) _ => False
  | .error _ _ => True

/-- A bound on the transitions that are left: each step that may still be taken drops a task,
puts another one on the agenda and lets a step become due no more, and its own transition. -/
def potential (c : RunContext) : Stage RunState → ℕ
  | .ok [] _ => 0
  | .ok (task :: rest) s =>
    4 * (c.limits.maxSteps.toNat + 1 - s.work.steps) + (rest.length + 1) +
      2 * (1 - s.due c.limits (task :: rest))
  | .error _ _ => 0

theorem ended_of_potential {a : Stage RunState} (h : potential c a = 0) : Ended a := by
  rcases a with ⟨_ | ⟨task, rest⟩, s⟩ | ⟨r, s⟩
  · trivial
  · simp [potential] at h
  · trivial

theorem Ended.next {a : Stage RunState} (h : Ended a) : next c.transition a = a := by
  rcases a with ⟨_ | ⟨task, rest⟩, s⟩ | ⟨r, s⟩
  · rfl
  · exact h.elim
  · rfl

theorem potential_cons (task : Task) (rest : Agenda) (s : RunState) :
    potential c (.ok (task :: rest) s) =
      4 * (c.limits.maxSteps.toNat + 1 - s.work.steps) + (rest.length + 1) +
        2 * (1 - s.due c.limits (task :: rest)) := rfl

theorem potential_le (agenda : Agenda) (s : RunState) : potential c (.ok agenda s) ≤
    4 * (c.limits.maxSteps.toNat + 1 - s.work.steps) + agenda.length +
      2 * (1 - s.due c.limits agenda) := by
  cases agenda with
  | nil => exact Nat.zero_le _
  | cons task rest => exact le_refl _

end Stage

namespace RunContext

variable {c : RunContext}

/-- One transition of a run that has not ended lowers the potential. -/
theorem Moves.potential_lt {task : Task} {rest : Agenda} {s : RunState} {stage : Stage RunState}
    (h : c.Moves (task :: rest) s stage) (hi : c.Paid (task :: rest) s) :
    potential c stage < potential c (.ok (task :: rest) s) := by
  have hs := hi.steps
  have dropped : s.due c.limits (task :: rest) = 0 →
      potential c (.ok rest s) < potential c (.ok (task :: rest) s) := fun hd => by
    have := potential_le (c := c) rest s
    rw [potential_cons, hd]
    omega
  have positive : 0 < potential c (.ok (task :: rest) s) := by
    rw [potential_cons]
    omega
  cases h with
  | done => exact dropped rfl
  | full hf => exact dropped (RunState.due_full hf _)
  | passed => exact dropped rfl
  | bodyTooDeep => exact positive
  | body hf =>
    have hb := hi.proper _ List.mem_cons_self
    rw [potential_cons, potential_cons,
      RunState.due_step (s := s.countIteration.countLevels _) hf _ hb]
    simp only [RunState.due, RunState.steps_countLevels, RunState.steps_countIteration,
      List.length_cons]
    omega
  | tooManySteps => exact positive
  | step hf hl hb =>
    obtain ⟨hbs, -⟩ := hb.work
    rw [RunState.steps_countStep] at hbs
    cases stage with
    | error r s' => exact positive
    | ok agenda' s' =>
      have hp := potential_le (c := c) agenda' s'
      have ha : agenda'.length ≤ rest.length + 2 := by
        obtain rfl | ⟨task, rfl, -⟩ := hb.agenda <;> simp
      simp only [state] at hbs
      rw [potential_cons]
      omega

end RunContext

namespace Stage

variable {c : RunContext}

theorem Paid.potential_next {a : Stage RunState} (h : Paid c a) :
    potential c (Stage.next c.transition a) ≤ potential c a - 1 := by
  rcases a with ⟨_ | ⟨task, rest⟩, s⟩ | ⟨r, s⟩
  · exact le_refl _
  · have := (c.moves_transition (task :: rest) s).potential_lt h
    exact Nat.le_sub_one_of_lt this
  · exact Nat.zero_le _

/-- After as many transitions as the potential says, a run has ended. -/
theorem Paid.ended_iterate {n : ℕ} {a : Stage RunState} (h : Paid c a)
    (hn : potential c a ≤ n) : Ended ((Stage.next c.transition)^[n] a) := by
  induction n generalizing a with
  | zero => exact ended_of_potential (Nat.le_zero.mp hn)
  | succ n ih =>
    have := h.potential_next
    exact ih h.next (by omega)

end Stage

/-! ### Runs from the start -/

namespace Program

variable (limits : Limits) (p : Program) (ledger : Ledger)

/-- The state in which a run ends, whether it was rejected or not. -/
def finalState : RunState :=
  match p.run limits ledger with
  | .ok _ s => s
  | .error _ s => s

theorem work_finalState :
    (p.finalState limits ledger).work = (ofResult [] (p.outcome limits ledger)).state.work := by
  unfold finalState
  rw [run_eq]
  cases p.outcome limits ledger <;> rfl

/-- Every stage of a run has the invariant. -/
theorem paid_stage (n : ℕ) :
    Paid (p.context limits ledger.store.current) (p.stage limits ledger n) := by
  have h : Paid (p.context limits ledger.store.current) (p.stage limits ledger 0) := by
    rw [stage_zero]
    split
    · refine ⟨List.forall_mem_singleton.mpr trivial, ?_, Nat.zero_le _, Nat.zero_le _⟩
      show 1 ≤ (limits.maxCallDepth + 1).toNat
      omega
    · exact ⟨Nat.zero_le _, Nat.zero_le _⟩
  exact h.iterate n

/-- A run that has ended is at its outcome. -/
theorem eq_outcome_of_ended {n : ℕ} (h : Ended (p.stage limits ledger n)) :
    p.stage limits ledger n = ofResult [] (p.outcome limits ledger) := by
  obtain ⟨m, hm⟩ := p.eventually_outcome limits ledger
  have hn : p.stage limits ledger (m + n) = p.stage limits ledger n :=
    (Function.iterate_add_apply _ m n _).trans (Function.iterate_fixed h.next m)
  rw [← hn, hm (m + n) (Nat.le_add_right m n)]

/-- A run comes to its outcome within a number of transitions that depends on the ceiling on
the steps alone. -/
theorem stage_eq_outcome {n : ℕ} (hn : 4 * limits.maxSteps.toNat + 7 ≤ n) :
    p.stage limits ledger n = ofResult [] (p.outcome limits ledger) := by
  refine eq_outcome_of_ended limits p ledger ?_
  have h := p.paid_stage limits ledger 0
  refine h.ended_iterate (le_trans ?_ hn)
  rw [stage_zero]
  split
  · rw [potential_cons]
    simp only [RunState.steps_countLevels, List.length_nil]
    show 4 * (limits.maxSteps.toNat + 1 - 0) + (0 + 1) + _ ≤ _
    omega
  · exact Nat.zero_le _

/-- The work of a run at every stage. -/
theorem work_stage (n : ℕ) :
    (p.stage limits ledger n).state.work.steps ≤ limits.maxSteps.toNat + 1 ∧
      (p.stage limits ledger n).state.work.iterations ≤
        (p.stage limits ledger n).state.work.steps + 1 := by
  have h := p.paid_stage limits ledger n
  cases hs : p.stage limits ledger n with
  | error r s => rw [hs] at h; exact h
  | ok agenda s =>
    rw [hs] at h
    have hd := RunState.due_le_one limits s agenda
    exact ⟨Nat.le_succ_of_le h.steps, h.iterations.trans (Nat.add_le_add_left hd _)⟩

/-- An iteration that is begun takes a step next, or is rejected for the depth. -/
theorem step_of_iteration (n : ℕ) :
    (p.stage limits ledger (n + 1)).state.work.iterations =
        (p.stage limits ledger n).state.work.iterations ∨
      (∃ s, p.stage limits ledger (n + 1) =
        .error (.runaway .callDepth limits.maxCallDepth) s) ∨
      (p.stage limits ledger (n + 2)).state.work.steps =
        (p.stage limits ledger (n + 1)).state.work.steps + 1 := by
  have hp := p.paid_stage limits ledger n
  rw [p.stage_succ limits ledger (n + 1), p.stage_succ limits ledger n]
  cases hs : p.stage limits ledger n with
  | error r s => exact .inl rfl
  | ok agenda s =>
    rw [hs] at hp
    have hm := RunContext.moves_transition (p.context limits ledger.store.current) agenda s
    obtain h | ⟨s', h⟩ | ⟨agenda', s', h, hd⟩ := hm.iterations hp.proper
    · exact .inl h
    · exact .inr (.inl ⟨s', h⟩)
    · refine .inr (.inr ?_)
      have hm' := RunContext.moves_transition (p.context limits ledger.store.current) agenda' s'
      have hn : next (p.context limits ledger.store.current).transition (.ok agenda s) =
          .ok agenda' s' := h
      rw [hn]
      exact hm'.steps.trans (congrArg _ hd)

/-- A step is executed only at a depth that is allowed. -/
theorem depth_of_step {n : ℕ} {scope : Scope} {step : Step} {steps : List Step} {rest : Agenda}
    {s : RunState} (h : p.stage limits ledger n = .ok (.steps scope (step :: steps) :: rest) s) :
    (rest.levels : Int) ≤ limits.maxCallDepth := by
  have hp := p.paid_stage limits ledger n
  rw [h] at hp
  have hl : rest.levels + 1 ≤ (limits.maxCallDepth + 1).toNat := hp.levels
  omega

/-- **A run ends within its limits.** It comes to its outcome within a number of transitions
that depends on the ceiling on the steps alone; it takes one step more than the ceiling at
the most, and one iteration more than steps; an iteration that is begun takes a step next or
is rejected for the depth; and no step is executed deeper than the ceiling on the depth. -/
theorem run_within_limits :
    (∀ n ≥ 4 * limits.maxSteps.toNat + 7,
      p.stage limits ledger n = ofResult [] (p.outcome limits ledger)) ∧
    (p.finalState limits ledger).work.steps ≤ limits.maxSteps.toNat + 1 ∧
    (p.finalState limits ledger).work.iterations ≤
      (p.finalState limits ledger).work.steps + 1 ∧
    (p.finalState limits ledger).work.iterations ≤ limits.maxSteps.toNat + 2 ∧
    (∀ n, (p.stage limits ledger (n + 1)).state.work.iterations =
        (p.stage limits ledger n).state.work.iterations ∨
      (∃ s, p.stage limits ledger (n + 1) =
        .error (.runaway .callDepth limits.maxCallDepth) s) ∨
      (p.stage limits ledger (n + 2)).state.work.steps =
        (p.stage limits ledger (n + 1)).state.work.steps + 1) ∧
    (∀ n scope step steps (rest : Agenda) s,
      p.stage limits ledger n = .ok (.steps scope (step :: steps) :: rest) s →
      (rest.levels : Int) ≤ limits.maxCallDepth) := by
  have hn := fun n => p.stage_eq_outcome (n := n) limits ledger
  have hw := p.work_stage limits ledger (4 * limits.maxSteps.toNat + 7)
  rw [hn _ le_rfl, ← work_finalState] at hw
  exact ⟨hn, hw.1, hw.2, by omega, p.step_of_iteration limits ledger,
    fun n scope step steps rest s h => p.depth_of_step limits ledger h⟩

/-- A definition that calls itself, and a call of it. -/
def spiral : Program :=
  { steps := [.call "spiral" []]
    definitions := [{ name := "spiral", steps := [.call "spiral" []] }] }

theorem run_within_limits_spiral :
    spiral.stage {} {} 1 = .ok [.steps [] [.call "spiral" []], .steps [] []]
        { work := { steps := 1, calls := 1, levels := 2 } } ∧
      (Agenda.levels [.steps [] []] : Int) ≤ ({} : Limits).maxCallDepth :=
  ⟨rfl, (run_within_limits {} spiral {}).2.2.2.2.2 1 [] _ [] [.steps [] []]
    { work := { steps := 1, calls := 1, levels := 2 } } rfl⟩

end Program
end VoxelBlueprint
