/-
# Every block and every call is charged to a step

An execution that starts in any state, also in one that has used up its ceilings, counts at
least as many steps as it counts calls and places blocks. A count passes its ceiling, or
what it was at the start if that was more, only by the one that ends the execution with a
rejection.

Key definitions: `RunState.Charged`, `Stage.Charged`.
Key theorems: `RunContext.Moves.charged`, `execute_charged`.
-/
import VoxelBlueprint.Proofs.Execution.Growth

namespace VoxelBlueprint

open Stage

/-- What holds of a state that an execution from the state `start` has come to, when the
counts may be beyond their ceilings by `excess`. -/
structure RunState.Charged (limits : Limits) (start : RunState) (excess : Int) (s : RunState) :
    Prop where
  spent : s.work.calls + s.output.size + start.work.steps ≤
    start.work.calls + start.output.size + s.work.steps
  steps : (s.work.steps : Int) ≤ max (start.work.steps : Int) limits.maxSteps + excess
  calls : (s.work.calls : Int) ≤ max (start.work.calls : Int) limits.maxCalls + excess

/-- Only a rejected execution may be beyond its ceilings, by one. -/
def Stage.Charged (limits : Limits) (start : RunState) : Stage RunState → Prop
  | .ok _ s => start.Charged limits 0 s
  | .error _ s => start.Charged limits 1 s

namespace RunState.Charged

variable {limits : Limits} {start s : RunState}

theorem refl (limits : Limits) (s : RunState) : s.Charged limits 0 s :=
  ⟨le_refl _, by omega, by omega⟩

/-- A state that is within the ceilings is beyond them by one at the most. -/
theorem succ (h : start.Charged limits 0 s) : start.Charged limits 1 s :=
  ⟨h.spent, h.steps.trans (by omega), h.calls.trans (by omega)⟩

end RunState.Charged

namespace RunContext

variable {c : RunContext} {start : RunState}

/-- Beginning a step counts no step, and it places a block or counts a call, or neither. -/
theorem Begins.spent {scope : Scope} {rest : Agenda} {s : RunState} {step : Step}
    {stage : Stage RunState} (h : c.Begins scope rest s step stage) :
    stage.state.work.steps = s.work.steps ∧
      stage.state.work.calls + stage.state.output.size ≤ s.work.calls + s.output.size + 1 := by
  cases h with
  | @place x y z blockType p =>
    have hl : (s.place c scope p.1 p.2.1 p.2.2 blockType).output.size = s.output.size + 1 :=
      Array.size_push _
    exact ⟨rfl, (congrArg (s.work.calls + ·) hl).le⟩
  | placeFailed | skip | loop | loopFailed | invalid => exact ⟨rfl, Nat.le_succ _⟩
  | tooManyCalls | callFailed | callTooDeep | call =>
    exact ⟨rfl, (Nat.succ_add s.work.calls s.output.size).le⟩

/-- A call that is begun is within the ceiling, or the execution is rejected. -/
theorem Begins.calls_le {scope : Scope} {rest : Agenda} {s : RunState} {step : Step}
    {stage : Stage RunState} (h : c.Begins scope rest s step stage) :
    stage.state.work.calls = s.work.calls ∨ (stage.state.work.calls : Int) ≤ c.limits.maxCalls ∨
      stage.state.work.calls = s.work.calls + 1 ∧ ∃ r s', stage = .error r s' := by
  cases h with
  | place | placeFailed | skip | loop | loopFailed | invalid => exact .inl rfl
  | tooManyCalls => exact .inr (.inr ⟨rfl, _, _, rfl⟩)
  | callFailed hc | callTooDeep hc | call hc => exact .inr (.inl hc)

/-- A transition charges what it does to the step that it counts. -/
theorem Moves.charged {agenda : Agenda} {s : RunState} {stage : Stage RunState}
    (h : c.Moves agenda s stage) (hs : start.Charged c.limits 0 s) :
    Stage.Charged c.limits start stage := by
  cases h with
  | idle | done | full | passed => exact hs
  | body => exact ⟨hs.spent, hs.steps, hs.calls⟩
  | bodyTooDeep => exact ⟨hs.succ.spent, hs.succ.steps, hs.succ.calls⟩
  | tooManySteps =>
    refine ⟨hs.spent.trans (Nat.le_succ _), ?_, hs.succ.calls⟩
    have := hs.steps
    rw [RunState.steps_countStep]
    omega
  | step _ hl hb =>
    obtain ⟨hsteps, hspent⟩ := hb.spent
    have hcalls := hb.calls_le
    obtain ⟨h1, h2, h3⟩ := hs
    rw [RunState.steps_countStep] at hsteps
    rw [RunState.output_countStep] at hspent
    have hc : s.countStep.work.calls = s.work.calls := rfl
    rw [hc] at hspent hcalls
    cases stage with
    | ok agenda' s' =>
      simp only [state, reduceCtorEq, exists_false, and_false, or_false] at hsteps hspent hcalls
      exact ⟨by omega, by omega, by omega⟩
    | error r s' =>
      simp only [state] at hsteps hspent hcalls
      exact ⟨by omega, by omega, by omega⟩

end RunContext

namespace Stage

variable {c : RunContext} {start : RunState}

theorem Charged.next {a : Stage RunState} (h : Charged c.limits start a) :
    Charged c.limits start (next c.transition a) := by
  cases a with
  | ok agenda s => exact (c.moves_transition agenda s).charged h
  | error r s => exact h

end Stage

/-- **An execution charges what it does to its steps**, however it ends. -/
theorem execute_charged (c : RunContext) (room : Nat) (steps : List Step) (scope : Scope)
    (s : RunState) : Stage.Charged c.limits s (ofResult [] (execute c room steps scope s)) := by
  have h : Stage.Charged (c.withRoom room).limits s
      (ofResult [] (execute c room steps scope s)) := by
    have hr := RunState.Charged.refl (c.withRoom room).limits s
    refine execute_preserves c room steps scope s (fun a ha => ha.next) ?_ ?_
    · rw [RunContext.openSteps_apply]
      split
      · exact ⟨hr.succ.spent, hr.succ.steps, hr.succ.calls⟩
      · exact ⟨hr.spent, hr.steps, hr.calls⟩
    · rintro _ _ (⟨t, n⟩ | ⟨r, r', t, n⟩) h <;> exact ⟨h.spent, h.steps, h.calls⟩
  generalize ofResult [] (execute c room steps scope s) = a at h ⊢
  cases a <;> exact ⟨h.spent, h.steps, h.calls⟩

end VoxelBlueprint
