/-
# What an execution keeps

However an execution goes on, its output is only ever added to, its counts only grow,
and the catalog stays as it is. It places a block only while there is room, so the
output never passes the ceiling, and it is rejected only while there is room.

Key definitions: `RunState.Grows`.
Key theorems: `RunContext.Moves.grows`, `RunContext.Moves.not_full`,
`RunContext.Moves.size_le`, `Stage.size_iterate`, `execute_preserves`, `execute_grows`.
-/
import Mathlib.Order.MinMax
import Mathlib.Order.Nat
import VoxelBlueprint.Proofs.Execution.Moves
import VoxelBlueprint.Proofs.Execution.Rooms

namespace VoxelBlueprint

/-- What the state of a run keeps when the run goes on. -/
structure RunState.Grows (s s' : RunState) : Prop where
  output : s.output.toList <+: s'.output.toList
  steps : s.work.steps ≤ s'.work.steps
  calls : s.work.calls ≤ s'.work.calls
  iterations : s.work.iterations ≤ s'.work.iterations
  current : s'.ledger.store.current = s.ledger.store.current

namespace RunState.Grows

theorem refl (s : RunState) : s.Grows s :=
  ⟨List.prefix_refl _, le_refl _, le_refl _, le_refl _, rfl⟩

theorem trans {s t u : RunState} (h : s.Grows t) (h' : t.Grows u) : s.Grows u :=
  ⟨h.output.trans h'.output, h.steps.trans h'.steps, h.calls.trans h'.calls,
    h.iterations.trans h'.iterations, h'.current.trans h.current⟩

variable (s : RunState)

theorem countStep : s.Grows s.countStep :=
  ⟨List.prefix_refl _, Nat.le_succ _, le_refl _, le_refl _, rfl⟩

theorem countCall : s.Grows s.countCall :=
  ⟨List.prefix_refl _, le_refl _, Nat.le_succ _, le_refl _, rfl⟩

theorem countIteration : s.Grows s.countIteration :=
  ⟨List.prefix_refl _, le_refl _, le_refl _, Nat.le_succ _, rfl⟩

theorem countLevels (n : Nat) : s.Grows (s.countLevels n) :=
  ⟨List.prefix_refl _, le_refl _, le_refl _, le_refl _, rfl⟩

theorem place (c : RunContext) (scope : Scope) (x y z : Int) (blockType : Json) :
    s.Grows (s.place c scope x y z blockType) where
  output := by
    rw [output_place, Array.toList_push]
    exact List.prefix_append _ _
  steps := le_refl _
  calls := le_refl _
  iterations := le_refl _
  current := s.current_place c scope x y z blockType

end RunState.Grows

namespace RunContext

variable {c : RunContext}

open RunState

theorem Begins.grows {scope : Scope} {rest : Agenda} {s : RunState} {step : Step}
    {stage : Stage RunState} (h : c.Begins scope rest s step stage) : s.Grows stage.state := by
  cases h with
  | place | placeFailed => first | exact Grows.place .. | exact Grows.refl s
  | skip | loop | loopFailed | invalid => exact Grows.refl s
  | tooManyCalls | callFailed => exact Grows.countCall s
  | callTooDeep | call => exact (Grows.countCall s).trans (Grows.countLevels _ _)

/-- A transition only adds to the output, the counts grow, and the catalog stays. -/
theorem Moves.grows {agenda : Agenda} {s : RunState} {stage : Stage RunState}
    (h : c.Moves agenda s stage) : s.Grows stage.state := by
  cases h with
  | idle | done | full | passed => exact Grows.refl s
  | bodyTooDeep | body => exact (Grows.countIteration s).trans (Grows.countLevels _ _)
  | tooManySteps => exact Grows.countStep s
  | step _ _ hb => exact (Grows.countStep s).trans hb.grows

/-- A step that is rejected has placed nothing. -/
theorem Begins.output_of_error {scope : Scope} {rest : Agenda} {s s' : RunState} {step : Step}
    {r : Rejection} (h : c.Begins scope rest s step (.error r s')) : s'.output = s.output := by
  cases h <;> rfl

/-- An execution is rejected only while there is room, and the rejection places nothing. -/
theorem Moves.not_full {agenda : Agenda} {s s' : RunState} {r : Rejection}
    (h : c.Moves agenda s (.error r s')) : s.isFull c.limits = false ∧ s'.output = s.output := by
  cases h with
  | bodyTooDeep hf => exact ⟨hf, rfl⟩
  | tooManySteps hf => exact ⟨hf, rfl⟩
  | step hf _ hb => exact ⟨hf, hb.output_of_error⟩

/-- A step places one block at the most. -/
theorem Begins.size_le {scope : Scope} {rest : Agenda} {s : RunState} {step : Step}
    {stage : Stage RunState} (h : c.Begins scope rest s step stage) :
    stage.state.output.size ≤ s.output.size + 1 := by
  cases h with
  | place => exact (Array.size_push _).le
  | _ => exact Nat.le_succ _

/-- A transition adds to the output only below the ceiling. -/
theorem Moves.size_le {agenda : Agenda} {s : RunState} {stage : Stage RunState}
    (h : c.Moves agenda s stage) :
    stage.state.output.size ≤ max s.output.size c.limits.maxBlocks.toNat := by
  cases h with
  | step hf _ hb =>
    have h1 := hb.size_le
    have h2 : ¬ c.limits.maxBlocks ≤ s.output.size := fun h => by
      rw [(isFull_iff ..).mpr h] at hf; cases hf
    rw [output_countStep] at h1
    omega
  | _ => exact le_max_left _ _

end RunContext

namespace Stage

variable {c : RunContext}

theorem grows_next (a : Stage RunState) : a.state.Grows (next c.transition a).state := by
  cases a with
  | ok agenda s => exact (c.moves_transition agenda s).grows
  | error r s => exact .refl s

theorem size_next (a : Stage RunState) : (next c.transition a).state.output.size ≤
    max a.state.output.size c.limits.maxBlocks.toNat := by
  cases a with
  | ok agenda s => exact (c.moves_transition agenda s).size_le
  | error r s => exact le_max_left _ _

/-- The output of a run never passes the ceiling. -/
theorem size_iterate (n : ℕ) (a : Stage RunState) :
    ((next c.transition)^[n] a).state.output.size ≤
      max a.state.output.size c.limits.maxBlocks.toNat := by
  induction n generalizing a with
  | zero => exact le_max_left _ _
  | succ n ih =>
    rw [Function.iterate_succ_apply]
    exact (ih _).trans (max_le (size_next a) (le_max_right _ _))

end Stage

/-! ### Whole executions -/

section Execute

open Stage

variable (c : RunContext) (room : Nat) (steps : List Step) (scope : Scope) (s : RunState)

/-- Where a list of steps has been opened with some room, what every transition keeps holds where
its execution ends, if the record of open lists and the reason of a rejection do not matter. -/
theorem execute_preserves {P : Stage RunState → Prop}
    (hP : ∀ a, P a → P (next (c.withRoom room).transition a))
    (h : P ((c.withRoom room).openSteps scope steps [] s))
    (hb : ∀ a b, Beside a b → P (ofResult [] b) → P (ofResult [] a)) :
    P (ofResult [] (execute c room steps scope s)) := by
  have hl : Agenda.levels [] + room = (c.withRoom room).maxLevels := by
    rw [RunContext.maxLevels_withRoom, Agenda.levels, Nat.zero_add]
  exact hb _ _ (execute_withRoom c room room steps scope s s.work.levels)
    ((execute_leads (c.withRoom room) room [] hl steps scope s).preserves hP h)

/-- An execution only adds to the output, the counts grow, and the catalog stays. -/
theorem execute_grows : s.Grows (ofResult [] (execute c room steps scope s)).state := by
  refine execute_preserves c room steps scope s (P := fun a => s.Grows a.state)
    (fun a ha => ha.trans (grows_next a)) ?_ ?_
  · show s.Grows (state ((c.withRoom room).openSteps scope steps [] s))
    rw [RunContext.openSteps_apply]
    split <;> exact RunState.Grows.countLevels s _
  · rintro _ _ (⟨t, n⟩ | ⟨r, r', t, n⟩) h <;>
      exact ⟨h.output, h.steps, h.calls, h.iterations, h.current⟩

/-- The output of an execution passes the ceiling only if it did so before. -/
theorem size_execute : (ofResult [] (execute c room steps scope s)).state.output.size ≤
    max s.output.size c.limits.maxBlocks.toNat := by
  refine execute_preserves c room steps scope s
    (P := fun a => a.state.output.size ≤ max s.output.size c.limits.maxBlocks.toNat) ?_ ?_ ?_
  · intro a ha
    exact (size_next a).trans (max_le ha (le_max_right _ _))
  · show (state ((c.withRoom room).openSteps scope steps [] s)).output.size ≤ _
    rw [RunContext.openSteps_apply]
    split <;> exact le_max_left _ _
  · rintro _ _ (⟨t, n⟩ | ⟨r, r', t, n⟩) h <;> exact h

end Execute
end VoxelBlueprint
