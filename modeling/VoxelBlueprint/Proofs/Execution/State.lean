/-
# The state of a run, part by part

Which parts of the state of a run its updates change. A count changes nothing but the
work; a placement adds a block to the output, may report its type in the ledger, and
leaves the catalog as it is.

Key theorems: `RunState.output_place`, `RunState.current_place`, `RunState.isFull_iff`.
-/
import VoxelBlueprint.Expansion.Run

namespace VoxelBlueprint

deriving instance DecidableEq for Catalog.Store, Ledger, RunState

namespace RunState

variable (s : RunState)

@[simp] theorem output_countStep : s.countStep.output = s.output := rfl

@[simp] theorem steps_countStep : s.countStep.work.steps = s.work.steps + 1 := rfl

@[simp] theorem steps_countIteration : s.countIteration.work.steps = s.work.steps := rfl

@[simp] theorem steps_countLevels (n : Nat) : (s.countLevels n).work.steps = s.work.steps := rfl

@[simp] theorem iterations_countStep : s.countStep.work.iterations = s.work.iterations := rfl

/-! ### Placements -/

section Place

variable (c : RunContext) (scope : Scope) (x y z : Int) (blockType : Json)

/-- A placement adds a block of the snapshot to the output. -/
theorem output_place : (s.place c scope x y z blockType).output =
    s.output.push
      { x, y, z, blockType := (s.snapshot c).resolve (Catalog.requestedId scope blockType) } := rfl

/-- A report leaves the catalog as it is. -/
theorem current_report (store : Catalog.Store) (snapshot : Catalog.Snapshot) (id : String) :
    (store.report snapshot id).1.current = store.current := by
  unfold Catalog.Store.report
  split <;> rfl

@[simp] theorem current_place :
    (s.place c scope x y z blockType).ledger.store.current = s.ledger.store.current :=
  current_report _ _ _

end Place

/-! ### Room in the output -/

theorem isFull_iff (limits : Limits) : s.isFull limits ↔ limits.maxBlocks ≤ s.output.size :=
  decide_eq_true_iff

theorem isFull_congr (limits : Limits) {s s' : RunState} (h : s'.output = s.output) :
    s'.isFull limits = s.isFull limits := by
  unfold isFull
  rw [h]

end RunState
end VoxelBlueprint
