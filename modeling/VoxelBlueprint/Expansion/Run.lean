/-
# Runs

The state of a run of a program: the ledger, the blocks placed so far, and the work
done so far. The work is counted over the whole run, whatever lists of steps and
definitions it goes through. A run that is rejected keeps its state.

Key definitions: `Work`, `RunState`, `Run`, `RunContext`, `RunState.isFull`.
-/
import VoxelBlueprint.Blueprint
import VoxelBlueprint.Catalog.Ledger
import VoxelBlueprint.Expansion.Limits
import VoxelBlueprint.Program.Basic

namespace VoxelBlueprint

/-- How much a run has done. -/
structure Work where
  /-- Steps that were begun. -/
  steps : Nat := 0
  /-- Calls that were begun. -/
  calls : Nat := 0
  /-- Iterations of loops that were begun. -/
  iterations : Nat := 0
  /-- Lists of steps, one inside the other, that were open at once at the most. -/
  levels : Nat := 0
  deriving DecidableEq, Repr

/-- The state of a run. -/
structure RunState where
  ledger : Ledger := {}
  /-- The blocks in the order in which they were placed. -/
  output : Array Block := #[]
  work : Work := {}

/-- A part of a run, which a rejection may end. -/
abbrev Run := EStateM Rejection RunState

/-- What stays the same while lists of steps are executed. -/
structure RunContext where
  program : Program
  limits : Limits := {}
  /-- The snapshot that blocks are taken from, the current one at all times if there is none. -/
  captured : Option Catalog.Snapshot := none

namespace RunContext

/-- How many lists of steps may be open at once. -/
def maxLevels (c : RunContext) : Nat :=
  (c.limits.maxCallDepth + 1).toNat

end RunContext

namespace RunState

/-- Whether there is room for no more blocks. -/
def isFull (limits : Limits) (s : RunState) : Bool :=
  limits.maxBlocks ≤ s.output.size

/-- One more step was begun. -/
def countStep (s : RunState) : RunState :=
  { s with work := { s.work with steps := s.work.steps + 1 } }

/-- One more call was begun. -/
def countCall (s : RunState) : RunState :=
  { s with work := { s.work with calls := s.work.calls + 1 } }

/-- One more iteration was begun. -/
def countIteration (s : RunState) : RunState :=
  { s with work := { s.work with iterations := s.work.iterations + 1 } }

/-- So many lists of steps are open. -/
def countLevels (levels : Nat) (s : RunState) : RunState :=
  { s with work := { s.work with levels := max s.work.levels levels } }

/-- The snapshot that blocks are taken from. -/
def snapshot (c : RunContext) (s : RunState) : Catalog.Snapshot :=
  c.captured.getD s.ledger.store.current

/-- Places a block of the type that a value asks for in a scope. -/
def place (c : RunContext) (scope : Scope) (x y z : Int) (blockType : Json) (s : RunState) :
    RunState :=
  let (blockType, ledger) := s.ledger.blockFor (s.snapshot c) scope blockType
  { s with ledger, output := s.output.push { x, y, z, blockType } }

/-- The event of the run having come to its end. -/
def endEvent (s : RunState) : Event :=
  .programRun s.output.size s.work.steps s.work.calls

/-- Records an event. -/
def record (event : Event) (s : RunState) : RunState :=
  { s with ledger := s.ledger.record event }

end RunState
end VoxelBlueprint
