/-
# Sessions

A session executes a program, and further lists of steps in its context, several
times over. Output and work add up over the session, whose catalog and limits may
be changed in between. The snapshot from which blocks are taken is the one that was
current when the program was last run.

Key definitions: `Session`, `Session.run`, `Session.execute`,
`Session.replaceCatalog`.
-/
import VoxelBlueprint.Expansion.Execution

namespace VoxelBlueprint

/-- A context and the state that operations in it have led to. -/
structure Session where
  context : RunContext
  state : RunState := {}

namespace Session

/-- The session after a part of a run, and the rejection that ended it, if one did. -/
def perform (session : Session) (part : Run Unit) : Session × Option Rejection :=
  match part session.state with
  | .ok _ state => ({ session with state }, none)
  | .error rejection state => ({ session with state }, some rejection)

/-- Runs the program with the current snapshot. -/
def run (session : Session) : Session × Option Rejection :=
  let captured := some session.state.ledger.store.current
  let session := { session with context := { session.context with captured } }
  session.perform (runProgram session.context)

/-- Executes a list of steps in a scope, as if `depth` lists of steps were open already. -/
def execute (session : Session) (depth : Int) (steps : List Step) (scope : Scope) :
    Session × Option Rejection :=
  let room := (session.context.limits.maxCallDepth + 1 - depth).toNat
  session.perform (VoxelBlueprint.execute session.context room steps scope)

/-- The session with other limits. -/
def setLimits (session : Session) (limits : Limits) : Session :=
  { session with context := { session.context with limits } }

/-- The session with a new catalog. -/
def replaceCatalog (session : Session) (values : List Json) (version source : Option String) :
    Except Failure Session := do
  let ledger ← session.state.ledger.replaceCatalog values version source
  return { session with state := { session.state with ledger } }

end Session
end VoxelBlueprint
