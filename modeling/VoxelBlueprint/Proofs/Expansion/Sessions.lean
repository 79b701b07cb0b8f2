/-
# What the operations of a session add up to

A session runs its program and further lists of steps, its limits are changed, its catalog is
replaced, and others may work on the ledger that it shares with them. Output and counts add up
over all this and are never reset. Each operation, however it ends and whatever came before,
only adds to the output, places blocks only below the ceiling, and charges every block and
every call to a step; and a count passes its ceiling only by the one that rejects the operation.

Key definitions: `Session.Operation`, `Session.operate`, `Session.after`,
`RunState.Accounts`.
Key theorems: `accounts_execute`, `Session.accounts_operate`, `Session.operations_account`.
-/
import VoxelBlueprint.Expansion.Session
import VoxelBlueprint.Proofs.Execution.Charges
import VoxelBlueprint.Proofs.Expansion.Histories

namespace VoxelBlueprint

open Stage

/-- The rejection of an execution, if it was rejected. -/
def Stage.rejection? {σ : Type} : Stage σ → Option Rejection
  | .ok _ _ => none
  | .error r _ => some r

/-! ### Accounts -/

/-- How an operation under limits may change the state of a session, where `rejection?` is what
rejected it, if anything did. -/
structure RunState.Accounts (limits : Limits) (s s' : RunState) (rejection? : Option Rejection) :
    Prop where
  output : s.output.toList <+: s'.output.toList
  size : (s'.output.size : Int) ≤ max (s.output.size : Int) limits.maxBlocks
  steps : s.work.steps ≤ s'.work.steps
  calls : s.work.calls ≤ s'.work.calls
  charged : s.Charged limits (if rejection?.isSome then 1 else 0) s'

/-- What neither places a block nor counts anything. -/
theorem accounts_refl (limits : Limits) (s : RunState) : s.Accounts limits s none :=
  ⟨List.prefix_refl _, le_max_left _ _, le_refl _, le_refl _, .refl limits s⟩

/-- Events and the catalog do not matter. -/
theorem RunState.Accounts.congr {limits : Limits} {s t t' : RunState}
    {rejection? : Option Rejection} (h : s.Accounts limits t rejection?)
    (ho : t'.output = t.output) (hw : t'.work = t.work) : s.Accounts limits t' rejection? := by
  obtain ⟨h1, h2, h3, h4, ⟨h5, h6, h7⟩⟩ := h
  rw [← ho] at h1 h2 h5
  rw [← hw] at h3 h4 h5 h6 h7
  exact ⟨h1, h2, h3, h4, ⟨h5, h6, h7⟩⟩

/-- An execution with any room and in any scope, however it ends. -/
theorem accounts_execute (c : RunContext) (room : Nat) (steps : List Step) (scope : Scope)
    (s : RunState) :
    s.Accounts c.limits (ofResult [] (execute c room steps scope s)).state
      (ofResult [] (execute c room steps scope s)).rejection? := by
  have hg := execute_grows c room steps scope s
  have hl := size_execute c room steps scope s
  have hc := execute_charged c room steps scope s
  generalize ofResult [] (execute c room steps scope s) = a at hg hl hc ⊢
  refine ⟨hg.output, by omega, hg.steps, hg.calls, ?_⟩
  cases a <;> exact hc

namespace Session

/-! ### Operations -/

/-- What may be done to a session, and to the ledger that others share with it. -/
inductive Operation where
  | run
  /-- Executes a list of steps in a scope, as if `depth` lists of steps were open already. -/
  | execute (depth : Int) (steps : List Step) (scope : Scope)
  | setLimits (limits : Limits)
  | replaceCatalog (values : List Json) (version source : Option String)
  /-- What others do to the ledger. -/
  | elsewhere (operation : Ledger.Operation)

/-- The session after an operation, and the rejection that ended it, if one did. A catalog that
is refused changes nothing. -/
def operate (session : Session) : Operation → Session × Option Rejection
  | .run => session.run
  | .execute depth steps scope => session.execute depth steps scope
  | .setLimits limits => (session.setLimits limits, none)
  | .replaceCatalog values version source =>
    match session.replaceCatalog values version source with
    | .ok session => (session, none)
    | .error _ => (session, none)
  | .elsewhere operation =>
    let ledger := session.state.ledger.perform operation
    ({ session with state := { session.state with ledger } }, none)

/-- The session after operations. -/
def after (session : Session) (operations : List Operation) : Session :=
  operations.foldl (fun session operation => (session.operate operation).1) session

/-- The context of the next run, which takes its blocks from the snapshot that is current. -/
def capturing (session : Session) : RunContext :=
  { session.context with captured := some session.state.ledger.store.current }

section Equations

variable (session : Session)

/-- A run leaves what its execution leaves, and a record of its end if it was not rejected. -/
theorem operate_run :
    let a := ofResult [] (VoxelBlueprint.execute session.capturing session.capturing.maxLevels
      session.capturing.program.steps [] session.state)
    ∃ s, session.operate .run = (⟨session.capturing, s⟩, a.rejection?) ∧
      s.output = a.state.output ∧ s.work = a.state.work ∧
      s.ledger.store = a.state.ledger.store := by
  have h : session.operate .run =
      perform ⟨session.capturing, session.state⟩ (runProgram session.capturing) := rfl
  rw [h, perform, runProgram_apply]
  cases VoxelBlueprint.execute session.capturing session.capturing.maxLevels
    session.capturing.program.steps [] session.state <;> exact ⟨_, rfl, rfl, rfl, rfl⟩

theorem operate_execute (depth : Int) (steps : List Step) (scope : Scope) :
    let room := (session.context.limits.maxCallDepth + 1 - depth).toNat
    let a := ofResult [] (VoxelBlueprint.execute session.context room steps scope session.state)
    session.operate (.execute depth steps scope) = (⟨session.context, a.state⟩, a.rejection?) := by
  intro room
  have h : session.operate (.execute depth steps scope) =
      perform session (VoxelBlueprint.execute session.context room steps scope) := rfl
  rw [h, perform]
  exact match VoxelBlueprint.execute session.context room steps scope session.state with
  | .ok _ _ => rfl
  | .error _ _ => rfl

/-- The catalog is replaced in a session as it is anywhere else. -/
theorem operate_replaceCatalog (values : List Json) (version source : Option String) :
    session.operate (.replaceCatalog values version source) =
      session.operate (.elsewhere (.replace values version source)) := by
  simp only [operate, replaceCatalog, Ledger.perform]
  cases session.state.ledger.replaceCatalog values version source <;> rfl

end Equations

/-- One operation, however it ends. -/
theorem accounts_operate (session : Session) (operation : Operation) :
    session.state.Accounts session.context.limits (session.operate operation).1.state
      (session.operate operation).2 := by
  cases operation with
  | run =>
    obtain ⟨s, hr, ho, hw, -⟩ := session.operate_run
    rw [hr]
    exact (accounts_execute session.capturing _ _ [] session.state).congr ho hw
  | execute depth steps scope =>
    rw [operate_execute]
    exact accounts_execute session.context _ steps scope session.state
  | setLimits limits => exact accounts_refl _ _
  | replaceCatalog values version source =>
    rw [operate_replaceCatalog]
    exact (accounts_refl _ _).congr rfl rfl
  | elsewhere operation => exact (accounts_refl _ _).congr rfl rfl

/-- **Every operation of every session keeps its accounts.** Whatever was done before, and
however the operation ends: the output is only added to, and only below the ceiling; the counts
never go down, and each block and each call comes with a step; a count that has not passed its
ceiling before passes it by one at the most, and not at all if the operation is not rejected. -/
theorem operations_account (session : Session) (operations : List Operation)
    (operation : Operation) :
    let before := session.after operations
    let limits := before.context.limits
    let s := before.state
    let s' := (before.operate operation).1.state
    let excess : Int := if (before.operate operation).2 = none then 0 else 1
    s.output.toList <+: s'.output.toList ∧
    (s'.output.size : Int) ≤ max (s.output.size : Int) limits.maxBlocks ∧
    s.work.steps ≤ s'.work.steps ∧ s.work.calls ≤ s'.work.calls ∧
    ((s'.work.calls - s.work.calls : Int) + (s'.output.size - s.output.size) ≤
      s'.work.steps - s.work.steps) ∧
    (s'.work.steps : Int) ≤ max (s.work.steps : Int) limits.maxSteps + excess ∧
    (s'.work.calls : Int) ≤ max (s.work.calls : Int) limits.maxCalls + excess := by
  intro before limits s s' excess
  obtain ⟨hp, hsize, hsteps, hcalls, hspent, hs, hc⟩ := accounts_operate before operation
  have he : excess = if (before.operate operation).2.isSome then 1 else 0 := by
    cases h : (before.operate operation).2 <;> simp [excess, h]
  rw [← he] at hs hc
  have hspent : s'.work.calls + s'.output.size + s.work.steps ≤
    s.work.calls + s.output.size + s'.work.steps := hspent
  exact ⟨hp, hsize, hsteps, hcalls, by omega, hs, hc⟩

end Session
end VoxelBlueprint
