/-
# The execution of a program in single transitions

`execute` goes down by the levels that may still be opened and through a loop by the
number of its values. The transitions here do without either: a list of steps is
opened as long as the depth allows it, a loop goes on as long as its counter remains
before its end, and both only put something on the agenda.

Key definitions: `RunContext.openSteps`, `RunContext.beginStep`,
`RunContext.transition`, `RunContext.start`.
Key theorems: `RunContext.transition_step`, `RunContext.transition_loop`,
`RunContext.transition_full`.
-/
import VoxelBlueprint.Proofs.Execution.Agenda
import VoxelBlueprint.Proofs.Execution.Values

namespace VoxelBlueprint

open Effects

namespace RunContext

/-- Opens a list of steps before everything else on an agenda. -/
def openSteps (c : RunContext) (scope : Scope) (steps : List Step) (rest : Agenda) :
    Run Agenda := do
  modify (·.countLevels (rest.levels + 1))
  if c.maxLevels ≤ rest.levels then throw (.runaway .callDepth c.limits.maxCallDepth)
  return .steps scope steps :: rest

/-- Begins a step before everything else on an agenda. -/
def beginStep (c : RunContext) (scope : Scope) (rest : Agenda) : Step → Run Agenda
  | .place x y z blockType => do
    runPlace c scope x y z blockType
    return rest
  | .loop counter start stop stride body => do
    let (first, last, stride) ← MonadExcept.ofExcept (loopRange c.limits scope start stop stride)
    if body.isEmpty then return rest
    else return .loop scope counter last stride body first :: rest
  | .call callee arguments => do
    modify (·.countCall)
    if c.limits.maxCalls < (← get).work.calls then
      throw (.runaway .callCount c.limits.maxCalls)
    let (steps, scope) ← MonadExcept.ofExcept (enterCall c scope callee arguments)
    c.openSteps scope steps rest
  | .invalid malformation => throw (.malformed malformation)

/-- The next transition of an execution. When the output is full, what is next on the agenda
is dropped. -/
def transition (c : RunContext) : Transition RunState
  | [] => return []
  | .steps _ [] :: rest => return rest
  | .steps scope (step :: steps) :: rest => do
    if (← get).isFull c.limits then return rest
    else
      modify (·.countStep)
      if c.limits.maxSteps < (← get).work.steps then
        throw (.runaway .executedSteps c.limits.maxSteps)
      c.beginStep scope (.steps scope steps :: rest) step
  | .loop scope counter last stride body value :: rest => do
    if (← get).isFull c.limits ∨ ¬ Remains last stride value then return rest
    else
      modify (·.countIteration)
      c.openSteps (scope.bind counter (.int value)) body
        (.loop scope counter last stride body (value + stride) :: rest)

/-- The stage in which the execution of the program starts: its list of steps is opened. -/
def start (c : RunContext) (s : RunState) : Stage RunState :=
  c.openSteps [] c.program.steps [] s

/-! ### What a transition does -/

section Equations

variable (c : RunContext) (scope : Scope) (steps : List Step) (rest : Agenda) (s : RunState)

theorem openSteps_apply : c.openSteps scope steps rest s =
    if c.maxLevels ≤ rest.levels then
      .error (.runaway .callDepth c.limits.maxCallDepth) (s.countLevels (rest.levels + 1))
    else .ok (.steps scope steps :: rest) (s.countLevels (rest.levels + 1)) := by
  rw [openSteps, modify_bind_apply]
  exact unless_apply _ _ _ _

theorem beginStep_place (x y z blockType : Json) :
    c.beginStep scope rest (.place x y z blockType) s =
      match coordinatesAt c.limits scope [.field "place"] x y z with
      | .ok (x, y, z) => .ok rest (s.place c scope x y z blockType)
      | .error r => .error r s := by
  rw [beginStep, runPlace, bind_apply, ofExcept_bind_apply]
  cases coordinatesAt c.limits scope [.field "place"] x y z <;> rfl

theorem beginStep_loop (counter : String) (start stop stride : Json) (body : List Step) :
    c.beginStep scope rest (.loop counter start stop stride body) s =
      match loopRange c.limits scope start stop stride with
      | .ok (first, last, stride) =>
        .ok (if body.isEmpty then rest else .loop scope counter last stride body first :: rest) s
      | .error r => .error r s := by
  rw [beginStep, ofExcept_bind_apply]
  cases loopRange c.limits scope start stop stride with
  | error r => rfl
  | ok range => cases body <;> rfl

theorem beginStep_call (callee : String) (arguments : List (String × Json)) :
    c.beginStep scope rest (.call callee arguments) s =
      if c.limits.maxCalls < s.countCall.work.calls then
        .error (.runaway .callCount c.limits.maxCalls) s.countCall
      else
        match enterCall c scope callee arguments with
        | .ok (steps, scope) => c.openSteps scope steps rest s.countCall
        | .error r => .error r s.countCall := by
  rw [beginStep, modify_bind_apply, get_bind_apply]
  refine (unless_apply _ _ _ _).trans (if_congr Iff.rfl rfl ?_)
  refine (ofExcept_bind_apply (enterCall c scope callee arguments) _ _).trans ?_
  cases enterCall c scope callee arguments <;> rfl

theorem beginStep_invalid (m : Malformation) :
    c.beginStep scope rest (.invalid m) s = .error (.malformed m) s := rfl

theorem transition_nil : c.transition [] s = .ok [] s := rfl

theorem transition_done : c.transition (.steps scope [] :: rest) s = .ok rest s := rfl

theorem transition_step (step : Step) :
    c.transition (.steps scope (step :: steps) :: rest) s =
      if s.isFull c.limits then .ok rest s
      else if c.limits.maxSteps < s.countStep.work.steps then
        .error (.runaway .executedSteps c.limits.maxSteps) s.countStep
      else c.beginStep scope (.steps scope steps :: rest) step s.countStep := by
  rw [transition, get_bind_apply]
  split
  · rfl
  · rw [modify_bind_apply, get_bind_apply]
    exact unless_apply _ _ _ _

theorem transition_loop (counter : String) (last stride : Int) (body : List Step) (value : Int) :
    c.transition (.loop scope counter last stride body value :: rest) s =
      if s.isFull c.limits ∨ ¬ Remains last stride value then .ok rest s
      else c.openSteps (scope.bind counter (.int value)) body
        (.loop scope counter last stride body (value + stride) :: rest) s.countIteration := by
  rw [transition, get_bind_apply]
  split
  · rfl
  · rw [modify_bind_apply]

end Equations

/-- When the output is full, what is next on the agenda is dropped. -/
theorem transition_full {c : RunContext} {s : RunState} (h : s.isFull c.limits) (task : Task)
    (rest : Agenda) : c.transition (task :: rest) s = .ok rest s := by
  cases task with
  | steps scope steps =>
    cases steps with
    | nil => rfl
    | cons step steps => rw [transition_step, if_pos h]
  | loop scope counter last stride body value => rw [transition_loop, if_pos (.inl h)]

end RunContext
end VoxelBlueprint
