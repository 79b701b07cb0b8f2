/-
# Execution of programs

What the steps of a program do. A placement adds a block. A loop runs its body for
each value of its counter, in a scope with the counter bound. A call runs the steps
of a definition in the scope of the caller with the arguments bound. When the
output is full nothing more happens, and that is no error; the other limits end the
run with a rejection when they are exceeded.

The functions for one step take the executor for the lists of steps inside it as an
argument, and `execute` ties the knot by counting down how many lists of steps may
still be opened.

Key definitions: `execute`, `runSteps`, `runLoop`, `runCall`, `loopCount`.
-/
import VoxelBlueprint.Expansion.Run
import VoxelBlueprint.Expansion.Value

namespace VoxelBlueprint

/-- Executes a list of steps in a scope. -/
abbrev Executor := List Step → Scope → Run Unit

/-! ### Placements -/

/-- Runs a placement. -/
def runPlace (c : RunContext) (scope : Scope) (x y z blockType : Json) : Run Unit := do
  let (x, y, z) ← MonadExcept.ofExcept (coordinatesAt c.limits scope [.field "place"] x y z)
  modify (·.place c scope x y z blockType)

/-! ### Loops -/

/-- The first value, the last value and the stride of a loop, which is not zero. -/
def loopRange (limits : Limits) (scope : Scope) (start stop stride : Json) :
    Except Rejection (Int × Int × Int) := do
  let first ← integerAt limits scope [.field "for", .field "from"] start
  let last ← integerAt limits scope [.field "for", .field "to"] stop
  let path := [.field "for", .field "step"]
  let n ← integerAt limits scope path stride
  if n = 0 then .error (.unevaluable .zeroStride path stride.display)
  else return (first, last, n)

/-- How many values a counter takes that starts at `first` and goes on by `stride`
without passing `last`. -/
def loopCount (first last stride : Int) : Nat :=
  if 0 < stride then ((last - first) / stride + 1).toNat
  else ((first - last) / (-stride) + 1).toNat

/-- Runs the body of a loop for `count` values of its counter, the next of which is
`value`, as long as there is room for blocks. -/
def iterate (c : RunContext) (inner : Executor) (scope : Scope) (counter : String)
    (stride : Int) (body : List Step) : Nat → Int → Run Unit
  | 0, _ => pure ()
  | count + 1, value => do
    modify (·.countIteration)
    inner body (scope.bind counter (.int value))
    if (← get).isFull c.limits then pure ()
    else iterate c inner scope counter stride body count (value + stride)

/-- Runs a loop. One with an empty body has nothing to do. -/
def runLoop (c : RunContext) (inner : Executor) (scope : Scope) (counter : String)
    (start stop stride : Json) (body : List Step) : Run Unit := do
  let (first, last, stride) ← MonadExcept.ofExcept (loopRange c.limits scope start stop stride)
  if body.isEmpty then pure ()
  else iterate c inner scope counter stride body (loopCount first last stride) first

/-! ### Calls -/

/-- The arguments that a definition asks for, each with its value in the call if it has
one there: the declared parameters, or everything in the call if none are declared. -/
def askedArguments (d : Definition) (arguments : List (String × Json)) :
    List (String × Option Json) :=
  if d.parameters.isEmpty then arguments.map fun (name, value) => (name, some value)
  else d.parameters.map fun name => (name, arguments.lookup name)

/-- The bindings that a call of a definition makes. -/
def bindArguments (limits : Limits) (scope : Scope) (callee : String) :
    List (String × Option Json) → Except Rejection Scope
  | [] => .ok []
  | (name, none) :: _ =>
    .error (.malformed ⟨.missingParameter name callee,
      [.field "call", .field callee, .field "args"]⟩)
  | (name, some value) :: rest => do
    let path := [.field "call", .field callee, .field "args", .field name]
    let value ← argumentAt limits scope path value
    let bindings ← bindArguments limits scope callee rest
    return (name, value) :: bindings

/-- The steps of the definition that is called, and the scope in which they run. -/
def enterCall (c : RunContext) (scope : Scope) (callee : String)
    (arguments : List (String × Json)) : Except Rejection (List Step × Scope) :=
  match c.program.find? callee with
  | none => .error (.malformed ⟨.unknownCallee callee, [.field "call", .field callee]⟩)
  | some d => do
    let bindings ← bindArguments c.limits scope callee (askedArguments d arguments)
    return (d.steps, bindings ++ scope)

/-- Runs a call. -/
def runCall (c : RunContext) (inner : Executor) (scope : Scope) (callee : String)
    (arguments : List (String × Json)) : Run Unit := do
  modify (·.countCall)
  if c.limits.maxCalls < (← get).work.calls then
    throw (.runaway .callCount c.limits.maxCalls)
  let (steps, scope) ← MonadExcept.ofExcept (enterCall c scope callee arguments)
  inner steps scope

/-! ### Lists of steps -/

/-- Runs a step. -/
def runStep (c : RunContext) (inner : Executor) (scope : Scope) : Step → Run Unit
  | .place x y z blockType => runPlace c scope x y z blockType
  | .loop counter start stop stride body => runLoop c inner scope counter start stop stride body
  | .call callee arguments => runCall c inner scope callee arguments
  | .invalid malformation => throw (.malformed malformation)

/-- Runs steps one after the other, as long as there is room for blocks. -/
def runSteps (c : RunContext) (inner : Executor) (scope : Scope) : List Step → Run Unit
  | [] => pure ()
  | step :: rest => do
    if (← get).isFull c.limits then pure ()
    else
      modify (·.countStep)
      if c.limits.maxSteps < (← get).work.steps then
        throw (.runaway .executedSteps c.limits.maxSteps)
      runStep c inner scope step
      runSteps c inner scope rest

/-- Executes lists of steps of which `room` may be opened one inside the other. -/
def execute (c : RunContext) : Nat → Executor
  | 0, _, _ => do
    modify (·.countLevels (c.maxLevels + 1))
    throw (.runaway .callDepth c.limits.maxCallDepth)
  | room + 1, steps, scope => do
    modify (·.countLevels (c.maxLevels - room))
    runSteps c (execute c room) scope steps

/-- Executes the steps of the program in an empty scope. -/
def runProgram (c : RunContext) : Run Unit := do
  execute c c.maxLevels c.program.steps []
  modify fun s => s.record s.endEvent

end VoxelBlueprint
