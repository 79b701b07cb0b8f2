/-
# Rejections

Why a document is not expanded. A rejection is about the document and not a
failure of the program: the document has the wrong shape, its text is not JSON, an
expression in it has no value, or it runs away. Each has a message, and where it
is known the place in the document and the expression it is about.

Key definitions: `Malformation`, `Rejection`, `Rejection.text`, `diagnostic`.
-/
import VoxelBlueprint.Expression.Fault
import VoxelBlueprint.Json.Fault
import VoxelBlueprint.Path

namespace VoxelBlueprint

/-- A message with the place and the expression it is about, as far as they are known. -/
def diagnostic (message : String) (path expression : Option String) : String :=
  let placed :=
    match path with
    | none | some "" => message
    | some path => s!"{path}: {message}"
  match expression with
  | none => placed
  | some expression => s!"{placed} (expression: {Text.quoted expression})"

/-! ### Wrong shapes -/

/-- What is wrong with the shape of a part of a document. -/
inductive ShapeFault where
  | documentNotObject
  | noLayout
  | definitionsNotArray
  | definitionNotObject
  | definitionWithoutName
  | definitionWithoutSteps (name : String)
  | programWithoutSteps
  | stepNotObject
  | unknownOp (shown : String)
  | loopWithoutVariable
  | loopWithoutSteps
  | callWithoutName
  | argumentsNotObject (callee : String)
  | stepsNestedTooDeeply
  | noBlockList
  | blockNotObject
  | unknownCallee (name : String)
  | missingParameter (parameter callee : String)
  deriving DecidableEq, Repr

/-- The wording of a fault of shape. -/
def ShapeFault.message : ShapeFault → String
  | documentNotObject => "response must be a JSON object"
  | noLayout => "response is missing both steps/defs and blocks arrays"
  | definitionsNotArray => "defs must be an array"
  | definitionNotObject => "def must be an object"
  | definitionWithoutName => "def requires a non-empty name"
  | definitionWithoutSteps name => s!"def '{name}' requires a steps array"
  | programWithoutSteps => "compact program requires a top-level steps array"
  | stepNotObject => "step must be an object"
  | unknownOp shown => s!"unknown op '{shown}'"
  | loopWithoutVariable => "for requires a non-empty var"
  | loopWithoutSteps => "for requires a steps array"
  | callWithoutName => "call requires a non-empty name"
  | argumentsNotObject callee => s!"call '{callee}' args must be an object"
  | stepsNestedTooDeeply => "steps nested too deeply"
  | noBlockList => "legacy document requires a blocks array"
  | blockNotObject => "block must be an object"
  | unknownCallee name => s!"call to unknown function '{name}'"
  | missingParameter parameter callee =>
    s!"missing parameter '{parameter}' for function '{callee}'"

/-- A part of a document with the wrong shape. -/
structure Malformation where
  fault : ShapeFault
  path : Path
  deriving DecidableEq, Repr

/-- The whole text of a malformation. -/
def Malformation.text (m : Malformation) : String :=
  diagnostic m.fault.message m.path.text? none

/-! ### Rejections -/

/-- Why a text holds no document. -/
inductive DecodeFault where
  | emptyText
  | invalidJson (fault : Json.Fault)
  | notObject
  deriving DecidableEq, Repr

/-- The wording of a fault of a text. -/
def DecodeFault.message : DecodeFault → String
  | emptyText => "response text is empty"
  | invalidJson fault => s!"response is not valid JSON: {fault.message}"
  | notObject => "response must be a JSON object"

/-- Why an expression in a document cannot be used. -/
inductive EvaluationFault where
  | expression (fault : Expression.Fault)
  | zeroStride
  deriving DecidableEq, Repr

/-- The wording of a fault of an expression in a document. -/
def EvaluationFault.message : EvaluationFault → String
  | expression fault => fault.message
  | zeroStride => "loop step must not be 0"

/-- The ceilings that a run may exceed. -/
inductive Ceiling where
  | callDepth
  | executedSteps
  | callCount
  deriving DecidableEq, Repr

/-- The name of a ceiling. -/
def Ceiling.name : Ceiling → String
  | callDepth => "call depth"
  | executedSteps => "executed steps"
  | callCount => "call count"

/-- The message for a ceiling of the given name that was exceeded. -/
def overrunMessage (name : String) (limit : Int) : String :=
  s!"{name} exceeded (max {limit})"

/-- Why a document is not expanded. -/
inductive Rejection where
  /-- It has the wrong shape. -/
  | malformed (malformation : Malformation)
  /-- Its text is not JSON. -/
  | undecodable (fault : DecodeFault)
  /-- An expression in it has no value. -/
  | unevaluable (fault : EvaluationFault) (path : Path) (expression : String)
  /-- It does more than the ceilings allow. -/
  | runaway (ceiling : Ceiling) (limit : Int)
  deriving DecidableEq, Repr

namespace Rejection

/-- What is wrong, without the place and the expression. -/
def message : Rejection → String
  | malformed m => m.fault.message
  | undecodable fault => fault.message
  | unevaluable fault _ _ => fault.message
  | runaway ceiling limit => overrunMessage ceiling.name limit

/-- The place of the rejection, if it has one. -/
def path? : Rejection → Option String
  | malformed m => m.path.text?
  | unevaluable _ path _ => path.text?
  | _ => none

/-- The expression that the rejection is about, if there is one. -/
def expression? : Rejection → Option String
  | unevaluable _ _ expression => some expression
  | _ => none

/-- The whole text of a rejection. -/
def text (r : Rejection) : String :=
  diagnostic r.message r.path? r.expression?

/-- The name of the rejection's kind. -/
def kindName : Rejection → String
  | malformed _ => "StructuralError"
  | undecodable _ => "DocumentDecodeError"
  | unevaluable _ _ _ => "EvaluationError"
  | runaway _ _ => "BudgetExceededError"

end Rejection
end VoxelBlueprint
