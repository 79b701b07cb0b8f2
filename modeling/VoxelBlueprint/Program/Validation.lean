/-
# Validation of programs

What can be found wrong with a program without running it. A defect makes a run
fail that reaches its step; a warning does not. The steps of the program come
first, then those of each definition; the body of a loop follows the check of the
loop itself.

Key definitions: `Defect`, `defectsOf`, `Program.defects`, `Program.warnings`.
-/
import VoxelBlueprint.Program.Basic
import VoxelBlueprint.Json.Display
import VoxelBlueprint.Text.Blank

namespace VoxelBlueprint

/-- The coordinates of a block. -/
inductive Axis where
  | x
  | y
  | z
  deriving DecidableEq, Repr

/-- The name of a coordinate. -/
def Axis.name : Axis → String
  | x => "x"
  | y => "y"
  | z => "z"

/-- What is wrong with a step. -/
inductive Defect where
  | unknownCallee (name : String)
  | missingParameter (callee parameter : String)
  | zeroStride (counter : String)
  | nonFiniteStride (counter : String) (stride : Binary64)
  | missingCoordinate (axis : Axis)
  | invalid (malformation : Malformation)
  deriving DecidableEq

/-- Which list of steps a defect was found in, its loops included. -/
inductive Site where
  | program
  | definition (name : String)
  deriving DecidableEq, Repr

/-- What may be unintended in a program. -/
inductive Warning where
  | redefined (name : String)
  | neverCalled (name : String)
  | noSteps
  deriving DecidableEq, Repr

/-- The wording of a defect. -/
def Defect.message : Defect → String
  | unknownCallee name => s!"call to unknown function '{name}'"
  | missingParameter callee parameter =>
    s!"call to '{callee}' is missing parameter '{parameter}'"
  | zeroStride counter => s!"loop over '{counter}' has step 0"
  | nonFiniteStride counter stride =>
    s!"loop over '{counter}' has non-finite step {stride.toText}"
  | missingCoordinate axis => s!"place step is missing '{axis.name}'"
  | invalid malformation => malformation.text

/-- The name of a site. -/
def Site.name : Site → String
  | program => "steps"
  | definition name => s!"def '{name}'"

/-- The wording of a warning. -/
def Warning.message : Warning → String
  | redefined name => s!"Def '{name}' is defined more than once; the last one wins"
  | neverCalled name => s!"Def '{name}' is never called"
  | noSteps => "Program has no top-level steps"

/-! ### Defects -/

/-- What is wrong with the stride of a loop as it is written. Other strides are known
only when the loop runs. -/
def strideDefects (counter : String) : Json → List Defect
  | .int n => if n = 0 then [.zeroStride counter] else []
  | .float x =>
    match x.truncate? with
    | some n => if n = 0 then [.zeroStride counter] else []
    | none => [.nonFiniteStride counter x]
  | .str text =>
    if Text.stripped text ∈ ["0", "+0", "-0"] then [.zeroStride counter] else []
  | _ => []

/-- What is wrong with a coordinate. -/
def coordinateDefects (axis : Axis) (value : Json) : List Defect :=
  if value.isNull then [.missingCoordinate axis] else []

/-- What is wrong with a call. -/
def callDefects (p : Program) (callee : String) (arguments : List (String × Json)) :
    List Defect :=
  match p.find? callee with
  | none => [.unknownCallee callee]
  | some d =>
    (d.parameters.filter fun q => (arguments.lookup q).isNone).map (.missingParameter callee)

mutual

/-- What is wrong with a step and the steps inside it. -/
def defectsOfStep (p : Program) : Step → List Defect
  | .place x y z _ => coordinateDefects .x x ++ coordinateDefects .y y ++ coordinateDefects .z z
  | .loop counter _ _ stride body => strideDefects counter stride ++ defectsOf p body
  | .call callee arguments => callDefects p callee arguments
  | .invalid malformation => [.invalid malformation]

/-- What is wrong with a list of steps. -/
def defectsOf (p : Program) : List Step → List Defect
  | [] => []
  | step :: rest => defectsOfStep p step ++ defectsOf p rest

end

mutual

/-- The names that a step calls. -/
def calleesOfStep : Step → List String
  | .loop _ _ _ _ body => calleesOf body
  | .call callee _ => [callee]
  | _ => []

/-- The names that a list of steps calls. -/
def calleesOf : List Step → List String
  | [] => []
  | step :: rest => calleesOfStep step ++ calleesOf rest

end

namespace Program

/-- The lists of steps of a program. -/
def sites (p : Program) : List (Site × List Step) :=
  (.program, p.steps) :: p.definitions.map fun d => (.definition d.name, d.steps)

/-- All defects of a program, each with its site. -/
def defects (p : Program) : List (Site × Defect) :=
  p.sites.flatMap fun site => (defectsOf p site.2).map fun defect => (site.1, defect)

/-- The names that are called anywhere in a program. -/
def callees (p : Program) : List String :=
  p.sites.flatMap fun site => calleesOf site.2

/-- The warnings for a program. -/
def warnings (p : Program) : List Warning :=
  p.redefined.map .redefined ++
    ((p.definitions.map (·.name)).filter (· ∉ p.callees)).map .neverCalled ++
    if p.steps.isEmpty then [.noSteps] else []

/-- Whether no defect is found. -/
def isValid (p : Program) : Bool :=
  p.defects.isEmpty

/-- The defects of a program in words. -/
def errorTexts (p : Program) : List String :=
  p.defects.map fun d => s!"{d.1.name}: {d.2.message}"

/-- The warnings for a program in words. -/
def warningTexts (p : Program) : List String :=
  p.warnings.map (·.message)

end Program
end VoxelBlueprint
