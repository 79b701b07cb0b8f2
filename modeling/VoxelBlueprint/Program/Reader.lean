/-
# Reading programs

A document with a program has an array `steps` and may have an array `defs`. Names
are taken without the blanks around them, and a step's `op` is read without regard
to case. Definitions must be well formed, all of them; a step that is not becomes
an invalid step. Lists of steps that are nested deeper than a ceiling are not read.

The functions for one step take the reader for the lists inside it as an argument,
and `readSteps` ties the knot by counting the levels down.

Key definitions: `Step.ofJson`, `readSteps`, `Program.read`.
-/
import VoxelBlueprint.Program.Basic
import VoxelBlueprint.Json.Display
import VoxelBlueprint.Text.Blank
import VoxelBlueprint.Text.Lowercase

namespace VoxelBlueprint

/-- Reads a list of steps that stands at a place of the document. -/
abbrev StepsReader := Path → List Json → List Step

/-- How deep lists of steps may be nested in a document. -/
def maxStepNesting : Nat := 128

/-- The kinds of steps. -/
inductive Op where
  | place
  | loop
  | call
  deriving DecidableEq, Repr

/-- The kind of step that a tag names, blanks around it and case aside. -/
def Op.ofTag? (tag : String) : Option Op :=
  match Text.lowered (Text.stripped tag) with
  | "place" => some .place
  | "block" => some .place
  | "for" => some .loop
  | "call" => some .call
  | _ => none

/-- The kind of step that a value names. -/
def Op.ofJson? (value : Json) : Option Op :=
  value.text?.bind Op.ofTag?

/-- The value of an `op` field in a message. -/
def Op.shown : Json → String
  | .null => "None"
  | .str tag => tag
  | value => s!"<{value.kindName}>"

/-- A string without the blanks around it, unless nothing is left. -/
def nameOf? (value : Json) : Option String := do
  let name := Text.stripped (← value.text?)
  if name = "" then none else some name

/-- The parameters that a value declares: the names in an array, none otherwise. -/
def parametersOf (value : Json) : List String :=
  (value.array?.getD []).filterMap nameOf?

/-- The stride of a loop, one unless it is given. -/
def strideOf (value : Json) : Json :=
  if value.isNull then .int 1 else value

/-- Reads a loop. -/
def readLoop (readBody : StepsReader) (path : Path) (raw : Json) : Step :=
  match nameOf? (raw.field "var"), raw.field "steps" with
  | none, _ => .invalid ⟨.loopWithoutVariable, path⟩
  | some counter, .arr body =>
    .loop counter (raw.field "from") (raw.field "to") (strideOf (raw.field "step"))
      (readBody (path ++ [.field "steps"]) body)
  | some _, _ => .invalid ⟨.loopWithoutSteps, path⟩

/-- Reads a call. -/
def readCall (path : Path) (raw : Json) : Step :=
  match nameOf? (raw.field "name"), raw.field "args" with
  | none, _ => .invalid ⟨.callWithoutName, path⟩
  | some callee, .null => .call callee []
  | some callee, .obj arguments => .call callee arguments
  | some callee, _ => .invalid ⟨.argumentsNotObject callee, path⟩

/-- Reads a step that stands at a place of the document. -/
def Step.ofJson (readBody : StepsReader) (path : Path) (raw : Json) : Step :=
  match raw with
  | .obj _ =>
    match Op.ofJson? (raw.field "op") with
    | some .place => .place (raw.field "x") (raw.field "y") (raw.field "z") (raw.field "blockType")
    | some .loop => readLoop readBody path raw
    | some .call => readCall path raw
    | none => .invalid ⟨.unknownOp (Op.shown (raw.field "op")), path⟩
  | _ => .invalid ⟨.stepNotObject, path⟩

/-- Reads a list of steps of which at most `levels` may be nested, itself included. -/
def readSteps : Nat → StepsReader
  | 0, path, _ => [.invalid ⟨.stepsNestedTooDeeply, path⟩]
  | levels + 1, path, raws =>
    raws.mapIdx fun i raw => Step.ofJson (readSteps levels) (path ++ [.index i]) raw

/-- Reads a definition. -/
def Definition.ofJson (readBody : StepsReader) (path : Path) (raw : Json) :
    Except Malformation Definition :=
  if !raw.isObject then .error ⟨.definitionNotObject, path⟩
  else
    match nameOf? (raw.field "name"), raw.field "steps" with
    | none, _ => .error ⟨.definitionWithoutName, path⟩
    | some name, .arr steps =>
      .ok
        { name
          parameters := parametersOf (raw.field "params")
          steps := readBody (path ++ [.field "steps"]) steps }
    | some name, _ => .error ⟨.definitionWithoutSteps name, path⟩

/-- Reads the definitions of an array, the first of which has the given index. -/
def readDefinitions (readBody : StepsReader) : Nat → List Json →
    Except Malformation (List Definition)
  | _, [] => .ok []
  | i, raw :: raws => do
    let d ← Definition.ofJson readBody [.field "defs", .index i] raw
    let rest ← readDefinitions readBody (i + 1) raws
    return d :: rest

/-- Reads a program in which lists of steps may be nested up to a ceiling. -/
def Program.readWithin (ceiling : Nat) (document : Json) : Except Malformation Program := do
  if !document.isObject then .error ⟨.documentNotObject, []⟩
  let readBody := readSteps (ceiling + 1)
  let definitions ←
    match document.field "defs" with
    | .null => .ok []
    | .arr raws => readDefinitions readBody 0 raws
    | _ => .error ⟨.definitionsNotArray, [.field "defs"]⟩
  match document.field "steps" with
  | .arr raws =>
    return { definitions.foldl Program.define {} with steps := readBody [.field "steps"] raws }
  | _ => .error ⟨.programWithoutSteps, [.field "steps"]⟩

/-- Reads a program. -/
def Program.read (document : Json) : Except Malformation Program :=
  Program.readWithin maxStepNesting document

end VoxelBlueprint
