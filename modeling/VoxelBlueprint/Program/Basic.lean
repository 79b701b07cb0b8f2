/-
# Programs

A program says how a structure is built: a list of steps, and definitions of
further lists of steps that a call runs under a name. A step places a block, runs
its body for every value of a counter, or calls a definition. Numbers and strings
in a step stay as they are in the document, since they are evaluated in the scope
that is current when the step runs. A step that could not be read is kept with the
reason, which counts only if the step is reached.

Key definitions: `Step`, `Definition`, `Program`, `Program.define`,
`Program.find?`.
-/
import VoxelBlueprint.Rejection

namespace VoxelBlueprint

/-- A step of a program. -/
inductive Step where
  /-- Places a block. -/
  | place (x y z blockType : Json)
  /-- Runs the body with the counter bound to `start` and every `stride`-th integer
  after it, up to and with `stop`. -/
  | loop (counter : String) (start stop stride : Json) (body : List Step)
  /-- Runs the steps of a definition. -/
  | call (callee : String) (arguments : List (String × Json))
  /-- A step that could not be read. -/
  | invalid (malformation : Malformation)

/-- A named list of steps. A definition without parameters takes all arguments of a
call under their own names. -/
structure Definition where
  name : String
  parameters : List String := []
  steps : List Step := []

/-- A program: its steps, its definitions in the order in which their names first
appeared, and the names that were defined again, once for each time. -/
structure Program where
  steps : List Step := []
  definitions : List Definition := []
  redefined : List String := []

namespace Program

/-- The definition of a name. -/
def find? (p : Program) (name : String) : Option Definition :=
  p.definitions.find? (·.name = name)

/-- Sets the definition of a name: a name that is there keeps its place. -/
def putDefinition (d : Definition) : List Definition → List Definition
  | [] => [d]
  | e :: rest => if e.name = d.name then d :: rest else e :: putDefinition d rest

/-- The program with one more definition, which replaces an earlier one of its name. -/
def define (p : Program) (d : Definition) : Program :=
  { p with
    definitions := putDefinition d p.definitions
    redefined := if (p.find? d.name).isSome then p.redefined ++ [d.name] else p.redefined }

end Program
end VoxelBlueprint
