/-
# Places in a document

A path leads from a document to a part of it, by the names of fields and the
indices of items. The empty path is the document itself. Fields are separated by
points and indices stand in brackets: `defs[0].steps[2]`.

Key definitions: `Path`, `Path.text`, `Json.at?`.
-/
import VoxelBlueprint.Json.Basic

namespace VoxelBlueprint

/-- One step of a path. -/
inductive Segment where
  | field (name : String)
  | index (n : Nat)
  deriving DecidableEq, Repr

/-- The steps that lead to a part of a document. -/
abbrev Path := List Segment

/-- A step behind another one. -/
def Segment.suffix : Segment → String
  | field name => "." ++ name
  | index n => s!"[{n}]"

/-- A path as it is written. -/
def Path.text : Path → String
  | [] => ""
  | .field name :: rest => name ++ String.join (rest.map Segment.suffix)
  | rest => String.join (rest.map Segment.suffix)

/-- A path as it is written, unless it is the document itself. -/
def Path.text? (path : Path) : Option String :=
  if path.isEmpty then none else some path.text

/-- The part of a value to which a path leads. -/
def Json.at? : Path → Json → Option Json
  | [], value => some value
  | .field name :: path, value => value.field? name >>= Json.at? path
  | .index n :: path, value => value.array? >>= (·[n]?) >>= Json.at? path

end VoxelBlueprint
