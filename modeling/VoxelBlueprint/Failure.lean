/-
# Failures

What ends an operation although no document is at fault: a catalog that cannot be
used, a file that cannot be opened or read, a setting that is no number, a chunk
size that is not positive, a number that is too long to be written, a target that is
none, a message with an infinite number.
A catalog's fault is reported to whoever supplied the catalog; the others are passed
on.

Key definitions: `CatalogFault`, `Failure`, `Failure.message`.
-/
import VoxelBlueprint.Files
import VoxelBlueprint.Http.Target
import VoxelBlueprint.Json.Fault
import VoxelBlueprint.Text.Utf8

namespace VoxelBlueprint

/-- Why a catalog cannot be used. -/
inductive CatalogFault where
  /-- No usable id is in it. -/
  | empty
  | unopened (file : String) (fault : FileFault)
  | notJson (file : String) (problem : Json.Problem) (location : Json.Location)
  | noBlockList (file : String)
  | noBlockIds (file : String)
  deriving DecidableEq, Repr

/-- The wording of a catalog's fault. -/
def CatalogFault.message : CatalogFault → String
  | empty => "block catalog is empty"
  | unopened file fault => s!"Cannot read catalog file {file}: {fault.message file}"
  | notJson file problem location =>
    s!"Cannot read catalog file {file}: {(Json.Fault.grammar problem location).message}"
  | noBlockList file => s!"Catalog file {file} has no block list"
  | noBlockIds file => s!"Catalog file {file} contains no block ids"

/-- What ends an operation although no document is at fault. -/
inductive Failure where
  | catalog (fault : CatalogFault)
  | file (name : String) (fault : FileFault)
  | encoding (fault : Text.Utf8.Fault)
  | json (fault : Json.Fault)
  | setting (name raw : String)
  | chunkSize
  /-- A whole number has too many digits to be written. -/
  | longInteger
  | target (fault : Http.TargetFault)
  /-- Numbers in messages must be finite. -/
  | infiniteNumber
  deriving DecidableEq, Repr

namespace Failure

/-- The wording of a failure. -/
def message : Failure → String
  | catalog fault => fault.message
  | file name fault => fault.message name
  | encoding fault => fault.message
  | json fault => fault.message
  | setting name raw => s!"{name} must be an integer, got {Text.quoted raw}"
  | chunkSize => "chunk size must be >= 1"
  | longInteger =>
    s!"Exceeds the limit ({Numeral.maxDigits} digits) for integer string conversion; " ++
      "use sys.set_int_max_str_digits() to increase the limit"
  | target fault => fault.message
  | infiniteNumber => "Out of range float values are not JSON compliant"

/-- The name of the failure's kind. -/
def kindName : Failure → String
  | catalog _ => "CatalogError"
  | file _ fault => fault.kindName
  | encoding _ => "UnicodeDecodeError"
  | json (.grammar _ _) => "JSONDecodeError"
  | json (.longNumeral _) => "ValueError"
  | json (.deepNesting _) => "RecursionError"
  | setting _ _ => "ValueError"
  | chunkSize => "ValueError"
  | longInteger => "ValueError"
  | target fault => fault.kindName
  | infiniteNumber => "ValueError"

end Failure
end VoxelBlueprint
