/-
# Catalog files

A catalog file holds a list of block ids: a JSON array of strings, or of objects
with a `name`, on its own or as the `blocks` of an object, which may also have a
`version` and a `source`. The file's own name is the source unless it names one.

Key definitions: `Catalog.Listing`, `Catalog.Listing.ofFile`.
-/
import VoxelBlueprint.Catalog.BlockId
import VoxelBlueprint.Json.Reader
import VoxelBlueprint.TextFile

namespace VoxelBlueprint
namespace Catalog

/-- What a catalog file says. -/
structure Listing where
  ids : List String
  version : String
  source : String
  deriving DecidableEq, Repr

/-- A value as a text, in full: a string itself and any other value as a literal. -/
def fullText (value : Json) : String :=
  match value with
  | .str text => text
  | value => value.literal?.getD value.display

/-- The id of an entry of the list under the namespace, unless it has none. -/
def entryId? (entry : Json) : Option String :=
  let name := if entry.isObject then entry.field "name" else entry
  let id := if name.isTruthy then Text.strip (fullText name).toList else []
  if id.isEmpty then none else some (String.ofList (qualify id))

/-- The version that a catalog names. -/
def namedVersion (data : Json) : String :=
  let version := data.field "version"
  if version.isNull then "unknown" else fullText version

/-- The source that a catalog names, or else the base name of its file. -/
def namedSource (file : String) (data : Json) : String :=
  let source := data.field "source"
  if source.isTruthy then fullText source else baseName file

/-- What the content of a catalog file says. -/
def Listing.ofJson (file : String) (data : Json) : Except CatalogFault Listing :=
  let entries := if data.isObject then data.field "blocks" else data
  match entries with
  | .arr entries =>
    let ids := entries.filterMap entryId?
    if ids.isEmpty then .error (.noBlockIds file)
    else .ok { ids, version := namedVersion data, source := namedSource file data }
  | _ => .error (.noBlockList file)

/-- A failure on reading a catalog file. That it cannot be opened or is not JSON is
a fault of the catalog. -/
def asCatalogFault (file : String) : Failure → Failure
  | .file name .nulInName => .file name .nulInName
  | .file _ fault => .catalog (.unopened file fault)
  | .json (.grammar problem location) => .catalog (.notJson file problem location)
  | failure => failure

/-- Reads a catalog file. -/
def Listing.ofFile (read : FileReader) (name : String) : Except Failure Listing :=
  let file := tidyFileName name
  let data := do
    let text ← readText read file
    (Json.read text).mapError Failure.json
  match data with
  | .ok data => (Listing.ofJson file data).mapError Failure.catalog
  | .error failure => .error (asCatalogFault file failure)

end Catalog
end VoxelBlueprint
