/-
# Requests

What the service is asked: a request holds a document or the text of one, a catalog
request at least one block id.

Key definitions: `Submission`, `ExpandRequest`, `CatalogRequest`.
-/
import VoxelBlueprint.Json.Basic

namespace VoxelBlueprint

/-- What is to be expanded. -/
inductive Submission where
  | document (value : Json)
  | text (content : String)

/-- A request to expand or to validate a document. -/
structure ExpandRequest where
  submission : Submission
  /-- A ceiling on the blocks, which is at least one. -/
  maxBlocks : Option Nat := none

/-- A request to replace the catalog. -/
structure CatalogRequest where
  ids : List String
  version : Option String := none
  source : Option String := none
  deriving DecidableEq, Repr

end VoxelBlueprint
