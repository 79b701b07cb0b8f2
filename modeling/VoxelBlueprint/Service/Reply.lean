/-
# Replies

What the service answers, and the fields of the answer as JSON. An answer to a
request that cannot be met has a code for the reason.

Key definitions: `Reply`, `Reply.fields`, `Reply.kindName`.
-/
import VoxelBlueprint.Blueprint
import VoxelBlueprint.Catalog.Snapshot

namespace VoxelBlueprint

/-- Why a request is not met. -/
inductive RefusalCode where
  | invalidDocument
  | invalidExpression
  | runawayProgram
  | invalidCatalog
  deriving DecidableEq, Repr

/-- The name of a code. -/
def RefusalCode.name : RefusalCode → String
  | invalidDocument => "INVALID_DOCUMENT"
  | invalidExpression => "INVALID_EXPRESSION"
  | runawayProgram => "RUNAWAY_PROGRAM"
  | invalidCatalog => "INVALID_CATALOG"

/-- The code for a rejection. -/
def Rejection.code : Rejection → RefusalCode
  | malformed _ | undecodable _ => .invalidDocument
  | unevaluable _ _ _ => .invalidExpression
  | runaway _ _ => .runawayProgram

/-- What the service answers. -/
inductive Reply where
  | blueprint (b : Blueprint) (catalogVersion : String)
  /-- What was found about a document; the layout is missing if it has none. -/
  | validation (layout : Option Layout) (errors warnings : List String)
  | catalog (snapshot : Catalog.Snapshot)
  | rejected (rejection : Rejection)
  | catalogRefused (fault : CatalogFault)

namespace Reply

/-- A field with a text that may be missing. -/
def textField (name : String) (text : Option String) : String × Json :=
  (name, (text.map Json.str).getD .null)

/-- The fields of a reply that a request is not met. -/
def refusalFields (message : String) (code : RefusalCode) (details : Json) :
    List (String × Json) :=
  [("success", .bool false), ("error", .str message), ("error_code", .str code.name),
   ("details", details)]

/-- The particulars of a rejection. -/
def details (rejection : Rejection) : Json :=
  let path :=
    match rejection.path? with
    | none | some "" => []
    | some path => [("path", Json.str path)]
  let expression := rejection.expression?.toList.map fun text => ("expression", Json.str text)
  let overrun :=
    match rejection with
    | .runaway ceiling limit => [("limit", .str ceiling.name), ("ceiling", .int limit)]
    | _ => []
  .obj (("type", .str rejection.kindName) :: path ++ expression ++ overrun)

/-- The summary of a snapshot. -/
def summaryFields (s : Catalog.Snapshot) : List (String × Json) :=
  [("version", .str s.version), ("source", .str s.source), ("block_count", .int s.ids.length),
   ("fallback", .str s.fallback)]

/-- The fields of a reply. -/
def fields : Reply → List (String × Json)
  | blueprint b catalogVersion =>
    [("success", .bool true), textField "format" (b.layout.map Layout.name),
     ("block_count", .int b.blocks.length), ("blocks", Block.listToJson b.blocks),
     ("truncated_from", (b.truncatedFrom.map fun n => Json.int n).getD .null),
     ("catalog_version", .str catalogVersion), ("api_version", .str "v1")]
  | validation layout errors warnings =>
    [("valid", .bool errors.isEmpty), textField "format" (layout.map Layout.name),
     ("errors", .arr (errors.map .str)), ("warnings", .arr (warnings.map .str))]
  | catalog snapshot => summaryFields snapshot
  | rejected rejection =>
    refusalFields rejection.text rejection.code (details rejection)
  | catalogRefused fault => refusalFields fault.message .invalidCatalog .null

/-- The name of the reply's kind. -/
def kindName : Reply → String
  | blueprint _ _ => "BlueprintResponse"
  | validation _ _ _ => "ValidationResponse"
  | catalog _ => "CatalogResponse"
  | rejected _ | catalogRefused _ => "ErrorResponse"

end Reply
end VoxelBlueprint
