/-
# The framework of the program

The framework that serves the program finds an endpoint under its path: slashes at the end of a
path and a line feed behind it do not matter. A body that is missing or not what was expected is
refused. The refusal repeats the values at fault, so these must be finite. An answer to the
method HEAD has no body, and the documentation of the interface is not kept here.

Key definitions: `Http.Route`, `Http.Framework.standard`.
-/
import VoxelBlueprint.Http
import VoxelBlueprint.Http.Content
import VoxelBlueprint.Json.Bytes
import VoxelBlueprint.Json.Reader
import VoxelBlueprint.Text.Blank

namespace VoxelBlueprint
namespace Http

/-! ### Routes -/

/-- What is found under a path. -/
inductive Route where
  | expand
  | validate
  | catalog
  | health
  | root
  | documentation
  deriving DecidableEq, Repr

/-- What is found under a path, if anything is. -/
def Route.ofPath? (path : String) : Option Route :=
  match path with
  | "/api/v1/blueprints/expand" => some expand
  | "/api/v1/blueprints/validate" => some validate
  | "/api/v1/catalog" => some catalog
  | "/health" => some health
  | "/" => some root
  | "/openapi.json" => some documentation
  | "/api/docs" => some documentation
  | "/api/docs/oauth2-redirect" => some documentation
  | "/api/redoc" => some documentation
  | _ => none

/-- What is found under a path, which may have a line feed or slashes behind it. -/
def routeOf? (path : List Char) : Option Route :=
  let find (path : List Char) := Route.ofPath? (String.ofList (Text.dropFinalNewline path))
  (find path).or (find (withoutFinalSlashes path))

/-! ### Bodies -/

/-- An answer with a message. -/
def Response.detail (status : Nat) (message : String) : Response :=
  .json status (.obj [("detail", .str message)])

/-- The answer to a body that cannot be parsed although it may be JSON. -/
def unparsed : Response :=
  .detail 400 "There was an error parsing the body"

/-- The JSON value that the bytes of a body write. -/
def parseBody (body : List UInt8) : Except Response Json :=
  match Json.textOfBytes? body with
  | none => .error unparsed
  | some text =>
    match Json.read text with
    | .ok raw => .ok raw
    | .error (.grammar _ _) => .error .invalidRequest
    | .error _ => .error unparsed

/-- What a request comes to whose body must hold something. -/
def withBody {α : Type} (request : Request) (read : Json → Except (List Json) α)
    (call : α → Call) : Except Failure Received :=
  match parseBody request.body with
  | .error response => .ok (.answered response)
  | .ok raw =>
    match read raw with
    | .error faults =>
      if Json.allFinite faults then .ok (.answered .invalidRequest) else .error .infiniteNumber
    | .ok content => .ok (.call (call content))

/-! ### Requests -/

/-- What a request comes to for what is found under its path. -/
def receiveAt (request : Request) (route? : Option Route) : Except Failure Received :=
  match route?, request.method.toUpper with
  | _, "HEAD" => .ok (.answered .bodiless)
  | none, _ => .ok (.answered (.detail 404 "Not Found"))
  | some .expand, "POST" => withBody request ExpandRequest.ofJson .expand
  | some .validate, "POST" => withBody request ExpandRequest.ofJson .validate
  | some .catalog, "GET" => .ok (.call .catalog)
  | some .catalog, "PUT" => withBody request CatalogRequest.ofJson .updateCatalog
  | some .health, "GET" => .ok (.call .health)
  | some .root, "GET" => .ok (.call .root)
  | some .documentation, "GET" => .ok (.answered (.detail 404 "Not Found"))
  | some _, _ => .ok (.answered (.detail 405 "Method Not Allowed"))

/-- The framework that serves the program. -/
def Framework.standard : Framework where
  receive request := do
    let path ← (pathOf request.target).mapError .target
    receiveAt request (routeOf? path)
  send answer := .ok answer.toResponse

end Http
end VoxelBlueprint
