/-
# The interface over HTTP

Over HTTP the service is reached through endpoints, each of which returns a status and some
content: status 200 for what was done, 422 for a runaway program, 400 for any other refusal.
Which endpoint a request comes to, and how an answer is sent, is up to the framework that serves
the program. It may also answer a request on its own, for instance one that cannot be read.

Key definitions: `Http.Request`, `Http.Response`, `Http.Call`, `Http.Answer`,
`Http.answer`, `Http.Framework`, `Http.Framework.handle`.
-/
import VoxelBlueprint.Service.Basic

namespace VoxelBlueprint
namespace Http

/-- A request: its method, its target and the bytes of its body, empty if there is none. -/
structure Request where
  method : String
  target : String
  body : List UInt8 := []

/-- An answer with a status. -/
inductive Response where
  | json (status : Nat) (body : Json)
  /-- The body of the request is missing or not what was expected. -/
  | invalidRequest
  /-- An answer without JSON in its body. -/
  | bodiless

/-! ### Endpoints -/

/-- What an endpoint is called with. -/
inductive Call where
  | expand (request : ExpandRequest)
  | validate (request : ExpandRequest)
  | catalog
  | updateCatalog (request : CatalogRequest)
  | health
  | root

/-- What an endpoint returns. -/
structure Answer where
  status : Nat
  content : Json

/-- The status of a reply. -/
def statusOf : Reply → Nat
  | .rejected (.runaway _ _) => 422
  | .rejected _ | .catalogRefused _ => 400
  | _ => 200

/-- A reply as an answer. -/
def Answer.ofReply (reply : Reply) : Answer :=
  ⟨statusOf reply, .obj reply.fields⟩

/-- An answer as it is to be sent. -/
def Answer.toResponse (answer : Answer) : Response :=
  .json answer.status answer.content

/-- The version of the interface. -/
def version : String := "0.1.0"

/-- What the health check returns. -/
def healthContent : Json :=
  .obj [("status", .str "healthy"), ("service", .str "blockprint"), ("version", .str version)]

/-- What is found under the root. -/
def rootContent : Json :=
  .obj
    [("name", .str "Blockprint API"), ("version", .str version), ("docs", .str "/api/docs"),
     ("health", .str "/health")]

/-- What a service answers when an endpoint is called. -/
def answer (service : Service) : Call → Except Failure (Service × Answer)
  | .expand request =>
    let (service, reply) := service.expand request
    .ok (service, .ofReply reply)
  | .validate request => .ok (service, .ofReply (Service.validate request))
  | .catalog => .ok (service, .ofReply service.summary)
  | .updateCatalog request => do
    let (service, reply) ← service.updateCatalog request
    return (service, .ofReply reply)
  | .health => .ok (service, ⟨200, healthContent⟩)
  | .root => .ok (service, ⟨200, rootContent⟩)

/-! ### Frameworks -/

/-- What a request comes to. -/
inductive Received where
  | call (call : Call)
  /-- The framework answers on its own. -/
  | answered (response : Response)

/-- What serves the program: it finds the endpoint that a request calls, and sends what the
endpoint returns. -/
structure Framework where
  receive : Request → Except Failure Received
  send : Answer → Except Failure Response

/-- Answers a request. What the call of an endpoint does to the service lasts, also if the answer
cannot be sent. -/
def Framework.handle (framework : Framework) (service : Service) (request : Request) :
    Service × Except Failure Response :=
  match framework.receive request with
  | .error failure => (service, .error failure)
  | .ok (.answered response) => (service, .ok response)
  | .ok (.call call) =>
    match answer service call with
    | .error failure => (service, .error failure)
    | .ok (service, answer) => (service, framework.send answer)

end Http
end VoxelBlueprint
