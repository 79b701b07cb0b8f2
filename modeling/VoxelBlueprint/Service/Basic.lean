/-
# The service

The service keeps a catalog and the limits of expansions, and answers requests one
after the other. It turns rejections into replies. Only the catalog, and what was
reported about it, lasts from one request to the next.

Key definitions: `Service`, `Service.expand`, `Service.validate`,
`Service.updateCatalog`, `Service.loadCatalog`, `Service.start`.
-/
import VoxelBlueprint.Catalog.File
import VoxelBlueprint.Expansion.Dispatch
import VoxelBlueprint.Program.Validation
import VoxelBlueprint.Service.Reply
import VoxelBlueprint.Service.Request
import VoxelBlueprint.Settings

namespace VoxelBlueprint

/-- A ledger and the limits of expansions. -/
structure Service where
  ledger : Ledger := {}
  limits : Limits := {}

/-- The document that is submitted. -/
def Submission.decode : Submission → Except Rejection Json
  | document value => .ok value
  | text content => (Document.decode content.toList).mapError .undecodable

namespace Service

/-- The current snapshot of the catalog. -/
def snapshot (service : Service) : Catalog.Snapshot :=
  service.ledger.store.current

/-- The service with one more event in its journal. -/
def record (service : Service) (event : Event) : Service :=
  { service with ledger := service.ledger.record event }

/-- The limits for a request, which may lower the ceiling on the blocks. -/
def limitsFor (service : Service) (request : ExpandRequest) : Limits :=
  match request.maxBlocks with
  | none => service.limits
  | some n => { service.limits with maxBlocks := min service.limits.maxBlocks n }

/-- The event of a rejection. -/
def rejectionEvent : Rejection → Event
  | .runaway ceiling limit => .runawayRejected (.runaway ceiling limit)
  | rejection => .documentRejected rejection

/-- The blueprint of a submission. -/
def expandSubmission (limits : Limits) (submission : Submission) : Expansion Blueprint := do
  expandDocument limits (← MonadExcept.ofExcept submission.decode)

/-- Expands a document. -/
def expand (service : Service) (request : ExpandRequest) : Service × Reply :=
  match expandSubmission (service.limitsFor request) request.submission service.ledger with
  | .ok b ledger => ({ service with ledger }, .blueprint b ledger.store.current.version)
  | .error rejection ledger =>
    ({ service with ledger }.record (rejectionEvent rejection), .rejected rejection)

/-- What is found about a document without running it. -/
def findings (document : Json) : Except Rejection Reply := do
  match ← (Layout.of document).mapError .malformed with
  | some .blockList => return .validation (some .blockList) [] []
  | none => return .validation none [ShapeFault.noLayout.message] []
  | some .program =>
    let program ← (Program.read document).mapError .malformed
    return .validation (some .program) program.errorTexts program.warningTexts

/-- Validates a document. -/
def validate (request : ExpandRequest) : Reply :=
  match request.submission.decode >>= findings with
  | .ok reply => reply
  | .error rejection => .rejected rejection

/-- The summary of the current catalog. -/
def summary (service : Service) : Reply :=
  .catalog service.snapshot

/-- Replaces the catalog. -/
def updateCatalog (service : Service) (request : CatalogRequest) :
    Except Failure (Service × Reply) :=
  match service.ledger.replaceCatalog (request.ids.map .str) request.version request.source with
  | .ok ledger =>
    let service := { service with ledger }
    .ok (service, service.summary)
  | .error (.catalog fault) => .ok (service, .catalogRefused fault)
  | .error failure => .error failure

/-- The ledger with the catalog of a file. -/
def loadLedger (ledger : Ledger) (read : FileReader) (file : String) : Except Failure Ledger := do
  let listing ← Catalog.Listing.ofFile read file
  let values := listing.ids.map Json.str
  ledger.replaceCatalog values (some listing.version) (some listing.source)

/-- Loads the catalog of a file. The current one stays if there is none in the file. -/
def loadCatalog (service : Service) (read : FileReader) (file : String) :
    Except Failure Service :=
  match loadLedger service.ledger read file with
  | .ok ledger => .ok { service with ledger }
  | .error (.catalog fault) => .ok (service.record (.catalogKept fault service.snapshot.source))
  | .error failure => .error failure

/-- The service with the limits and the catalog file that the environment names. -/
def start (env : Environment) (read : FileReader) : Except Failure Service := do
  let service : Service := { limits := ← Settings.limits env }
  match Settings.catalogFile? env with
  | none | some "" => return service
  | some file => service.loadCatalog read file

end Service
end VoxelBlueprint
