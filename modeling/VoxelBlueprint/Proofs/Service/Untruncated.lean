/-
# No answer reports that blocks were cut off

The service, its answers over HTTP and the command line can report that a blueprint was cut off.
Since every blueprint is assembled whole they never do, whatever the ceiling on the blocks, and
whatever framework serves the program, if it does what is documented of it.

Key definitions: `Reply.IsWhole`, `Http.Response.IsWhole`.
Key theorems: `Service.isWhole_expand`, `Http.isWhole_answer`, `Http.Framework.isWhole_handle`,
`blueprints_never_truncated`.
-/
import VoxelBlueprint.Proofs.CommandLine.Notes
import VoxelBlueprint.Proofs.Http.Requests

namespace VoxelBlueprint

open Effects

/-! ### Replies -/

/-- Whether a reply does not report that blocks were cut off. -/
def Reply.IsWhole : Reply → Prop
  | .blueprint b _ => b.truncatedFrom = none
  | _ => True

/-- The blueprint of a submission has all its blocks. -/
theorem Service.isWhole_expand (service : Service) (request : ExpandRequest) :
    (service.expand request).2.IsWhole := by
  unfold expand
  cases hs : expandSubmission (service.limitsFor request) request.submission service.ledger with
  | error rejection ledger => trivial
  | ok b ledger =>
    obtain ⟨document, ledger₁, -, hb⟩ := bind_apply_eq_ok hs
    exact (dispatch_of_expandDocument hb).1

theorem Service.isWhole_findings {document : Json} {reply : Reply}
    (h : Service.findings document = .ok reply) : reply.IsWhole := by
  obtain ⟨layout?, -, h⟩ := bind_eq_ok h
  rcases layout? with _ | _ | _
  · cases h
    trivial
  · obtain ⟨program, -, h⟩ := bind_eq_ok h
    cases h
    trivial
  · cases h
    trivial

theorem Service.isWhole_validate (request : ExpandRequest) :
    (Service.validate request).IsWhole := by
  unfold validate
  cases hf : request.submission.decode >>= findings with
  | error rejection => trivial
  | ok reply =>
    obtain ⟨document, -, hreply⟩ := bind_eq_ok hf
    exact isWhole_findings hreply

theorem Service.isWhole_updateCatalog {service service' : Service} {request : CatalogRequest}
    {reply : Reply} (h : service.updateCatalog request = .ok (service', reply)) :
    reply.IsWhole := by
  unfold updateCatalog at h
  split at h <;> cases h <;> trivial

/-- A reply that does not report it has nothing to say in the field for it. -/
theorem Reply.field_truncated_from {reply : Reply} (h : reply.IsWhole) :
    (Json.obj reply.fields).field "truncated_from" = .null := by
  cases reply with
  | blueprint b version =>
    show (b.truncatedFrom.map fun n => Json.int n).getD .null = .null
    rw [show b.truncatedFrom = none from h]
    rfl
  | _ => rfl

/-! ### Answers over HTTP -/

namespace Http

/-- Whether an answer has nothing to say of blocks that were cut off. -/
def Response.IsWhole : Response → Prop
  | .json _ body => body.field "truncated_from" = .null
  | _ => True

/-- What a framework answers on its own says nothing of blocks. -/
theorem Response.IsOwn.isWhole {response : Response} (h : response.IsOwn) : response.IsWhole := by
  cases h with
  | detail | invalidRequest | bodiless => trivial
  | @description fields hfields =>
    have hlookup : fields.lookup "truncated_from" = none := by
      refine List.lookup_eq_none_iff.mpr fun field hfield => ?_
      rw [bne_iff_ne]
      rintro heq
      have hname := hfields field hfield
      rw [← heq] at hname
      revert hname
      decide
    show (fields.lookup "truncated_from").getD .null = .null
    rw [hlookup]
    rfl

variable {service service' : Service} {call : Call} {a : Answer}

/-- **No endpoint reports that blocks were cut off.** -/
theorem isWhole_answer (h : answer service call = .ok (service', a)) :
    a.content.field "truncated_from" = .null := by
  cases call with
  | expand request =>
    cases h
    exact Reply.field_truncated_from (service.isWhole_expand request)
  | validate request =>
    cases h
    exact Reply.field_truncated_from (Service.isWhole_validate request)
  | catalog =>
    cases h
    rfl
  | updateCatalog request =>
    obtain ⟨⟨after, reply⟩, hupdate, h⟩ := bind_eq_ok h
    cases h
    exact Reply.field_truncated_from (Service.isWhole_updateCatalog hupdate)
  | health =>
    cases h
    rfl
  | root =>
    cases h
    rfl

/-- **No answer reports that blocks were cut off**, whatever framework sends it. -/
theorem Framework.isWhole_handle {framework : Framework} (hf : framework.Documented)
    {request : Request} {response : Response}
    (h : (framework.handle service request).2 = .ok response) : response.IsWhole := by
  unfold handle at h
  split at h
  · cases h
  · rename_i hreceive
    cases h
    exact (hf.own _ _ hreceive).isWhole
  · split at h
    · cases h
    · rename_i hanswer
      rw [hf.sent _ _ h]
      exact isWhole_answer hanswer

end Http

/-! ### Everywhere -/

/-- **No blueprint is ever truncated.** The blocks of a document are at most as many as the ceiling
allows, and a negative ceiling allows none. So the blueprint of a document has exactly these blocks
and says that none were cut off, and so has that of a text. No reply of the service and no answer
over HTTP, whatever is asked, reports that blocks were cut off, and no command notes it: behind its
output it leaves its events and nothing else. Over HTTP this is so for every framework that does
what is documented of it. -/
theorem blueprints_never_truncated :
    (∀ (limits : Limits) (document : Json) (ledger l : Ledger) (blocks : List Block)
      (layout : Layout), dispatch limits document ledger = .ok (blocks, layout) l →
      (blocks.length : Int) ≤ max 0 limits.maxBlocks ∧
      expandDocument limits document ledger =
        .ok { blocks, truncatedFrom := none, layout := some layout } l) ∧
    (∀ (limits : Limits) (document : Json) (ledger l : Ledger) (b : Blueprint),
      expandDocument limits document ledger = .ok b l → b.truncatedFrom = none ∧
      ∃ layout, dispatch limits document ledger = .ok (b.blocks, layout) l) ∧
    (∀ (limits : Limits) (text : List Char) (ledger l : Ledger) (b : Blueprint),
      expandText limits text ledger = .ok b l → b.truncatedFrom = none ∧
      ∃ document layout, Document.decode text = .ok document ∧
        dispatch limits document ledger = .ok (b.blocks, layout) l) ∧
    (∀ (service : Service) (request : ExpandRequest) (b : Blueprint) (version : String),
      (service.expand request).2 = .blueprint b version → b.truncatedFrom = none) ∧
    (∀ framework : Http.Framework, framework.Documented →
      ∀ (service : Service) (request : Http.Request) (status : Nat) (body : Json),
      (framework.handle service request).2 = .ok (.json status body) →
      body.field "truncated_from" = .null) ∧
    (∀ (env : Environment) (read : FileReader) (arguments : List String)
      (invocation : CommandLine.Invocation),
      CommandLine.Invocation.parse arguments = .ok invocation →
      let console := (invocation.command.execute env read).console
      console.notes = [] ∧ (CommandLine.Outcome.of env read arguments).diagnostics =
        CommandLine.textOfLines ((console.ledger.journal.filter
          (CommandLine.isShown invocation.verbose)).map CommandLine.eventLine)) := by
  refine ⟨?_, ?_, ?_, ?_, ?_, ?_⟩
  · intro limits document ledger l blocks layout h
    have hlength := length_dispatch h
    exact ⟨by omega, expandDocument_of_dispatch h⟩
  · intro limits document ledger l b h
    exact dispatch_of_expandDocument h
  · intro limits text ledger l b h
    exact dispatch_of_expandText h
  · intro service request b version h
    have hwhole := service.isWhole_expand request
    rw [h] at hwhole
    exact hwhole
  · intro framework hf service request status body h
    exact Http.Framework.isWhole_handle hf h
  · intro env read arguments invocation h
    rw [CommandLine.outcome_of_parse h]
    exact ⟨CommandLine.notes_console env read invocation.command,
      CommandLine.diagnostics_outcome env read invocation.command invocation.verbose⟩

/-- The text of a program that places ten blocks. -/
def tenBlocks : String :=
  "\x7b\"steps\": [\x7b\"op\": \"for\", \"var\": \"i\", \"from\": 0, \"to\": 9, \"steps\": " ++
    "[\x7b\"op\": \"place\", \"x\": \"i\", \"y\": 0, \"z\": 0, \"blockType\": \"a\"\x7d]\x7d]\x7d"

theorem blueprints_never_truncated_ten :
    let limits : Limits := { maxBlocks := 2 }
    let service : Service := { ledger := quarry, limits }
    let request : ExpandRequest := { submission := .text tenBlocks }
    let read : FileReader := fun _ => .ok (Text.asciiBytes tenBlocks.toList)
    (∃ b l document layout, expandText limits tenBlocks.toList quarry = .ok b l ∧
      dispatch limits document quarry = .ok (b.blocks, layout) l ∧
      expandDocument limits document quarry = .ok ⟨b.blocks, none, some layout⟩ l ∧
      b.blocks = [⟨0, 0, 0, "minecraft:a"⟩, ⟨1, 0, 0, "minecraft:a"⟩] ∧
      (b.blocks.length : Int) ≤ max 0 limits.maxBlocks ∧ b.truncatedFrom = none) ∧
    (∃ b version, (service.expand request).2 = .blueprint b version ∧ b.truncatedFrom = none) ∧
    (∃ status body,
      (Http.Framework.standard.handle service
        (Http.textRequest "/api/v1/blueprints/expand" tenBlocks)).2 = .ok (.json status body) ∧
      body.field "truncated_from" = .null) ∧
    ((CommandLine.Command.expand "ten.json" none (some (-1)) none).execute [] read).console.notes =
      [] := by
  intro limits service request read
  have hexpand : expandText limits tenBlocks.toList quarry =
      .ok ⟨[⟨0, 0, 0, "minecraft:a"⟩, ⟨1, 0, 0, "minecraft:a"⟩], none, some .program⟩
        { store := quarry.store, journal := [.programRun 2 3 0] } := by decide +kernel
  have hinvocation : CommandLine.Invocation.parse ["expand", "ten.json", "--max-blocks", "-1"] =
      .ok { command := .expand "ten.json" none (some (-1)) none } :=
    toOption_eq_some.mp (by decide +kernel)
  have hposted : (Http.Framework.standard.handle service
      (Http.textRequest "/api/v1/blueprints/expand" tenBlocks)).2 =
        Http.Framework.standard.send (.ofReply (service.expand request).2) :=
    congrArg Prod.snd (Http.Framework.handle_of_call (Http.receive_textRequest tenBlocks).1
      (Http.answer_expand service request))
  obtain ⟨hblocks, hdocument, htext, hreply, hanswer, hcommand⟩ := blueprints_never_truncated
  obtain ⟨-, document, layout, hdecode, hdispatch⟩ := htext _ _ _ _ _ hexpand
  obtain ⟨hlength, hd⟩ := hblocks _ _ _ _ _ _ hdispatch
  have hsubmission : (Submission.text tenBlocks).decode = .ok document := by
    rw [Submission.decode, hdecode]
    rfl
  have hblueprint := reply_of_decode hsubmission service none
  rw [show service.limitsFor { submission := .text tenBlocks } = limits from rfl, hd] at hblueprint
  exact ⟨⟨_, _, document, layout, hexpand, hdispatch, hd, rfl, hlength, (hdocument _ _ _ _ _ hd).1⟩,
    ⟨_, _, hblueprint, hreply _ _ _ _ hblueprint⟩,
    ⟨_, _, hposted, hanswer _ Http.Framework.documented_standard _ _ _ _ hposted⟩,
    (hcommand [] read _ _ hinvocation).1⟩

end VoxelBlueprint
