/-
# Three ways to one verdict

The text of a document may be put to the program on the command line, to the service, or to the
service over HTTP. Each of them says in its own terms whether the document comes to blocks, runs
away, or is refused. With the same limits and the same ids in their catalogs they say the same,
also where the command line has unified the line ends of its file and the others have not. Of the
framework it is assumed that it finds the endpoints and sends what they answer.

Texts are made of whole characters here: an escape of half a character in a document is read as the
replacement character (`Text.Utf16.unitChar`), so nothing is said of documents with such escapes,
which could be held but not printed.

Key definitions: `Verdict`, `CommandLine.Outcome.Gives`, `Reply.Gives`, `Http.Response.Gives`.
Key theorems: `Service.expand_of_unifyNewlines`, `CommandLine.exists_verdict`,
`Service.surfaces_give_same_verdict`.
-/
import VoxelBlueprint.Proofs.CommandLine.Outcomes
import VoxelBlueprint.Proofs.Expansion.Diagnostics
import VoxelBlueprint.Proofs.Expansion.LineEnds
import VoxelBlueprint.Proofs.Expansion.Ranges
import VoxelBlueprint.Proofs.Http.Requests
import VoxelBlueprint.Proofs.Json.Texts
import VoxelBlueprint.Proofs.Service.Histories

namespace VoxelBlueprint

open Effects

/-- What becomes of a document, as far as every surface tells. -/
inductive Verdict where
  /-- It comes to these blocks. -/
  | built (blocks : List Block)
  | runaway
  | refused
  deriving DecidableEq, Repr

/-- What a rejection comes to. -/
def Rejection.verdict (r : Rejection) : Verdict :=
  if r.isRunaway then .runaway else .refused

/-! ### Blocks as JSON -/

theorem Block.toJson_injective {a b : Block} (h : a.toJson = b.toJson) : a = b := by
  obtain ⟨x, y, z, blockType⟩ := a
  obtain ⟨x', y', z', blockType'⟩ := b
  simp only [toJson, Json.obj.injEq, List.cons.injEq, Prod.mk.injEq, Json.int.injEq,
    Json.str.injEq, true_and, and_true] at h
  obtain ⟨rfl, rfl, rfl, rfl⟩ := h
  rfl

theorem Block.listToJson_injective {blocks blocks' : List Block}
    (h : listToJson blocks = listToJson blocks') : blocks = blocks' :=
  List.map_injective_iff.mpr (fun _ _ => toJson_injective) (Json.arr.inj h)

/-- A number that may circulate has no more digits than may be read. -/
theorem Expression.InRange.digits_le {n : Int} (h : InRange n) :
    (toString n.natAbs).length ≤ Numeral.maxDigits :=
  Json.length_toString_le (by decide) (Nat.lt_trans h (by decide +kernel))

theorem Block.InRange.writable {block : Block} (h : block.InRange) (depth : Nat) :
    Json.Writable (depth + 1) block.toJson := by
  refine .obj (by simp) ?_
  simp only [List.forall_mem_cons, List.not_mem_nil, false_imp_iff, implies_true, and_true]
  exact ⟨.int depth h.x.digits_le, .int depth h.y.digits_le, .int depth h.z.digits_le,
    .str depth _⟩

/-- Blocks in range are written so that they can be read back. -/
theorem Blueprint.writable_toJson {b : Blueprint} (h : ∀ block ∈ b.blocks, block.InRange) :
    Json.Writable Json.Reader.maxNesting b.toJson := by
  refine .obj (by simp) (List.forall_mem_singleton.mpr (.arr fun item hitem => ?_))
  obtain ⟨block, hblock, rfl⟩ := List.mem_map.mp hitem
  exact (h block hblock).writable _

/-! ### What each surface says -/

/-- Whether an output prints blocks: it is their indented JSON on lines of its own, and read back
as that. -/
def CommandLine.Prints (output : String) (blocks : List Block) : Prop :=
  output = (Json.obj [("blocks", Block.listToJson blocks)]).indented ++ "\n" ∧
    Json.read output.toList = .ok (.obj [("blocks", Block.listToJson blocks)])

/-- Whether the outcome of the command to expand a document is that of a verdict. -/
inductive CommandLine.Outcome.Gives : Outcome → Verdict → Prop
  | built {output diagnostics : String} {blocks : List Block} (h : Prints output blocks) :
    Gives ⟨output, diagnostics, .exit 0⟩ (.built blocks)
  | runaway (output diagnostics : String) : Gives ⟨output, diagnostics, .exit 2⟩ .runaway
  | refused (output diagnostics : String) : Gives ⟨output, diagnostics, .exit 1⟩ .refused

/-- Whether the reply of the service is that of a verdict. -/
inductive Reply.Gives : Reply → Verdict → Prop
  | built (b : Blueprint) (version : String) : Gives (.blueprint b version) (.built b.blocks)
  | runaway {r : Rejection} (h : r.code = .runawayProgram) : Gives (.rejected r) .runaway
  | refused {r : Rejection} (h : r.code = .invalidDocument ∨ r.code = .invalidExpression) :
    Gives (.rejected r) .refused

/-- Whether an answer over HTTP is that of a verdict. -/
inductive Http.Response.Gives : Response → Verdict → Prop
  | built {body : Json} {blocks : List Block}
    (h : body.field? "blocks" = some (Block.listToJson blocks)) :
    Gives (.json 200 body) (.built blocks)
  | runaway {body : Json} (h : body.field? "error_code" = some (.str "RUNAWAY_PROGRAM")) :
    Gives (.json 422 body) .runaway
  | refused (body : Json) : Gives (.json 400 body) .refused

section Unique

variable {v v' : Verdict}

theorem CommandLine.Outcome.Gives.unique {outcome : Outcome} (h : outcome.Gives v)
    (h' : outcome.Gives v') : v = v' := by
  cases h with
  | built hp =>
    cases h' with
    | built hp' =>
      have hread := hp.2.symm.trans hp'.2
      simp only [Except.ok.injEq, Json.obj.injEq, List.cons.injEq, Prod.mk.injEq, true_and,
        and_true] at hread
      rw [Block.listToJson_injective hread]
  | runaway => cases h'; rfl
  | refused => cases h'; rfl

theorem Reply.Gives.unique {reply : Reply} (h : reply.Gives v) (h' : reply.Gives v') : v = v' := by
  cases h with
  | built b version => cases h'; rfl
  | runaway hr =>
    cases h' with
    | runaway => rfl
    | refused hr' => simp [hr] at hr'
  | refused hr =>
    cases h' with
    | runaway hr' => simp [hr'] at hr
    | refused => rfl

theorem Http.Response.Gives.unique {response : Response} (h : response.Gives v)
    (h' : response.Gives v') : v = v' := by
  cases h with
  | built hb =>
    cases h' with
    | built hb' => rw [Block.listToJson_injective (Option.some.inj (hb.symm.trans hb'))]
  | runaway => cases h'; rfl
  | refused => cases h'; rfl

/-- What the service replies is answered over HTTP. -/
theorem Reply.Gives.ofReply {reply : Reply} (h : reply.Gives v) :
    (Http.Answer.ofReply reply).toResponse.Gives v := by
  cases h with
  | built b version => exact .built rfl
  | @runaway r hr =>
    cases r with
    | runaway ceiling limit => exact .runaway rfl
    | _ => cases hr
  | @refused r hr =>
    cases r with
    | runaway ceiling limit => simp [Rejection.code] at hr
    | _ => exact .refused _

/-- The code of a rejection is that of its verdict. -/
theorem Rejection.gives (r : Rejection) : (Reply.rejected r).Gives r.verdict := by
  cases r with
  | malformed m => exact .refused (.inl rfl)
  | undecodable fault => exact .refused (.inl rfl)
  | unevaluable fault path text => exact .refused (.inr rfl)
  | runaway ceiling limit => exact .runaway rfl

/-- The status of a rejection is that of its verdict. -/
theorem CommandLine.Outcome.gives_of_status {outcome : Outcome} {r : Rejection}
    (h : outcome.ending = .exit r.status) : outcome.Gives r.verdict := by
  obtain ⟨output, diagnostics, ending⟩ := outcome
  dsimp only at h
  rw [h]
  cases r with
  | runaway ceiling limit => exact .runaway output diagnostics
  | _ => exact .refused output diagnostics

/-- Blocks that are printed as they should be can be read from the output. -/
theorem CommandLine.Outcome.gives_of_output {outcome : Outcome} {b : Blueprint}
    (hr : ∀ block ∈ b.blocks, block.InRange) (he : outcome.ending = .exit 0)
    (ho : outcome.output = b.toJson.indented ++ "\n") : outcome.Gives (.built b.blocks) := by
  obtain ⟨output, diagnostics, ending⟩ := outcome
  dsimp only at he ho
  rw [he]
  refine .built ⟨ho, ?_⟩
  rw [ho, String.toList_append]
  exact Json.read_indented (Blueprint.writable_toJson hr) _ (List.all_eq_true.mp (by decide))

end Unique

/-! ### Agreement -/

/-- A text is decoded to a document just if it is so with its line ends unified. -/
theorem Document.decode_unifyNewlines_eq_ok {text : List Char} {document : Json} :
    decode (Text.unifyNewlines text) = .ok document ↔ decode text = .ok document := by
  rw [← toOption_eq_some, ← toOption_eq_some, decode_unifyNewlines]

/-- A text that is submitted is decoded as it is. -/
theorem Submission.decode_text (text : List Char) :
    (Submission.text (String.ofList text)).decode =
      (Document.decode text).mapError .undecodable := by
  rw [decode, String.toList_ofList]

/-- What a file comes to with its line ends unified, the service makes of its text as it is. -/
theorem Service.expand_of_unifyNewlines {service : Service} {ledger : Ledger}
    (hids : ledger.store.current.ids = service.snapshot.ids) (text : List Char) :
    let reply := (service.expand { submission := .text (String.ofList text) }).2
    match expandText service.limits (Text.unifyNewlines text) ledger with
    | .ok b _ => reply.Gives (.built b.blocks) ∧ ∀ block ∈ b.blocks, block.InRange
    | .error r _ => reply.Gives r.verdict := by
  intro reply
  have hdecode := Submission.decode_text text
  rw [expandText_apply]
  cases hd : Document.decode text with
  | error fault =>
    cases hd' : Document.decode (Text.unifyNewlines text) with
    | ok document =>
      rw [Document.decode_unifyNewlines_eq_ok.mp hd'] at hd
      cases hd
    | error fault' =>
      have hreply : reply = .rejected (.undecodable fault) := by
        rw [hd] at hdecode
        show (expand service _).2 = _
        unfold expand
        rw [expandSubmission, ofExcept_bind_apply, hdecode]
        rfl
      rw [hreply]
      exact .refused (.inl rfl)
  | ok document =>
    rw [Document.decode_unifyNewlines_eq_ok.mpr hd]
    rw [hd] at hdecode
    have hreply : reply = _ := reply_of_decode hdecode service none
    have hlimits : service.limitsFor { submission := .text (String.ofList text) } =
        service.limits := rfl
    rcases expandDocument_meets_demands service.limits document with
      ⟨r, h⟩ | ⟨demands, layout, truncatedFrom, h⟩
    · obtain ⟨l, hl⟩ := h ledger
      obtain ⟨l', hl'⟩ := h service.ledger
      rw [hlimits, hl'] at hreply
      simp only [hl]
      rw [hreply]
      exact r.gives
    · obtain ⟨l, hl⟩ := h ledger
      obtain ⟨l', hl'⟩ := h service.ledger
      have hrange := (blockLaw_inRange service.limits).expandDocument document ledger
      rw [hlimits, hl'] at hreply
      rw [hl] at hrange
      simp only [hl]
      refine ⟨?_, hrange.2⟩
      have hblocks : demands.map (·.blockIn ledger.store.current) =
          demands.map (·.blockIn service.ledger.store.current) :=
        List.map_congr_left fun d _ => d.blockIn_of_ids hids
      rw [hreply, hblocks]
      exact .built _ _

/-- Whether a program on the command line works under the same terms as a service: with the same
limits, and with a catalog of the same ids. -/
structure CommandLine.SameTerms (env : Environment) (read : FileReader) (catalog : Option String)
    (maxBlocks : Option Int) (service : Service) : Prop where
  limits : ∃ usual, Settings.limits env = .ok usual ∧
    service.limits = { usual with maxBlocks := maxBlocks.getD usual.maxBlocks }
  catalog : ∃ ledger, startLedger read catalog = .ok ledger ∧
    ledger.store.current.ids = service.snapshot.ids

/-- The service answers to validate with what is found about the document. -/
theorem Service.validate_of_decode {request : ExpandRequest} {document : Json}
    (h : request.submission.decode = .ok document) :
    validate request =
      match findings document with
      | .ok reply => reply
      | .error rejection => .rejected rejection := by
  unfold validate
  rw [h]
  rfl

/-- The service validates a text if nothing is wrong with the document that it holds. -/
theorem Service.validate_text {text : List Char} :
    (∃ layout warnings, validate { submission := .text (String.ofList text) } =
        .validation layout [] warnings) ↔
      ∃ document, Document.decode text = .ok document ∧
        CommandLine.FindsNothingWrong document := by
  have hdecode := Submission.decode_text text
  cases hd : Document.decode text with
  | error fault =>
    have hv : validate { submission := .text (String.ofList text) } =
        .rejected (.undecodable fault) := by
      unfold validate
      dsimp only
      rw [hdecode, hd]
      rfl
    rw [hv]
    exact iff_of_false nofun nofun
  | ok document =>
    have hv : ∀ reply, validate { submission := .text (String.ofList text) } = reply ↔
        findings document = .ok reply ∨ ∃ r, findings document = .error r ∧
          reply = .rejected r := by
      intro reply
      rw [Service.validate_of_decode (hdecode.trans (by rw [hd]; rfl))]
      cases findings document <;> simp [eq_comm]
    constructor
    · rintro ⟨layout, warnings, h⟩
      rcases (hv _).mp h with h | ⟨r, -, h⟩
      · exact ⟨document, rfl, layout, warnings, h⟩
      · cases h
    · rintro ⟨_, h, layout, warnings, hf⟩
      cases h
      exact ⟨layout, warnings, (hv _).mpr (.inl hf)⟩

/-- A reply that nothing is wrong with a document is told from all others over HTTP. -/
theorem Reply.ofReply_valid (reply : Reply) :
    (∃ body, (Http.Answer.ofReply reply).toResponse = .json 200 body ∧
        body.field? "valid" = some (.bool true)) ↔
      ∃ layout warnings, reply = .validation layout [] warnings := by
  cases reply with
  | validation layout errors warnings =>
    cases errors with
    | nil => exact iff_of_true ⟨_, rfl, rfl⟩ ⟨_, _, rfl⟩
    | cons error errors =>
      refine iff_of_false ?_ nofun
      rintro ⟨_, h, hv⟩
      cases h
      cases hv
  | rejected r =>
    refine iff_of_false ?_ nofun
    rintro ⟨_, h, hv⟩
    cases r <;> cases h
  | catalogRefused fault =>
    refine iff_of_false ?_ nofun
    rintro ⟨_, h, hv⟩
    cases h
  | blueprint | catalog =>
    refine iff_of_false ?_ nofun
    rintro ⟨_, h, hv⟩
    cases h
    cases hv

namespace CommandLine

variable {env : Environment} {read : FileReader} {catalog : Option String}
  {maxBlocks : Option Int} {service : Service} {file : String} {text : List Char}

/-- The command to expand a file and the service come to one verdict on its text. -/
theorem exists_verdict (hterms : SameTerms env read catalog maxBlocks service)
    (hfile : Holds read file text) (verbose : Bool) :
    ∃ verdict,
      (((Command.expand file catalog maxBlocks none).execute env read).outcome verbose).Gives
          verdict ∧
        (service.expand { submission := .text (String.ofList text) }).2.Gives verdict := by
  obtain ⟨⟨usual, husual, hlimits⟩, ledger, hledger, hids⟩ := hterms
  have hcommand := outcome_expand hledger husual hfile maxBlocks verbose
  have hexpand := Service.expand_of_unifyNewlines hids text
  rw [hlimits] at hexpand
  cases hx : expandText { usual with maxBlocks := maxBlocks.getD usual.maxBlocks }
      (Text.unifyNewlines text) ledger with
  | ok b l =>
    rw [hx] at hexpand hcommand
    obtain ⟨hgives, hrange⟩ := hexpand
    obtain ⟨hending, houtput⟩ := hcommand
    exact ⟨.built b.blocks, Outcome.gives_of_output hrange hending houtput, hgives⟩
  | error r l =>
    rw [hx] at hexpand hcommand
    exact ⟨r.verdict, Outcome.gives_of_status hcommand, hexpand⟩

/-- The command to validate a file and the service find the same texts valid. -/
theorem ending_validate_iff (hfile : Holds read file text) (verbose : Bool) :
    (((Command.validate file).execute env read).outcome verbose).ending = .exit 0 ↔
      ∃ layout warnings, Service.validate { submission := .text (String.ofList text) } =
        .validation layout [] warnings := by
  rw [ending_validate hfile verbose, Service.validate_text]
  simp only [Document.decode_unifyNewlines_eq_ok]

end CommandLine

namespace Service

/-- **The command line, the service and HTTP give the same verdict.** The command line and the
service work under the same terms, a file is the UTF-8 of a text, and of two requests one comes to
a call to expand this text and the other to a call to validate it, in a framework that sends every
answer. Then

* the command to expand the file, the service and HTTP each give a verdict on the text, and the
  same one: they have it come to the same blocks, or run away, or be refused;
* the command to validate the file ends with status 0 just if the service finds nothing wrong with
  the text, and just if it is said over HTTP to be valid.

There is no chunk size and no ceiling for the one request. The command line has the line ends of
the file unified and the service takes the text as it is. -/
theorem surfaces_give_same_verdict {env : Environment} {read : FileReader}
    {catalog : Option String} {maxBlocks : Option Int} {service : Service}
    (hterms : CommandLine.SameTerms env read catalog maxBlocks service) {file : String}
    {text : List Char} (hfile : CommandLine.Holds read file text)
    {arguments checking : List String} {verbose verbose' : Bool}
    (harguments : CommandLine.Invocation.parse arguments =
      .ok { command := .expand file catalog maxBlocks none, verbose })
    (hchecking : CommandLine.Invocation.parse checking =
      .ok { command := .validate file, verbose := verbose' })
    {framework : Http.Framework} (hsend : ∀ answer, framework.send answer = .ok answer.toResponse)
    {posted checked : Http.Request}
    (hposted : framework.receive posted =
      .ok (.call (.expand { submission := .text (String.ofList text) })))
    (hchecked : framework.receive checked =
      .ok (.call (.validate { submission := .text (String.ofList text) }))) :
    let request : ExpandRequest := { submission := .text (String.ofList text) }
    let outcome := CommandLine.Outcome.of env read arguments
    let reply := (service.expand request).2
    (∃ response, (framework.handle service posted).2 = .ok response ∧
      (∃ verdict, outcome.Gives verdict) ∧
      ∀ verdict, (outcome.Gives verdict ↔ reply.Gives verdict) ∧
        (reply.Gives verdict ↔ response.Gives verdict)) ∧
    ((CommandLine.Outcome.of env read checking).ending = .exit 0 ↔
      ∃ layout warnings, validate request = .validation layout [] warnings) ∧
    ((CommandLine.Outcome.of env read checking).ending = .exit 0 ↔
      ∃ body, (framework.handle service checked).2 = .ok (.json 200 body) ∧
        body.field? "valid" = some (.bool true)) := by
  intro request outcome reply
  obtain ⟨verdict, hout, hreply⟩ := CommandLine.exists_verdict hterms hfile verbose
  have houtcome : outcome.Gives verdict := by
    show (CommandLine.Outcome.of env read arguments).Gives verdict
    rwa [CommandLine.Outcome.of, harguments]
  have hresponse : (Http.Answer.ofReply reply).toResponse.Gives verdict := hreply.ofReply
  have hanswer : (framework.handle service posted).2 =
      .ok (Http.Answer.ofReply reply).toResponse := by
    rw [Http.Framework.handle_of_call hposted (Http.answer_expand service request)]
    exact hsend _
  have hanswer' : (framework.handle service checked).2 =
      .ok (Http.Answer.ofReply (validate request)).toResponse := by
    rw [Http.Framework.handle_of_call hchecked (Http.answer_validate service request)]
    exact hsend _
  have hending : (CommandLine.Outcome.of env read checking).ending = .exit 0 ↔
      ∃ layout warnings, validate request = .validation layout [] warnings := by
    rw [CommandLine.Outcome.of, hchecking]
    exact CommandLine.ending_validate_iff hfile verbose'
  refine ⟨⟨_, hanswer, ⟨verdict, houtcome⟩, fun v => ?_⟩, hending, ?_⟩
  · -- each surface gives no more than the one verdict
    have hv₁ : outcome.Gives v ↔ v = verdict :=
      ⟨fun h => h.unique houtcome, fun h => h ▸ houtcome⟩
    have hv₂ : reply.Gives v ↔ v = verdict := ⟨fun h => h.unique hreply, fun h => h ▸ hreply⟩
    have hv₃ : (Http.Answer.ofReply reply).toResponse.Gives v ↔ v = verdict :=
      ⟨fun h => h.unique hresponse, fun h => h ▸ hresponse⟩
    exact ⟨hv₁.trans hv₂.symm, hv₂.trans hv₃.symm⟩
  · rw [hending, ← Reply.ofReply_valid]
    simp only [hanswer', Except.ok.injEq]

end Service
end VoxelBlueprint
