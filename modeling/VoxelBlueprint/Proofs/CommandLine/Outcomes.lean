/-
# How the commands on documents end

Whatever is printed and noted on the way, the command to expand a document prints its blocks and
ends with status 0, or ends with a status that tells a runaway program from any other rejection.
The command to validate one ends with status 0 if nothing is wrong with the document.

Key definitions: `CommandLine.startLedger`, `CommandLine.Holds`.
Key theorems: `CommandLine.readListing_apply`, `CommandLine.install_apply`,
`CommandLine.expandFile_some`, `CommandLine.outcome_expand`, `CommandLine.ending_validate`.
-/
import VoxelBlueprint.CommandLine.Outcome
import VoxelBlueprint.Proofs.Effects

namespace VoxelBlueprint

/-- The status with which a rejection ends the command to expand a document. -/
def Rejection.status : Rejection → Nat
  | .runaway _ _ => 2
  | _ => 1

namespace CommandLine

open Effects

/-- The ledger with which a document is expanded: with the catalog of the file that is named, if
there is one, or else with the palette. -/
def startLedger (read : FileReader) (catalog : Option String) : Except Failure Ledger :=
  match catalog with
  | none | some "" => .ok {}
  | some file => Service.loadLedger {} read file

/-- Whether a file is the UTF-8 of a text. -/
def Holds (read : FileReader) (file : String) (text : List Char) : Prop :=
  ∃ bytes, read file = .ok bytes ∧ Text.Utf8.decode bytes = .ok text

section Endings

variable {job : Job Unit} {verbose : Bool} {c : Console}

theorem ending_of_ok (h : job {} = .ok ⟨⟩ c) : (job.outcome verbose).ending = .exit 0 := by
  rw [Job.outcome, h]

theorem ending_of_error {ending : Ending} (h : job {} = .error ending c) :
    (job.outcome verbose).ending = ending := by
  rw [Job.outcome, h]

theorem output_of_ok (h : job {} = .ok ⟨⟩ c) :
    (job.outcome verbose).output = textOfLines c.lines := by
  rw [Job.outcome, h]

theorem output_of_error {ending : Ending} (h : job {} = .error ending c) :
    (job.outcome verbose).output = textOfLines c.lines := by
  rw [Job.outcome, h]

/-- What is printed and noted for arguments is that of the command that they name. -/
theorem outcome_of_parse {env : Environment} {read : FileReader} {arguments : List String}
    {invocation : Invocation} (h : Invocation.parse arguments = .ok invocation) :
    Outcome.of env read arguments =
      (invocation.command.execute env read).outcome invocation.verbose := by
  rw [Outcome.of, h]

end Endings

section Files

variable {read : FileReader} {file : String} {text : List Char}

theorem readResponse_of_holds (h : Holds read file text) :
    readResponse read file = pure (Text.unifyNewlines text) := by
  obtain ⟨bytes, hread, hdecode⟩ := h
  have ht : readText read file = .ok (Text.unifyNewlines text) := by
    unfold readText
    rw [hread]
    show (do
      let text ← (Text.Utf8.decode bytes).mapError Failure.encoding
      return Text.unifyNewlines text : Except Failure (List Char)) = _
    rw [hdecode]
    rfl
  unfold readResponse
  rw [ht]

theorem readListing_apply (read : FileReader) (file : String) (c : Console) :
    readListing read file c =
      match Catalog.Listing.ofFile read file with
      | .ok listing => .ok listing c
      | .error (.catalog fault) =>
        .error (.exit 1) { c with lines := c.lines ++ [s!"Error: {fault.message}"] }
      | .error failure => .error (.failed failure) c := by
  unfold readListing
  cases Catalog.Listing.ofFile read file with
  | ok listing => rfl
  | error failure => cases failure <;> rfl

/-- What the listing of a file has is installed as the catalog, unless it is refused. -/
theorem install_apply (listing : Catalog.Listing) (c : Console) :
    install listing c =
      match c.ledger.replaceCatalog (listing.ids.map .str) (some listing.version)
        (some listing.source) with
      | .error (.catalog fault) => .ok (some fault) c
      | .error failure => .error (.failed failure) c
      | .ok ledger => .ok none { c with ledger } := by
  unfold install
  rw [get_bind_apply]
  cases c.ledger.replaceCatalog (listing.ids.map .str) (some listing.version)
    (some listing.source) with
  | ok ledger => rfl
  | error failure => cases failure <;> rfl

/-- The catalog of a file that can be loaded is installed. -/
theorem install_of_loadLedger {ledger : Ledger} (h : Service.loadLedger {} read file = .ok ledger) :
    ∃ listing, Catalog.Listing.ofFile read file = .ok listing ∧
      install listing {} = .ok none { ledger } := by
  obtain ⟨listing, hlisting, h⟩ := bind_eq_ok h
  refine ⟨listing, hlisting, ?_⟩
  rw [install_apply]
  dsimp only at h ⊢
  cases hr : ({} : Ledger).replaceCatalog (listing.ids.map .str) (some listing.version)
      (some listing.source) with
  | error fault => rw [hr] at h; cases h
  | ok l => rw [hr] at h; cases h; rfl

end Files

/-! ### Expansion -/

section Expand

variable {env : Environment} {read : FileReader} {file : String} {catalog : Option String}
  {maxBlocks : Option Int} {usual : Limits} {ledger : Ledger} {text : List Char}

/-- What is left of the expansion of a file when the catalog is there. -/
def expandHere (env : Environment) (read : FileReader) (file : String)
    (maxBlocks chunkSize : Option Int) : Job Unit := do
  let usual ← orFail (Settings.limits env)
  let limits := { usual with maxBlocks := maxBlocks.getD usual.maxBlocks }
  let b ← expandOrQuit limits (← readResponse read file)
  printBlueprint b chunkSize
  noteTruncation b

/-- A file that is named as the catalog is read and installed first. -/
theorem expandFile_some {name : String} (hname : name ≠ "") (chunkSize : Option Int)
    (c : Console) :
    expandFile env read file (some name) maxBlocks chunkSize c =
      match readListing read name c with
      | .error ending c => .error ending c
      | .ok listing c =>
        match install listing c with
        | .error ending c => .error ending c
        | .ok (some fault) c => .error (.failed (.catalog fault)) c
        | .ok none c => expandHere env read file maxBlocks chunkSize c := by
  have hfile : expandFile env read file (some name) maxBlocks chunkSize =
      readListing read name >>= fun listing => install listing >>= fun fault =>
        match fault with
        | some fault => throw (.failed (.catalog fault))
        | none => expandHere env read file maxBlocks chunkSize := by
    unfold expandFile
    split
    · cases ‹some name = none›
    · exact absurd (Option.some.inj ‹some name = some ""›) hname
    · rename_i h
      cases h
      refine bind_congr fun listing => bind_congr fun fault => ?_
      cases fault <;> rfl
  rw [hfile, bind_apply]
  cases readListing read name c with
  | error ending c => rfl
  | ok listing c =>
    dsimp only
    rw [bind_apply]
    cases install listing c with
    | error ending c => rfl
    | ok fault c => cases fault <;> rfl

theorem expandFile_of_startLedger (hl : startLedger read catalog = .ok ledger)
    (chunkSize : Option Int) :
    expandFile env read file catalog maxBlocks chunkSize {} =
      expandHere env read file maxBlocks chunkSize { ledger } := by
  unfold startLedger at hl
  split at hl
  · rw [← Except.ok.inj hl]
    rfl
  · rw [← Except.ok.inj hl]
    rfl
  · rename_i name hname
    obtain ⟨listing, hlisting, hinstall⟩ := install_of_loadLedger hl
    rw [expandFile_some hname, readListing_apply, hlisting]
    simp only [hinstall]

theorem noteTruncation_apply (b : Blueprint) (c : Console) :
    ∃ notes, noteTruncation b c = .ok ⟨⟩ { c with notes } := by
  unfold noteTruncation
  cases b.truncatedFrom <;> exact ⟨_, rfl⟩

theorem expandOrQuit_apply (limits : Limits) (text : List Char) (ledger : Ledger) :
    match expandText limits text ledger with
    | .ok b l => expandOrQuit limits text { ledger } = .ok b { ledger := l }
    | .error r _ => ∃ c, expandOrQuit limits text { ledger } = .error (.exit r.status) c := by
  unfold expandOrQuit
  rw [get_bind_apply]
  dsimp only
  cases expandText limits text ledger with
  | ok b l => rfl
  | error r l => cases r <;> exact ⟨_, rfl⟩

/-- **The command to expand a document prints its blocks or ends with the status of its
rejection.** -/
theorem outcome_expand (hl : startLedger read catalog = .ok ledger)
    (hlimits : Settings.limits env = .ok usual) (hfile : Holds read file text)
    (maxBlocks : Option Int) (verbose : Bool) :
    let outcome := ((Command.expand file catalog maxBlocks none).execute env read).outcome verbose
    match expandText { usual with maxBlocks := maxBlocks.getD usual.maxBlocks }
      (Text.unifyNewlines text) ledger with
    | .ok b _ => outcome.ending = .exit 0 ∧ outcome.output = b.toJson.indented ++ "\n"
    | .error r _ => outcome.ending = .exit r.status := by
  intro outcome
  have hjob : (Command.expand file catalog maxBlocks none).execute env read {} =
      (expandOrQuit { usual with maxBlocks := maxBlocks.getD usual.maxBlocks }
        (Text.unifyNewlines text) >>= fun b => printBlueprint b none >>= fun _ =>
          noteTruncation b) { ledger } := by
    refine (expandFile_of_startLedger hl none).trans ?_
    unfold expandHere
    rw [hlimits, readResponse_of_holds hfile]
    rfl
  have hquit := expandOrQuit_apply { usual with maxBlocks := maxBlocks.getD usual.maxBlocks }
    (Text.unifyNewlines text) ledger
  rw [bind_apply] at hjob
  cases hx : expandText { usual with maxBlocks := maxBlocks.getD usual.maxBlocks }
      (Text.unifyNewlines text) ledger with
  | ok b l =>
    rw [hx] at hquit
    dsimp only at hquit
    rw [hquit] at hjob
    have hprint : ∃ c, (Command.expand file catalog maxBlocks none).execute env read {} =
        .ok ⟨⟩ c ∧ c.lines = [b.toJson.indented] := by
      obtain ⟨notes, hnotes⟩ := noteTruncation_apply b
        { ledger := l, lines := [b.toJson.indented] }
      exact ⟨_, hjob.trans hnotes, rfl⟩
    obtain ⟨c, hc, hlines⟩ := hprint
    constructor
    · exact ending_of_ok hc
    · show (Job.outcome verbose _).output = _
      rw [Job.outcome, hc]
      dsimp only
      rw [hlines]
      simp [textOfLines]
  | error r l =>
    rw [hx] at hquit
    obtain ⟨c, hquit⟩ := hquit
    rw [hquit] at hjob
    exact ending_of_error hjob

end Expand

/-! ### Validation -/

/-- Whether nothing is found wrong with a document. -/
def FindsNothingWrong (document : Json) : Prop :=
  ∃ layout warnings, Service.findings document = .ok (.validation layout [] warnings)

theorem printList_apply (heading : String) (items : List String) (c : Console) :
    ∃ c', printList heading items c = .ok ⟨⟩ c' := by
  unfold printList
  split <;> exact ⟨_, rfl⟩

/-- What is found about a program is printed, and a defect ends the command with status 1. -/
theorem printFindings_apply (p : Program) (c : Console) :
    ∃ c', printFindings p c =
      if p.isValid then .ok ⟨⟩ c' else .error (.exit 1) c' := by
  obtain ⟨c₁, h₁⟩ := printList_apply "Warnings:" p.warningTexts
    { c with lines := c.lines ++ [s!"Defs: {p.definitions.length}"] ++
        [s!"Top-level steps: {p.steps.length}"] }
  obtain ⟨c₂, h₂⟩ := printList_apply "Errors:" p.errorTexts c₁
  have hlists : printFindings p c =
      (if p.isValid then print "" >>= fun _ => print "Valid"
        else throw (.exit 1) : Job Unit) c₂ := by
    unfold printFindings
    show (printList "Warnings:" p.warningTexts >>= _ : Job Unit) _ = _
    rw [bind_apply, h₁]
    show (printList "Errors:" p.errorTexts >>= _ : Job Unit) _ = _
    rw [bind_apply, h₂]
  rw [hlists]
  split <;> exact ⟨_, rfl⟩

/-- What the command does once the document is decoded. -/
def reportOn (document : Json) : Job Unit :=
  match programOf document with
  | .error malformation => quit s!"Error: {malformation.text}" 1
  | .ok none => quit s!"Error: {ShapeFault.noLayout.message}" 1
  | .ok (some none) => print "Legacy block list: nothing to validate"
  | .ok (some (some program)) => printFindings program

theorem reportOn_apply (document : Json) (c : Console) :
    (∃ c', reportOn document c = .ok ⟨⟩ c' ∧ FindsNothingWrong document) ∨
      ∃ c', reportOn document c = .error (.exit 1) c' ∧ ¬ FindsNothingWrong document := by
  unfold reportOn programOf FindsNothingWrong Service.findings
  cases hl : Layout.of document with
  | error m => exact .inr ⟨_, rfl, nofun⟩
  | ok layout =>
    cases layout with
    | none => exact .inr ⟨_, rfl, nofun⟩
    | some layout =>
      cases layout with
      | blockList => exact .inl ⟨_, rfl, _, _, rfl⟩
      | program =>
        cases hp : Program.read document with
        | error m => exact .inr ⟨_, rfl, nofun⟩
        | ok p =>
          obtain ⟨c', hc'⟩ := printFindings_apply p c
          have hnone : p.isValid = true ↔ p.errorTexts = [] := by
            rw [Program.isValid, Program.errorTexts, List.isEmpty_iff, List.map_eq_nil_iff]
          by_cases hv : p.isValid = true
          · rw [if_pos hv] at hc'
            refine .inl ⟨c', hc', some .program, p.warningTexts, ?_⟩
            rw [← hnone.mp hv]
            rfl
          · rw [if_neg hv] at hc'
            refine .inr ⟨c', hc', ?_⟩
            rintro ⟨layout, warnings, h⟩
            exact hv (hnone.mpr (Reply.validation.inj (Except.ok.inj h)).2.1)

theorem validateFile_of_holds {read : FileReader} {file : String} {text : List Char}
    (hfile : Holds read file text) : validateFile read file =
      match Document.decode (Text.unifyNewlines text) with
      | .error fault => quit s!"Error: {fault.message}" 1
      | .ok document => reportOn document := by
  unfold validateFile
  rw [readResponse_of_holds hfile, pure_bind]
  rfl

/-- **The command to validate a document ends with status 0 just if nothing is wrong with it.** -/
theorem ending_validate {env : Environment} {read : FileReader} {file : String} {text : List Char}
    (hfile : Holds read file text) (verbose : Bool) :
    (((Command.validate file).execute env read).outcome verbose).ending = .exit 0 ↔
      ∃ document, Document.decode (Text.unifyNewlines text) = .ok document ∧
        FindsNothingWrong document := by
  have hjob : (Command.validate file).execute env read {} = _ :=
    congrFun (validateFile_of_holds hfile) {}
  cases hd : Document.decode (Text.unifyNewlines text) with
  | error fault =>
    rw [hd] at hjob
    rw [ending_of_error (hjob.trans rfl)]
    exact iff_of_false nofun nofun
  | ok document =>
    rw [hd] at hjob
    rcases reportOn_apply document {} with ⟨c, hc, hnothing⟩ | ⟨c, hc, hsome⟩
    · rw [ending_of_ok (hjob.trans hc)]
      exact iff_of_true rfl ⟨document, rfl, hnothing⟩
    · rw [ending_of_error (hjob.trans hc)]
      refine iff_of_false nofun ?_
      rintro ⟨_, h, hnothing⟩
      cases h
      exact hsome hnothing

end CommandLine
end VoxelBlueprint
