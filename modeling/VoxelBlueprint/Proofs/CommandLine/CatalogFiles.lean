/-
# What two commands make of a catalog file

A catalog file may be summarized, and a document may be expanded with it. A file that is not read
as a list of ids is refused by both commands in the same words and with the same status, and what
is no fault of the file is passed on by both. A file that is accepted is summarized as the very
snapshot with which the document is expanded. They part over a file that lists ids of which none
is usable: the command to summarize it refuses it like the others, and the command to expand with
it ends in a failure.

Key definitions: `Catalog.ListsNothingUsable`, `CommandLine.summaryLines`.
Key theorems: `CommandLine.catalog_apply`, `CommandLine.expand_apply`,
`CommandLine.commands_agree_on_catalog`.
-/
import VoxelBlueprint.Proofs.Catalog.Files
import VoxelBlueprint.Proofs.CommandLine.Outcomes

namespace VoxelBlueprint

open Effects

/-- Whether a file lists ids, all of which are nothing but the namespace when they are made
canonical. -/
def Catalog.ListsNothingUsable (read : FileReader) (file : String) : Prop :=
  ∃ listing, Listing.ofFile read file = .ok listing ∧
    ∀ id ∈ listing.ids, canonical (.str id) = namespaceText

namespace CommandLine

/-- The lines that summarize a snapshot. -/
def summaryLines (snapshot : Catalog.Snapshot) : List String :=
  [s!"Version: {snapshot.version}", s!"Source: {snapshot.source}",
   s!"Block types: {snapshot.ids.length}", s!"Fallback: {snapshot.fallback}"]

section Jobs

variable {env : Environment} {read : FileReader} {file response : String}
  {maxBlocks chunkSize : Option Int} {ledger : Ledger}

/-! ### How the two commands end -/

/-- The command to summarize a catalog file refuses every fault of the file in the same way,
whether it shows when the file is read or when its ids are made canonical. -/
theorem catalog_apply (env : Environment) (read : FileReader) (file : String) :
    (Command.catalog file).execute env read {} =
      match Service.loadLedger {} read file with
      | .ok ledger => .ok ⟨⟩ { ledger, lines := summaryLines ledger.store.current }
      | .error (.catalog fault) => .error (.exit 1) { lines := [s!"Error: {fault.message}"] }
      | .error failure => .error (.failed failure) {} := by
  show summarizeCatalog read file {} = _
  unfold summarizeCatalog
  rw [bind_apply, readListing_apply, Service.loadLedger_apply]
  cases Catalog.Listing.ofFile read file with
  | error failure => cases failure <;> rfl
  | ok listing =>
    dsimp only
    rw [bind_apply, install_apply]
    dsimp only
    cases Ledger.replaceCatalog {} (listing.ids.map .str) (some listing.version)
      (some listing.source) with
    | ok ledger => rfl
    | error failure => cases failure <;> rfl

/-- The command to expand a document refuses a fault of the catalog file that shows when the file
is read, and passes on one that shows when its ids are made canonical. -/
theorem expand_apply (hname : file ≠ "") :
    (Command.expand response (some file) maxBlocks chunkSize).execute env read {} =
      match Catalog.Listing.ofFile read file, Service.loadLedger {} read file with
      | .ok _, .ok ledger => expandHere env read response maxBlocks chunkSize { ledger }
      | .ok _, .error failure => .error (.failed failure) {}
      | .error (.catalog fault), _ => .error (.exit 1) { lines := [s!"Error: {fault.message}"] }
      | .error failure, _ => .error (.failed failure) {} := by
  show expandFile env read response (some file) maxBlocks chunkSize {} = _
  rw [expandFile_some hname, readListing_apply, Service.loadLedger_apply]
  cases Catalog.Listing.ofFile read file with
  | error failure => cases failure <;> rfl
  | ok listing =>
    dsimp only
    rw [install_apply]
    dsimp only
    cases Ledger.replaceCatalog {} (listing.ids.map .str) (some listing.version)
      (some listing.source) with
    | ok ledger => rfl
    | error failure => cases failure <;> rfl

/-- The ids of a file cannot be installed just if none of them is usable. -/
theorem loadLedger_of_listing {listing : Catalog.Listing}
    (h : Catalog.Listing.ofFile read file = .ok listing) :
    (Catalog.ListsNothingUsable read file ∧
        Service.loadLedger {} read file = .error (.catalog .empty)) ∨
      ¬ Catalog.ListsNothingUsable read file ∧
        ∃ ledger, Service.loadLedger {} read file = .ok ledger := by
  have hprefixed := (Catalog.Listing.ofFile_ok h).2.1.prefixed
  have hnothing : Catalog.ListsNothingUsable read file ↔
      Catalog.usableIds (listing.ids.map .str) = [] := by
    rw [Catalog.usableIds_eq_nil hprefixed]
    constructor
    · rintro ⟨l, hl, hids⟩
      rwa [Except.ok.inj (h.symm.trans hl)]
    · exact fun hids => ⟨listing, h, hids⟩
  rw [hnothing, Service.loadLedger_apply, h]
  dsimp only
  rw [Ledger.replaceCatalog_apply _ _ _ (Json.hasText_strings listing.ids)]
  by_cases hids : Catalog.usableIds (listing.ids.map .str) = []
  · rw [if_pos hids]
    exact .inl ⟨hids, rfl⟩
  · rw [if_neg hids]
    exact .inr ⟨hids, _, rfl⟩

/-- A file that has no listing lists nothing. -/
theorem not_listsNothingUsable {failure : Failure}
    (h : Catalog.Listing.ofFile read file = .error failure) :
    ¬ Catalog.ListsNothingUsable read file := by
  rintro ⟨listing, hl, -⟩
  cases h.symm.trans hl

end Jobs

/-! ### Agreement -/

/-- **Two commands accept the same catalog files, and refuse them alike unless nothing in them is
usable.** One command summarizes a file, and another expands a document with the file as its
catalog. Then

* if the first one ends with status 1, it prints what is wrong with the file, and the second one
  prints the same and ends with the same status just if the file does not list ids of which none
  is usable;
* if the file lists such ids, the first one ends with status 1 and prints that, whereas the second
  one prints nothing and ends in a failure;
* if the first one ends with status 0, it prints the summary of a snapshot, and the second one does
  what it does without a file when this snapshot is the catalog from the start;
* if the first one ends in a failure, so does the second one. -/
theorem commands_agree_on_catalog (env : Environment) (read : FileReader) {file response : String}
    {maxBlocks chunkSize : Option Int} {summarizing expanding : List String}
    {verbose verbose' : Bool} (hname : file ≠ "")
    (hsummarizing : Invocation.parse summarizing = .ok { command := .catalog file, verbose })
    (hexpanding : Invocation.parse expanding =
      .ok { command := .expand response (some file) maxBlocks chunkSize, verbose := verbose' }) :
    let summary := Outcome.of env read summarizing
    let expansion := Outcome.of env read expanding
    (summary.ending = .exit 1 →
      (∃ fault : CatalogFault, summary.output = textOfLines [s!"Error: {fault.message}"]) ∧
      ((expansion.output = summary.output ∧ expansion.ending = .exit 1) ↔
        ¬ Catalog.ListsNothingUsable read file)) ∧
    (Catalog.ListsNothingUsable read file →
      (summary.output = "Error: block catalog is empty\n" ∧ summary.ending = .exit 1) ∧
      expansion.output = "" ∧ expansion.ending = .failed (.catalog .empty)) ∧
    (summary.ending = .exit 0 → ∃ ledger,
      (Command.catalog file).execute env read {} =
        .ok ⟨⟩ { ledger, lines := summaryLines ledger.store.current } ∧
      summary.output = textOfLines (summaryLines ledger.store.current) ∧
      (Command.expand response (some file) maxBlocks chunkSize).execute env read {} =
        (Command.expand response none maxBlocks chunkSize).execute env read { ledger }) ∧
    (∀ failure, summary.ending = .failed failure → expansion.ending = .failed failure) := by
  intro summary expansion
  have hsummary : summary = ((Command.catalog file).execute env read).outcome verbose :=
    outcome_of_parse hsummarizing
  have hexpansion : expansion =
      ((Command.expand response (some file) maxBlocks chunkSize).execute env read).outcome
        verbose' := outcome_of_parse hexpanding
  rw [hsummary, hexpansion]
  have hjob := catalog_apply env read file
  have hjob' : (Command.expand response (some file) maxBlocks chunkSize).execute env read {} = _ :=
    expand_apply hname
  cases hl : Catalog.Listing.ofFile read file with
  | error failure =>
    have hnot := not_listsNothingUsable hl
    have hload : Service.loadLedger {} read file = .error failure := by
      rw [Service.loadLedger_apply, hl]
    rw [hload] at hjob
    rw [hl, hload] at hjob'
    cases failure with
    | catalog fault =>
      rw [output_of_error hjob, ending_of_error hjob, output_of_error hjob', ending_of_error hjob']
      exact ⟨fun _ => ⟨⟨fault, rfl⟩, iff_of_true ⟨rfl, rfl⟩ hnot⟩, fun h => absurd h hnot, nofun,
        nofun⟩
    | _ =>
      rw [ending_of_error hjob, ending_of_error hjob']
      exact ⟨nofun, fun h => absurd h hnot, nofun, fun _ h => h⟩
  | ok listing =>
    rw [hl] at hjob'
    rcases loadLedger_of_listing hl with ⟨hnothing, hload⟩ | ⟨husable, ledger, hload⟩
    · rw [hload] at hjob hjob'
      rw [output_of_error hjob, ending_of_error hjob, output_of_error hjob', ending_of_error hjob']
      exact ⟨fun _ => ⟨⟨.empty, rfl⟩, iff_of_false nofun (absurd hnothing)⟩,
        fun _ => ⟨⟨rfl, rfl⟩, rfl, rfl⟩, nofun, nofun⟩
    · rw [hload] at hjob hjob'
      rw [output_of_ok hjob, ending_of_ok hjob]
      exact ⟨nofun, fun h => absurd h husable, fun _ => ⟨ledger, hjob, rfl, hjob'⟩, nofun⟩

theorem commands_agree_on_catalog_of_samples :
    let stone : FileReader := fun _ => .ok ("[\x22Stone\x22]".toList.map fun c => c.toNat.toUInt8)
    let missing : FileReader := fun _ => .error .missing
    (∃ ledger, (Command.expand "hut.json" (some "blocks.json") none none).execute [] stone {} =
        (Command.expand "hut.json" none none none).execute [] stone { ledger } ∧
      (Outcome.of [] stone ["catalog", "blocks.json"]).output =
        textOfLines (summaryLines ledger.store.current)) ∧
    (((Outcome.of [] missing ["expand", "hut.json", "--catalog", "blocks.json"]).output =
          (Outcome.of [] missing ["catalog", "blocks.json"]).output ∧
        (Outcome.of [] missing ["expand", "hut.json", "--catalog", "blocks.json"]).ending =
          .exit 1) ↔
      ¬ Catalog.ListsNothingUsable missing "blocks.json") := by
  intro stone missing
  have hsummarizing : Invocation.parse ["catalog", "blocks.json"] =
      .ok { command := .catalog "blocks.json" } := toOption_eq_some.mp (by decide +kernel)
  have hexpanding : Invocation.parse ["expand", "hut.json", "--catalog", "blocks.json"] =
      .ok { command := .expand "hut.json" (some "blocks.json") none none } :=
    toOption_eq_some.mp (by decide +kernel)
  obtain ⟨-, -, haccepted, -⟩ := commands_agree_on_catalog [] stone (by decide)
    hsummarizing hexpanding
  obtain ⟨hrefused, -⟩ := commands_agree_on_catalog [] missing (by decide)
    hsummarizing hexpanding
  obtain ⟨ledger, -, houtput, hjob⟩ := haccepted (by decide +kernel)
  exact ⟨⟨ledger, hjob, houtput⟩, (hrefused (by decide +kernel)).2⟩

/-- A file that lists nothing but the namespace is refused by one command, and the other one prints
nothing and ends in a failure. -/
theorem bare_namespace_parts_commands :
    ¬ ∀ (read : FileReader) (file response : String), file ≠ "" →
      (Outcome.of [] read ["catalog", file]).ending = .exit 1 →
        (Outcome.of [] read ["expand", response, "--catalog", file]).output =
            (Outcome.of [] read ["catalog", file]).output ∧
          (Outcome.of [] read ["expand", response, "--catalog", file]).ending = .exit 1 := by
  intro h
  let read : FileReader := fun _ =>
    .ok ("[\x22minecraft:\x22]".toList.map fun c => c.toNat.toUInt8)
  have hrefused : (Outcome.of [] read ["catalog", "n.json"]).ending = .exit 1 := by decide +kernel
  have hfailed : (Outcome.of [] read ["expand", "a.json", "--catalog", "n.json"]).ending =
      .failed (.catalog .empty) := by decide +kernel
  have hsame := (h read "n.json" "a.json" (by decide) hrefused).2
  cases hfailed.symm.trans hsame

end CommandLine
end VoxelBlueprint
