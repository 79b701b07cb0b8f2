/-
# Catalog files that cannot be used

What a catalog file can do to a service. A file is legible if it can be opened, or cannot for
a cause of the file system, and if what it holds is UTF-8 that is JSON or violates the grammar
of JSON. Whatever a legible file says, its ids are under the namespace or it is refused with a
fault of the catalog; the service takes the catalog if there is a usable id in it, and
otherwise stays as it is but for one warning. A file that is not legible ends in another
failure, which the service passes on, also when it starts.

Key definitions: `Catalog.legible`, `Catalog.Listing.Proper`, `Service.Adopts`,
`Service.Keeps`.
Key theorems: `Catalog.contentOf_error`, `Catalog.Listing.ofFile_error`,
`Catalog.usableIds_ofFile`, `Service.loadCatalog_of_legible`,
`Service.unusable_file_keeps_catalog`.
-/
import VoxelBlueprint.Proofs.Expansion.Histories
import VoxelBlueprint.Service.Basic

namespace VoxelBlueprint

open Effects

namespace Catalog

/-! ### Files -/

/-- The value that the content of a file writes. -/
def contentOf (read : FileReader) (file : String) : Except Failure Json := do
  let text ← readText read file
  (Json.read text).mapError Failure.json

/-- Whether it is a fault of JSON's grammar, and not of what can be read at all. -/
def isGrammatical : Json.Fault → Bool
  | .grammar _ _ => true
  | .longNumeral _ | .deepNesting _ => false

/-- Whether it can be told of a file what it says, or that it is no catalog: it is opened, or
cannot be for a cause of the file system; its bytes are UTF-8; and all that may be wrong with
its text is the grammar. -/
def legible (read : FileReader) (file : String) : Bool :=
  match read file with
  | .error cause => cause != .nulInName
  | .ok bytes =>
    match Text.Utf8.decode bytes with
    | .error _ => false
    | .ok text =>
      match Json.read (Text.unifyNewlines text) with
      | .error fault => isGrammatical fault
      | .ok _ => true

section Content

variable {read : FileReader} {file : String}

theorem contentOf_apply (read : FileReader) (file : String) :
    contentOf read file =
      match read file with
      | .error cause => .error (.file file cause)
      | .ok bytes =>
        match Text.Utf8.decode bytes with
        | .error cause => .error (.encoding cause)
        | .ok text => (Json.read (Text.unifyNewlines text)).mapError .json := by
  unfold contentOf readText
  cases read file with
  | error cause => rfl
  | ok bytes =>
    simp only [Except.mapError, bind, Except.bind, pure, Except.pure]
    cases Text.Utf8.decode bytes <;> rfl

/-- A failure on reading a file is made a fault of the catalog just when the file is legible. -/
theorem contentOf_error {failure : Failure} (h : contentOf read file = .error failure) :
    (∃ fault, asCatalogFault file failure = .catalog fault) ↔ legible read file = true := by
  rw [contentOf_apply] at h
  unfold legible
  cases hb : read file with
  | error cause =>
    simp only [hb, Except.error.injEq] at h
    rw [← h]
    cases cause <;> simp [asCatalogFault]
  | ok bytes =>
    cases ht : Text.Utf8.decode bytes with
    | error cause =>
      simp only [hb, ht, Except.error.injEq] at h
      simp [← h, asCatalogFault, ht]
    | ok text =>
      cases hj : Json.read (Text.unifyNewlines text) with
      | ok data => simp [hb, ht, hj, Except.mapError] at h
      | error cause =>
        simp only [hb, ht, hj, Except.mapError, Except.error.injEq] at h
        rw [← h]
        cases cause <;> simp [asCatalogFault, isGrammatical, ht, hj]

/-- A file that holds a value is legible. -/
theorem legible_of_contentOf {data : Json} (h : contentOf read file = .ok data) :
    legible read file = true := by
  rw [contentOf_apply] at h
  unfold legible
  cases hb : read file with
  | error cause => simp [hb] at h
  | ok bytes =>
    cases ht : Text.Utf8.decode bytes with
    | error cause => simp [hb, ht] at h
    | ok text =>
      cases hj : Json.read (Text.unifyNewlines text) with
      | ok data => simp [ht, hj]
      | error cause => simp [hb, ht, hj, Except.mapError] at h

end Content

/-! ### Listings -/

/-- What holds of every listing: there is an id, and all of them are under the namespace. -/
structure Listing.Proper (listing : Listing) : Prop where
  ids_ne_nil : listing.ids ≠ []
  prefixed : ∀ id ∈ listing.ids, namespaceText.toList <+: id.toList

/-- An entry has no id, or one under the namespace. -/
theorem prefix_of_entryId? {entry : Json} {id : String} (h : entryId? entry = some id) :
    namespaceText.toList <+: id.toList := by
  unfold entryId? at h
  dsimp only at h
  split_ifs at h <;>
    · rw [← Option.some.inj h, String.toList_ofList]
      exact prefix_qualify _

/-- A listing has an id, all its ids are under the namespace, and its labels are those that the
content names, or the usual ones. -/
theorem Listing.ofJson_ok {file : String} {data : Json} {listing : Listing}
    (h : Listing.ofJson file data = .ok listing) :
    listing.Proper ∧ listing.version = namedVersion data ∧
      listing.source = namedSource file data := by
  unfold Listing.ofJson at h
  dsimp only at h
  split at h
  · split at h
    · cases h
    · rename_i entries he hids
      cases h
      refine ⟨⟨by simpa using hids, fun id hid => ?_⟩, rfl, rfl⟩
      obtain ⟨entry, -, hentry⟩ := List.mem_filterMap.mp hid
      exact prefix_of_entryId? hentry
  · cases h

/-- Some of the given texts, each under the namespace, is a usable id unless all of them are
nothing but the namespace when they are made canonical. -/
theorem usableIds_eq_nil {ids : List String} (h : ∀ id ∈ ids, namespaceText.toList <+: id.toList) :
    usableIds (ids.map .str) = [] ↔ ∀ id ∈ ids, canonical (.str id) = namespaceText := by
  rw [List.eq_nil_iff_forall_not_mem]
  simp only [mem_usableIds, List.mem_map]
  constructor
  · intro hu id hid
    by_contra hne
    have hnamed : isNamed (.str id) = true := by
      have hm : 'm' ∈ id.toList := (h id hid).subset (by decide)
      have hb : Text.isAllBlank id = false := by
        refine List.all_eq_false.mpr ⟨'m', hm, by decide⟩
      show (!Text.isAllBlank id) = true
      rw [hb]
      rfl
    exact hu _ ⟨hne, .str id, ⟨id, hid, rfl⟩, hnamed, rfl⟩
  · rintro hn id ⟨hne, value, ⟨text, htext, rfl⟩, -, rfl⟩
    exact hne (hn text htext)

namespace Listing

variable {read : FileReader} {name : String}

theorem ofFile_apply (read : FileReader) (name : String) :
    Listing.ofFile read name =
      match contentOf read (tidyFileName name) with
      | .ok data => (Listing.ofJson (tidyFileName name) data).mapError Failure.catalog
      | .error failure => .error (asCatalogFault (tidyFileName name) failure) := rfl

/-- Only a legible file has a listing. -/
theorem ofFile_ok {listing : Listing} (h : Listing.ofFile read name = .ok listing) :
    legible read (tidyFileName name) = true ∧ listing.Proper ∧
      ∃ data, contentOf read (tidyFileName name) = .ok data ∧
        listing.version = namedVersion data ∧
        listing.source = namedSource (tidyFileName name) data := by
  rw [ofFile_apply] at h
  cases hc : contentOf read (tidyFileName name) with
  | error failure =>
    rw [hc] at h
    cases h
  | ok data =>
    rw [hc] at h
    cases hj : Listing.ofJson (tidyFileName name) data with
    | error fault =>
      simp only [hj] at h
      cases h
    | ok l =>
      simp only [hj] at h
      cases h
      obtain ⟨hp, hlabels⟩ := ofJson_ok hj
      exact ⟨legible_of_contentOf hc, hp, data, rfl, hlabels⟩

/-- A file without a listing is refused with a fault of the catalog just when it is legible. -/
theorem ofFile_error {failure : Failure} (h : Listing.ofFile read name = .error failure) :
    (∃ fault, failure = .catalog fault) ↔ legible read (tidyFileName name) = true := by
  rw [ofFile_apply] at h
  cases hc : contentOf read (tidyFileName name) with
  | error cause =>
    rw [hc] at h
    cases h
    exact contentOf_error hc
  | ok data =>
    rw [hc] at h
    cases hj : Listing.ofJson (tidyFileName name) data with
    | error fault =>
      simp only [hj] at h
      cases h
      exact ⟨fun _ => legible_of_contentOf hc, fun _ => ⟨fault, rfl⟩⟩
    | ok l =>
      simp only [hj] at h
      cases h

end Listing
end Catalog

namespace Service

open Catalog

/-! ### Loading -/

/-- Whether a service differs from an earlier one by the catalog of a listing alone, with a
record of it. -/
structure Adopts (before after : Service) (listing : Listing) : Prop where
  limits : after.limits = before.limits
  current : Snapshot.build before.ledger.store.next (listing.ids.map .str)
    (labelOr (some listing.version) "unknown") (labelOr (some listing.source) "runtime") =
      .ok after.snapshot
  sound : after.snapshot.Sound
  next : after.ledger.store.next = before.ledger.store.next + 1
  reported : after.ledger.store.reported = before.ledger.store.reported
  journal : after.ledger.journal = before.ledger.journal ++ [after.ledger.store.loadedEvent]

/-- Whether a service differs from an earlier one by one warning alone. -/
structure Keeps (before after : Service) (fault : CatalogFault) : Prop where
  limits : after.limits = before.limits
  store : after.ledger.store = before.ledger.store
  journal : ∃ event, event.level = .warning ∧
    event.message = s!"{fault.message}; keeping {before.snapshot.source} catalog" ∧
    after.ledger.journal = before.ledger.journal ++ [event]

/-- Whether a service has the catalog of a file where an earlier one had another, if there is a
usable id in the file, and differs by one warning alone if there is none. -/
def ReplacesOrKeeps (before : Service) (read : FileReader) (name : String) (after : Service) :
    Prop :=
  (∃ listing, Listing.ofFile read name = .ok listing ∧
      (∃ id ∈ listing.ids, canonical (.str id) ≠ namespaceText) ∧ before.Adopts after listing) ∨
    (∀ listing, Listing.ofFile read name = .ok listing →
      ∀ id ∈ listing.ids, canonical (.str id) = namespaceText) ∧
    ∃ fault, before.Keeps after fault

variable (service : Service) {read : FileReader} {name : String}

theorem loadLedger_apply (ledger : Ledger) (read : FileReader) (name : String) :
    loadLedger ledger read name =
      match Listing.ofFile read name with
      | .error failure => .error failure
      | .ok listing =>
        ledger.replaceCatalog (listing.ids.map .str) (some listing.version)
          (some listing.source) := by
  unfold loadLedger
  cases Listing.ofFile read name <;> rfl

theorem keeps_record (fault : CatalogFault) :
    service.Keeps (service.record (.catalogKept fault service.snapshot.source)) fault :=
  ⟨rfl, rfl, _, rfl, rfl, rfl⟩

/-- A listing with a usable id is adopted. -/
theorem loadCatalog_of_usable {listing : Listing} (h : Listing.ofFile read name = .ok listing)
    (hu : ∃ id ∈ listing.ids, canonical (.str id) ≠ namespaceText) :
    ∃ after, service.loadCatalog read name = .ok after ∧ service.Adopts after listing := by
  have hne : usableIds (listing.ids.map .str) ≠ [] := by
    obtain ⟨id, hid, hne⟩ := hu
    exact fun h0 => hne ((usableIds_eq_nil (Listing.ofFile_ok h).2.1.prefixed).mp h0 id hid)
  unfold loadCatalog
  have htext := Json.hasText_strings listing.ids
  simp only [loadLedger_apply, h, Ledger.replaceCatalog_apply _ _ _ htext, if_neg hne]
  exact ⟨_, rfl, rfl, Snapshot.build_of_hasText htext _ _ _,
    Snapshot.sound_of_usableIds rfl hne, rfl, rfl, rfl⟩

/-- A listing without a usable id leaves the service as it is. -/
theorem loadCatalog_of_unusable {listing : Listing} (h : Listing.ofFile read name = .ok listing)
    (hu : ∀ id ∈ listing.ids, canonical (.str id) = namespaceText) :
    ∃ after, service.loadCatalog read name = .ok after ∧ service.Keeps after .empty := by
  have h0 : usableIds (listing.ids.map .str) = [] :=
    (usableIds_eq_nil (Listing.ofFile_ok h).2.1.prefixed).mpr hu
  unfold loadCatalog
  simp only [loadLedger_apply, h,
    Ledger.replaceCatalog_apply _ _ _ (Json.hasText_strings listing.ids), if_pos h0]
  exact ⟨_, rfl, service.keeps_record _⟩

/-- A file that is refused with a fault of the catalog leaves the service as it is. -/
theorem loadCatalog_of_fault {fault : CatalogFault}
    (h : Listing.ofFile read name = .error (.catalog fault)) :
    ∃ after, service.loadCatalog read name = .ok after ∧ service.Keeps after fault := by
  unfold loadCatalog
  simp only [loadLedger_apply, h]
  exact ⟨_, rfl, service.keeps_record _⟩

/-- A legible file replaces the catalog or leaves the service as it is. -/
theorem loadCatalog_of_legible (hl : legible read (tidyFileName name) = true) :
    ∃ after, service.loadCatalog read name = .ok after ∧
      service.ReplacesOrKeeps read name after := by
  cases h : Listing.ofFile read name with
  | error failure =>
    obtain ⟨fault, rfl⟩ := (Listing.ofFile_error h).mpr hl
    obtain ⟨after, ha, hk⟩ := service.loadCatalog_of_fault h
    exact ⟨after, ha, .inr ⟨fun listing hlisting => absurd (h.symm.trans hlisting) nofun,
      fault, hk⟩⟩
  | ok listing =>
    by_cases hu : ∃ id ∈ listing.ids, canonical (.str id) ≠ namespaceText
    · obtain ⟨after, ha, hk⟩ := service.loadCatalog_of_usable h hu
      exact ⟨after, ha, .inl ⟨listing, h, hu, hk⟩⟩
    · push Not at hu
      obtain ⟨after, ha, hk⟩ := service.loadCatalog_of_unusable h hu
      refine ⟨after, ha, .inr ⟨fun l hl => ?_, .empty, hk⟩⟩
      rwa [← Except.ok.inj (h.symm.trans hl)]

/-- A file that is not legible ends in a failure that is no fault of the catalog. -/
theorem loadCatalog_of_illegible (hl : legible read (tidyFileName name) = false) :
    ∃ failure, (∀ fault, failure ≠ .catalog fault) ∧
      Listing.ofFile read name = .error failure ∧
      service.loadCatalog read name = .error failure := by
  cases h : Listing.ofFile read name with
  | ok listing => simp [(Listing.ofFile_ok h).1] at hl
  | error failure =>
    have hn : ∀ fault, failure ≠ .catalog fault := fun fault hf => by
      simp [(Listing.ofFile_error h).mp ⟨fault, hf⟩] at hl
    refine ⟨failure, hn, rfl, ?_⟩
    unfold loadCatalog
    simp only [loadLedger_apply, h]

/-- **What a catalog file does to a service.** A legible file has a listing of ids under the
namespace, or is refused with a fault of the catalog; the service takes the listing if one of
its ids is usable, and otherwise stays as it is but for one warning. The failure of a file that
is not legible is no fault of the catalog, and ends the loading, and the start of a service. -/
theorem unusable_file_keeps_catalog (read : FileReader) (name : String) :
    (legible read (tidyFileName name) = true →
      ((∃ listing, Listing.ofFile read name = .ok listing ∧ listing.Proper ∧
          ∃ data, contentOf read (tidyFileName name) = .ok data ∧
            listing.version = namedVersion data ∧
            listing.source = namedSource (tidyFileName name) data) ∨
        ∃ fault, Listing.ofFile read name = .error (.catalog fault)) ∧
      ∃ after, service.loadCatalog read name = .ok after ∧
        service.ReplacesOrKeeps read name after) ∧
    (legible read (tidyFileName name) = false →
      ∃ failure, (∀ fault, failure ≠ .catalog fault) ∧
        Listing.ofFile read name = .error failure ∧
        service.loadCatalog read name = .error failure) ∧
    ∀ (env : Environment) (limits : Limits), Settings.limits env = .ok limits →
      Settings.catalogFile? env = some name → name ≠ "" →
        ((∃ after, start env read = .ok after) ↔ legible read (tidyFileName name) = true) := by
  refine ⟨fun hl => ⟨?_, service.loadCatalog_of_legible hl⟩, service.loadCatalog_of_illegible,
    fun env limits hlimits hfile hname => ?_⟩
  · cases h : Listing.ofFile read name with
    | ok listing =>
      obtain ⟨-, hp, hd⟩ := Listing.ofFile_ok h
      exact .inl ⟨listing, rfl, hp, hd⟩
    | error failure =>
      obtain ⟨fault, rfl⟩ := (Listing.ofFile_error h).mpr hl
      exact .inr ⟨fault, rfl⟩
  · have hstart : start env read = loadCatalog { limits } read name := by
      unfold start
      simp only [hlimits, hfile, bind, Except.bind]
    rw [hstart]
    cases hl : legible read (tidyFileName name) with
    | true =>
      obtain ⟨after, ha, -⟩ := loadCatalog_of_legible { limits } hl
      exact ⟨fun _ => rfl, fun _ => ⟨after, ha⟩⟩
    | false =>
      obtain ⟨failure, -, -, hf⟩ := loadCatalog_of_illegible { limits } hl
      rw [hf]
      simp

theorem unusable_file_keeps_catalog_of_samples :
    let stone : FileReader := fun _ => .ok ("[\x22Stone\x22]".toList.map fun c => c.toNat.toUInt8)
    let missing : FileReader := fun _ => .error .missing
    (∃ after, loadCatalog {} stone "blocks.json" = .ok after ∧
      ReplacesOrKeeps {} stone "blocks.json" after) ∧
    ((∃ after, start [("BLOCKPRINT_CATALOG_FILE", "blocks.json")] missing = .ok after) ↔
      legible missing (tidyFileName "blocks.json") = true) :=
  ⟨((unusable_file_keeps_catalog {} _ "blocks.json").1 (by decide +kernel)).2,
    (unusable_file_keeps_catalog {} _ "blocks.json").2.2
      [("BLOCKPRINT_CATALOG_FILE", "blocks.json")] {} (by decide +kernel) (by decide +kernel)
      (by decide +kernel)⟩

/-- A byte that is no UTF-8 is no fault of the catalog: it is passed on and no service starts. -/
theorem undecodable_file_ends_loading :
    ¬ ∀ (service : Service) (read : FileReader) (name : String),
      ((∃ listing, Listing.ofFile read name = .ok listing ∧ listing.Proper) ∨
        ∃ fault, Listing.ofFile read name = .error (.catalog fault)) ∧
      ∃ after, service.loadCatalog read name = .ok after := by
  intro h
  let read : FileReader := fun _ => .ok [0xFF]
  obtain ⟨after, ha⟩ := (h {} read "bad.json").2
  have hf : Listing.ofFile read "bad.json" = .error (.encoding ⟨.invalidStart, 0xFF, 0, 1⟩) := by
    decide +kernel
  unfold loadCatalog at ha
  simp only [loadLedger_apply, hf] at ha
  cases ha

end Service
end VoxelBlueprint
