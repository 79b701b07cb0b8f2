/-
# Names from a file and names that are set

A name is made canonical in two ways. Where a catalog is set, it is put in lower case and then
under the namespace, unless it is there already; in a file it is put under the namespace as it
is spelled, and made canonical behind that. The two come to the same for a name that starts
with the namespace in lower case, and for one that does not start with it in any case and whose
lower-case form is the same behind the namespace as on its own. They differ for every other
name: `MINECRAFT:GLASS` is put under the namespace twice if it is read from a file.

Key definitions: `Catalog.SpelledAlike`, `Catalog.Lists`.
Key theorems: `Catalog.canonicalText_qualify`, `Catalog.usableIds_entryIds`,
`Catalog.spelledAlike_iff`, `Service.loads_names_as_set`.
-/
import Mathlib.Data.List.Forall2
import VoxelBlueprint.Proofs.Catalog.Files
import VoxelBlueprint.Proofs.Json.Bytes
import VoxelBlueprint.Proofs.Text.Strip

namespace VoxelBlueprint

namespace Text

/-! ### Lower case behind another text -/

/-- Whether a letter precedes what follows a text, in its word. -/
def endsCased (afterCased : Bool) (s : List Char) : Bool :=
  s.foldl (fun afterCased c => if isCaseIgnorable c then afterCased else isCased c) afterCased

/-- A text in lower case stays as it is in front of another one. -/
theorem lowerAfter_append_of_isLower (t : List Char) : ∀ {s : List Char} (afterCased : Bool),
    (∀ c ∈ s, IsLower c) →
      lowerAfter afterCased (s ++ t) = s ++ lowerAfter (endsCased afterCased s) t
  | [], _, _ => rfl
  | c :: s, afterCased, h => by
    obtain ⟨⟨hc, hi, hs⟩, hr⟩ := List.forall_mem_cons.mp h
    rw [List.cons_append, lowerAfter, lowerIn, if_neg hi, if_neg hs, hc,
      lowerAfter_append_of_isLower t _ hr]
    rfl

/-- Two characters that stand for one in different words: itself, or a form of the sigma. -/
def SameLetter (c d : Char) : Prop :=
  c = d ∨ c ∈ ['σ', 'ς'] ∧ d ∈ ['σ', 'ς']

/-- What precedes a text tells no more of its lower-case form than the forms of the sigma. -/
theorem sameLetters_lowerAfter : ∀ (a b : Bool) (s : List Char),
    List.Forall₂ SameLetter (lowerAfter a s) (lowerAfter b s)
  | _, _, [] => .nil
  | a, b, c :: s => by
    have htail := sameLetters_lowerAfter (if isCaseIgnorable c then a else isCased c)
      (if isCaseIgnorable c then b else isCased c) s
    have hsigma (h : Bool) : (if h then 'ς' else 'σ') ∈ ['σ', 'ς'] := by
      cases h <;> decide
    rw [lowerAfter, lowerAfter, lowerIn, lowerIn]
    by_cases hi : c = 'İ'
    · rw [if_pos hi, if_pos hi]
      exact .cons (.inl rfl) (.cons (.inl rfl) htail)
    · by_cases hs : c = 'Σ'
      · rw [if_neg hi, if_neg hi, if_pos hs, if_pos hs]
        exact .cons (.inr ⟨hsigma _, hsigma _⟩) htail
      · rw [if_neg hi, if_neg hi, if_neg hs, if_neg hs]
        exact .cons (.inl rfl) htail

theorem lowerAfter_ne_nil (afterCased : Bool) {s : List Char} (h : s ≠ []) :
    lowerAfter afterCased s ≠ [] := by
  cases s with
  | nil => exact absurd rfl h
  | cons c s =>
    rw [lowerAfter, lowerIn]
    by_cases hi : c = 'İ'
    · simp [hi]
    · by_cases hs : c = 'Σ'
      · simp [hs]
      · simp [hi, hs]

end Text

namespace Catalog

open Text

/-! ### Canonical forms without a namespace -/

/-- A text in the form of an id, before it is put under the namespace. -/
def idForm (lowered : List Char) : List Char :=
  (joinBlanks false lowered).map plainChar

/-- What starts with the namespace in the form of an id did so before. -/
theorem prefix_of_joinBlanks {p : List Char} (hp : '_' ∉ p) : ∀ {s : List Char},
    p <+: (joinBlanks false s).map plainChar → p <+: s := by
  induction p with
  | nil => exact fun _ => List.nil_prefix
  | cons d p ih =>
    intro s h
    rw [List.mem_cons, not_or] at hp
    cases s with
    | nil => exact absurd h (by simp [joinBlanks])
    | cons c s =>
      rw [joinBlanks] at h
      by_cases hb : isBlank c = true
      · rw [if_pos hb, if_neg Bool.false_ne_true, List.map_cons, List.cons_prefix_cons] at h
        exact absurd h.1.symm hp.1
      · rw [if_neg hb, List.map_cons, List.cons_prefix_cons] at h
        have hc : plainChar c = c := by
          by_cases hm : c = '-'
          · rw [plainChar, if_pos hm] at h
            exact absurd h.1.symm hp.1
          · exact if_neg hm
        rw [h.1, hc]
        exact List.cons_prefix_cons.mpr ⟨rfl, ih hp.2 h.2⟩

/-- The characters of ids stay in front of another text. -/
theorem idForm_append : ∀ {s : List Char}, (∀ c ∈ s, IsPlain c) → ∀ t : List Char,
    idForm (s ++ t) = s ++ idForm t
  | [], _, _ => rfl
  | c :: s, h, t => by
    obtain ⟨⟨-, hb, hm⟩, hs⟩ := List.forall_mem_cons.mp h
    have ih := idForm_append hs t
    unfold idForm at ih ⊢
    rw [List.cons_append, joinBlanks, if_neg (by simp [hb]), List.map_cons, ih, plainChar,
      if_neg hm]
    rfl

theorem idForm_eq_nil {s : List Char} : idForm s = [] ↔ s = [] := by
  cases s with
  | nil => exact ⟨fun _ => rfl, fun _ => rfl⟩
  | cons c s =>
    rw [idForm, List.map_eq_nil_iff, joinBlanks]
    by_cases hb : isBlank c = true
    · rw [if_pos hb, if_neg Bool.false_ne_true]
      simp
    · rw [if_neg hb]
      simp

/-- Texts of the same letters are as long in the form of an id, and the same only if they are. -/
theorem joinBlanks_sameLetters {s t : List Char} (h : List.Forall₂ SameLetter s t) :
    ∀ afterBlank : Bool,
      ((joinBlanks afterBlank s).map plainChar).length =
          ((joinBlanks afterBlank t).map plainChar).length ∧
        ((joinBlanks afterBlank s).map plainChar = (joinBlanks afterBlank t).map plainChar →
          s = t) := by
  induction h with
  | nil => exact fun _ => ⟨rfl, fun _ => rfl⟩
  | @cons c d s t hcd _ ih =>
    intro afterBlank
    rcases hcd with rfl | ⟨hc, hd⟩
    · by_cases hb : isBlank c = true
      · rw [joinBlanks, joinBlanks, if_pos hb, if_pos hb]
        obtain ⟨hl, he⟩ := ih true
        cases afterBlank with
        | true => exact ⟨hl, fun h => congrArg (c :: ·) (he h)⟩
        | false =>
          exact ⟨congrArg Nat.succ hl, fun h => congrArg (c :: ·) (he (List.cons.inj h).2)⟩
      · rw [joinBlanks, joinBlanks, if_neg hb, if_neg hb]
        obtain ⟨hl, he⟩ := ih false
        exact ⟨congrArg Nat.succ hl, fun h => congrArg (c :: ·) (he (List.cons.inj h).2)⟩
    · have hsigma : ∀ e ∈ ['σ', 'ς'], isBlank e = false ∧ plainChar e = e :=
        List.forall_mem_cons.mpr ⟨by decide, List.forall_mem_singleton.mpr (by decide)⟩
      obtain ⟨hbc, hpc⟩ := hsigma c hc
      obtain ⟨hbd, hpd⟩ := hsigma d hd
      rw [joinBlanks, joinBlanks, if_neg (by simp [hbc]), if_neg (by simp [hbd]), List.map_cons,
        List.map_cons, hpc, hpd]
      obtain ⟨hl, he⟩ := ih false
      refine ⟨congrArg Nat.succ hl, fun h => ?_⟩
      rw [(List.cons.inj h).1, he (List.cons.inj h).2]

/-! ### The two ways to a canonical form -/

/-- Whether a name has the same canonical form under the namespace and on its own: without the
blanks at its ends it starts with the namespace, or it does not even do so in lower case, and it
is the same in lower case behind the namespace as on its own. -/
def SpelledAlike (name : String) : Prop :=
  let text := strip name.toList
  namespaceText.toList <+: text ∨
    ¬ namespaceText.toList <+: lower text ∧
      lower (namespaceText.toList ++ text) = namespaceText.toList ++ lower text

instance (name : String) : Decidable (SpelledAlike name) :=
  inferInstanceAs (Decidable (_ ∨ _))

theorem isPlain_namespaceText : ∀ c ∈ namespaceText.toList, IsPlain c := by
  have h : (namespaceText.toList.all fun c => decide (IsPlain c)) = true := by decide +kernel
  exact fun c hc => of_decide_eq_true (List.all_eq_true.mp h c hc)

/-- The namespace ends in a word whose next letter is not its first. -/
theorem lower_namespaceText (text : List Char) :
    lower (namespaceText.toList ++ text) = namespaceText.toList ++ lowerAfter true text := by
  have he : endsCased false namespaceText.toList = true := by decide +kernel
  rw [lower, lowerAfter_append_of_isLower text false fun c hc => (isPlain_namespaceText c hc).1,
    he]

/-- The canonical form of a text that is put under the namespace first. -/
theorem canonicalText_append {text : List Char} (ht : Trimmed text) :
    canonicalText (namespaceText.toList ++ text) =
      namespaceText.toList ++ idForm (lowerAfter true text) := by
  have hn : Trimmed namespaceText.toList := .of_forall fun c hc => (isPlain_namespaceText c hc).2.1
  rw [canonicalText, strip_of_trimmed (hn.append ht), lower_namespaceText]
  show qualify (idForm _) = _
  rw [idForm_append isPlain_namespaceText, qualify_of_prefix (List.prefix_append _ _)]

/-- **A text without blanks at its ends has the same canonical form under the namespace and on
its own** just when it is spelled alike. -/
theorem canonicalText_qualify {text : List Char} (ht : Trimmed text) :
    canonicalText (qualify text) = canonicalText text ↔
      namespaceText.toList <+: text ∨
        ¬ namespaceText.toList <+: lower text ∧
          lower (namespaceText.toList ++ text) = namespaceText.toList ++ lower text := by
  have hown : canonicalText text = qualify (idForm (lower text)) := by
    rw [canonicalText, strip_of_trimmed ht, idForm]
  have hletters := joinBlanks_sameLetters (sameLetters_lowerAfter true false text) false
  by_cases hp : namespaceText.toList <+: text
  · rw [ qualify_of_prefix hp]
    exact ⟨fun _ => .inl hp, fun _ => rfl⟩
  · have hunder : qualify text = namespaceText.toList ++ text :=
      if_neg (mt List.isPrefixOf_iff_prefix.mp hp)
    rw [hunder, canonicalText_append ht, hown]
    by_cases hl : namespaceText.toList <+: lower text
    · -- the namespace stands twice in the one form and once in the other
      have hq : namespaceText.toList <+: idForm (lower text) := by
        obtain ⟨rest, hrest⟩ := hl
        rw [← hrest, idForm_append isPlain_namespaceText]
        exact List.prefix_append _ _
      rw [ qualify_of_prefix hq]
      constructor
      · intro h
        have hlength := congrArg List.length h
        rw [List.length_append] at hlength
        have := hletters.1
        simp only [idForm, lower] at hlength
        have hn : namespaceText.toList.length = 10 := by decide +kernel
        omega
      · rintro (h | ⟨h, -⟩)
        · exact absurd h hp
        · exact absurd hl h
    · have hq : ¬ namespaceText.toList <+: idForm (lower text) := fun h =>
        hl (prefix_of_joinBlanks (by decide +kernel) h)
      have hq' : qualify (idForm (lower text)) = namespaceText.toList ++ idForm (lower text) :=
        if_neg (mt List.isPrefixOf_iff_prefix.mp hq)
      rw [hq', List.append_cancel_left_eq, lower_namespaceText, List.append_cancel_left_eq]
      constructor
      · intro h
        exact .inr ⟨hl, hletters.2 h⟩
      · rintro (h | ⟨-, h⟩)
        · exact absurd h hp
        · rw [h]

/-! ### Names in a file -/

/-- Whether an entry of a list stands for a name: it is the name, or an object that has it. -/
inductive Names : String → Json → Prop where
  | text (name : String) : Names name (.str name)
  | record {name : String} {fields : List (String × Json)}
    (h : fields.lookup "name" = some (.str name)) : Names name (.obj fields)

/-- Whether the content of a file lists names, on its own or as the blocks of an object. -/
inductive Lists (names : List String) : Json → Prop where
  | array {entries : List Json} (h : List.Forall₂ Names names entries) : Lists names (.arr entries)
  | blocks {entries : List Json} {fields : List (String × Json)}
    (hf : fields.lookup "blocks" = some (.arr entries)) (h : List.Forall₂ Names names entries) :
    Lists names (.obj fields)

/-- Names as they may be written to a file: as an array of texts or of objects, on its own or as
the blocks of an object. -/
def layouts (names : List String) : List Json :=
  let texts := Json.arr (names.map .str)
  let records := Json.arr (names.map fun name => .obj [("name", .str name)])
  [texts, records, .obj [("blocks", texts)], .obj [("blocks", records)]]

/-- Names that are written to a file are what it lists. -/
theorem lists_layouts {names : List String} {data : Json} (h : data ∈ layouts names) :
    Lists names data := by
  have htexts : List.Forall₂ Names names (names.map .str) :=
    List.forall₂_map_right_iff.mpr (List.forall₂_same.mpr fun name _ => .text name)
  have hrecords : List.Forall₂ Names names (names.map fun name => .obj [("name", .str name)]) :=
    List.forall₂_map_right_iff.mpr (List.forall₂_same.mpr fun _ _ => .record rfl)
  simp only [layouts, List.mem_cons, List.not_mem_nil, or_false] at h
  rcases h with rfl | rfl | rfl | rfl
  · exact .array htexts
  · exact .array hrecords
  · exact .blocks rfl htexts
  · exact .blocks rfl hrecords

/-- Names that are written to a file are read from it. -/
theorem contentOf_layouts {names : List String} {data : Json} (h : data ∈ layouts names)
    {read : FileReader} {file : String}
    (hr : read file = .ok (asciiBytes data.compact.toList)) : contentOf read file = .ok data := by
  have htexts (depth : Nat) : Json.Writable (depth + 1) (.arr (names.map .str)) := by
    refine .arr fun item hitem => ?_
    obtain ⟨name, -, rfl⟩ := List.mem_map.mp hitem
    exact .str _ _
  have hrecords (depth : Nat) :
      Json.Writable (depth + 2) (.arr (names.map fun name => .obj [("name", .str name)])) := by
    refine .arr fun item hitem => ?_
    obtain ⟨name, -, rfl⟩ := List.mem_map.mp hitem
    exact .obj (by simp) fun field hfield => List.mem_singleton.mp hfield ▸ .str _ _
  have hblocks {depth : Nat} {value : Json} (h : Json.Writable depth value) :
      Json.Writable (depth + 1) (.obj [("blocks", value)]) :=
    .obj (by simp) fun field hfield => List.mem_singleton.mp hfield ▸ h
  have hw : Json.Writable Json.Reader.maxNesting data := by
    simp only [layouts, List.mem_cons, List.not_mem_nil, or_false] at h
    rcases h with rfl | rfl | rfl | rfl
    · exact htexts 999
    · exact hrecords 998
    · exact hblocks (htexts 998)
    · exact hblocks (hrecords 997)
  have hv := Json.isVisible_compact hw
  have hread := Json.read_compact hw [] nofun
  rw [List.append_nil] at hread
  rw [contentOf_apply, hr]
  simp only [Utf8.decode_asciiBytes hv, unifyNewlines_of_visible hv, hread, Except.mapError]

variable {name : String} {entry : Json}

theorem isNamed_str : isNamed (.str name) = true ↔ strip name.toList ≠ [] := by
  show (!Text.isAllBlank name) = true ↔ _
  rw [Ne, strip_eq_nil, Text.isAllBlank, Bool.not_eq_true', Bool.not_eq_true]

/-- An entry that stands for a name has it as its id, put under the namespace, unless it is
blank. -/
theorem entryId?_of_names (h : Names name entry) :
    entryId? entry =
      if strip name.toList = [] then none
      else some (String.ofList (qualify (strip name.toList))) := by
  have hid : (if (Json.str name).isTruthy then strip (fullText (.str name)).toList else []) =
      strip name.toList := by
    by_cases he : name = ""
    · rw [he]
      rfl
    · exact if_pos (by simpa [Json.isTruthy] using he)
  unfold entryId?
  cases h with
  | text =>
    simp only [Json.isObject, Bool.false_eq_true, if_false, hid, List.isEmpty_iff]
  | record hf =>
    have hn : Json.field "name" (.obj _) = .str name := congrArg (·.getD .null) hf
    simp only [Json.isObject, if_true, hn, hid, List.isEmpty_iff]

theorem canonical_str (text : String) :
    canonical (.str text) = String.ofList (canonicalText text.toList) := rfl

/-- A name that is spelled alike comes to the same id from a file. -/
theorem canonical_qualify :
    canonical (.str (String.ofList (qualify (strip name.toList)))) = canonical (.str name) ↔
      SpelledAlike name := by
  have ht := trimmed_strip name.toList
  have hs : canonicalText name.toList = canonicalText (strip name.toList) := by
    rw [canonicalText, canonicalText, strip_of_trimmed ht]
  rw [canonical_str, canonical_str, String.toList_ofList, hs, String.ofList_inj]
  exact canonicalText_qualify ht

/-- What is put under the namespace names a block. -/
theorem isNamed_qualify (text : List Char) :
    isNamed (.str (String.ofList (qualify text))) = true := by
  rw [isNamed_str, String.toList_ofList, Ne, strip_eq_nil, Bool.not_eq_true, List.all_eq_false]
  exact ⟨'m', (prefix_qualify text).subset (by decide), by decide⟩

/-- The ids that a file has for names that are spelled alike are those that the names have. -/
theorem usableIds_entryIds {names : List String} {entries : List Json}
    (h : List.Forall₂ Names names entries) (ha : ∀ name ∈ names, SpelledAlike name) :
    usableIds ((entries.filterMap entryId?).map .str) = usableIds (names.map .str) := by
  have hmap : (((entries.filterMap entryId?).map Json.str).filter isNamed).map canonical =
      ((names.map Json.str).filter isNamed).map canonical := by
    induction h with
    | nil => rfl
    | @cons name entry names entries hn _ ih =>
      obtain ⟨hname, hnames⟩ := List.forall_mem_cons.mp ha
      rw [List.map_cons]
      by_cases hb : strip name.toList = []
      · have hid : entryId? entry = none := (entryId?_of_names hn).trans (if_pos hb)
        have hf : isNamed (.str name) = false := by
          rw [Bool.eq_false_iff, Ne, isNamed_str]
          exact not_not.mpr hb
        rw [List.filterMap_cons_none hid, List.filter_cons_of_neg (by simp [hf]), ih hnames]
      · have hid := (entryId?_of_names hn).trans (if_neg hb)
        rw [List.filterMap_cons_some hid, List.map_cons,
          List.filter_cons_of_pos (isNamed_qualify _), List.filter_cons_of_pos (isNamed_str.mpr hb),
          List.map_cons, List.map_cons, ih hnames, canonical_qualify.mpr hname]
  rw [usableIds, idsOf, hmap, usableIds, idsOf]

/-- A single text has one usable id, unless it is blank or nothing but the namespace. -/
theorem usableIds_singleton (text : String) :
    usableIds [.str text] =
      if isNamed (.str text) = true ∧ canonical (.str text) ≠ namespaceText then
        [canonical (.str text)]
      else [] := by
  unfold usableIds idsOf
  by_cases hn : isNamed (.str text) = true
  · by_cases hc : canonical (.str text) = namespaceText
    · simp [hn, hc]
    · simp [hn, hc, List.eraseDups_cons]
  · simp [hn]

/-- A single name whose ids agree is spelled alike. -/
theorem spelledAlike_of_usableIds (h : Names name entry)
    (hu : usableIds (([entry].filterMap entryId?).map .str) = usableIds ([name].map .str)) :
    SpelledAlike name := by
  by_cases hb : strip name.toList = []
  · refine .inr ⟨?_, ?_⟩
    · rw [hb]
      decide +kernel
    · rw [hb]
      decide +kernel
  · have hid := (entryId?_of_names h).trans (if_neg hb)
    rw [List.filterMap_cons_some hid, List.filterMap_nil, List.map_singleton, List.map_singleton,
      usableIds_singleton, usableIds_singleton] at hu
    by_contra ha
    have hne : canonical (.str (String.ofList (qualify (strip name.toList)))) ≠ namespaceText := by
      have hp : ¬ namespaceText.toList <+: strip name.toList := fun hp => ha (.inl hp)
      have hq : qualify (strip name.toList) = namespaceText.toList ++ strip name.toList :=
        if_neg (mt List.isPrefixOf_iff_prefix.mp hp)
      rw [canonical_str, String.toList_ofList, hq, canonicalText_append (trimmed_strip _)]
      intro h
      have hl := congrArg String.toList h
      rw [String.toList_ofList, List.append_right_eq_self, idForm_eq_nil] at hl
      exact lowerAfter_ne_nil _ hb hl
    rw [if_pos ⟨isNamed_qualify _, hne⟩] at hu
    by_cases hc : isNamed (.str name) = true ∧ canonical (.str name) ≠ namespaceText
    · rw [if_pos hc, List.singleton_inj] at hu
      exact ha (canonical_qualify.mp hu)
    · rw [if_neg hc] at hu
      cases hu

/-- What a file that lists names says: the ids of its entries, if there are any. -/
theorem Listing.ofJson_of_lists {names : List String} {data : Json} (h : Lists names data)
    (file : String) : ∃ entries, List.Forall₂ Names names entries ∧
      Listing.ofJson file data =
        if (entries.filterMap entryId?).isEmpty then .error (.noBlockIds file)
        else
          .ok
            { ids := entries.filterMap entryId?
              version := namedVersion data
              source := namedSource file data } := by
  cases h with
  | @array entries h => exact ⟨entries, h, rfl⟩
  | @blocks entries fields hf h =>
    have he : Json.field "blocks" (.obj fields) = .arr entries := congrArg (·.getD .null) hf
    refine ⟨entries, h, ?_⟩
    unfold Listing.ofJson
    simp only [Json.isObject, if_true, he]

end Catalog

namespace Service

open Catalog Text

/-- Whether a catalog that is loaded and one that is set have the same ids, or both are refused
for a fault of the catalog. -/
def Agree : Except Failure Ledger → Except Failure Ledger → Prop
  | .ok loaded, .ok set => loaded.store.current.ids = set.store.current.ids
  | .error (.catalog _), .error (.catalog _) => True
  | _, _ => False

/-- A file that lists names and the names themselves agree just when their usable ids do. -/
theorem agree_iff {read : FileReader} {file : String} {names : List String} {data : Json}
    (hc : contentOf read (tidyFileName file) = .ok data) (hl : Lists names data)
    (ledger : Ledger) (version source : Option String) :
    ∃ entries, List.Forall₂ Names names entries ∧
      (Agree (loadLedger ledger read file)
          (ledger.replaceCatalog (names.map .str) version source) ↔
        usableIds ((entries.filterMap entryId?).map .str) = usableIds (names.map .str)) := by
  obtain ⟨entries, hn, hj⟩ := Listing.ofJson_of_lists hl (tidyFileName file)
  refine ⟨entries, hn, ?_⟩
  have hset := ledger.replaceCatalog_of_hasText version source (Json.hasText_strings names)
  by_cases he : entries.filterMap entryId? = []
  · have hload : loadLedger ledger read file =
        .error (.catalog (.noBlockIds (tidyFileName file))) := by
      rw [loadLedger_apply, Listing.ofFile_apply, hc]
      simp only [hj, he, List.isEmpty_nil, if_true, Except.mapError]
    have hu : usableIds ((entries.filterMap entryId?).map .str) = [] := by
      rw [he]
      rfl
    rw [hload, hu]
    rcases hset with ⟨h0, hr⟩ | ⟨h0, l, hr, -, -⟩
    · rw [hr, h0]
      exact ⟨fun _ => rfl, fun _ => trivial⟩
    · rw [hr]
      exact ⟨False.elim, fun h => h0 h.symm⟩
  · have hload : loadLedger ledger read file =
        ledger.replaceCatalog ((entries.filterMap entryId?).map .str) (some (namedVersion data))
          (some (namedSource (tidyFileName file) data)) := by
      rw [loadLedger_apply, Listing.ofFile_apply, hc]
      simp only [hj, List.isEmpty_iff, he, if_false, Except.mapError]
    rw [hload]
    rcases ledger.replaceCatalog_of_hasText (some (namedVersion data))
        (some (namedSource (tidyFileName file) data))
        (Json.hasText_strings (entries.filterMap entryId?)) with
      ⟨h1, hr1⟩ | ⟨h1, l1, hr1, -, hids1⟩
    · rcases hset with ⟨h0, hr⟩ | ⟨h0, l, hr, -, -⟩
      · rw [hr1, hr, h1, h0]
        exact ⟨fun _ => rfl, fun _ => trivial⟩
      · rw [hr1, hr, h1]
        exact ⟨False.elim, fun h => h0 h.symm⟩
    · rcases hset with ⟨h0, hr⟩ | ⟨h0, l, hr, -, hids⟩
      · rw [hr1, hr, h0]
        exact ⟨False.elim, fun h => h1 h⟩
      · rw [hr1, hr, ← hids1, ← hids]
        exact Iff.rfl

/-- A single name that makes no difference is spelled alike. -/
theorem spelledAlike_of_agree {read : FileReader} {file : String} {name : String} {data : Json}
    (hc : contentOf read (tidyFileName file) = .ok data) (hl : Lists [name] data)
    {ledger : Ledger} {version source : Option String}
    (h : Agree (loadLedger ledger read file)
      (ledger.replaceCatalog [.str name] version source)) : SpelledAlike name := by
  obtain ⟨entries, hn, hiff⟩ := agree_iff hc hl ledger version source
  have hu := hiff.mp h
  cases hn with
  | cons hname hrest =>
    cases hrest
    exact spelledAlike_of_usableIds hname hu

/-- **Loading names from a file is setting them**, with the same ids in the same order and the
same failures, if each of them is spelled alike; and a single name that is not spelled alike
makes a difference. -/
theorem loads_names_as_set {read : FileReader} {file : String} {names : List String} {data : Json}
    (hc : contentOf read (tidyFileName file) = .ok data) (hl : Lists names data)
    (ledger : Ledger) (version source : Option String) :
    ((∀ name ∈ names, SpelledAlike name) →
      Agree (loadLedger ledger read file)
        (ledger.replaceCatalog (names.map .str) version source)) ∧
    ∀ name, names = [name] → ¬ SpelledAlike name →
      ¬ Agree (loadLedger ledger read file)
        (ledger.replaceCatalog (names.map .str) version source) := by
  constructor
  · intro ha
    obtain ⟨entries, hn, hiff⟩ := agree_iff hc hl ledger version source
    exact hiff.mpr (usableIds_entryIds hn ha)
  · rintro name rfl hn ha
    exact hn (spelledAlike_of_agree hc hl ha)

theorem loads_names_as_set_of_samples :
    let names := ["Oak Planks", " minecraft:glass "]
    Agree (loadLedger {} (fun _ => .ok (asciiBytes (Json.arr (names.map .str)).compact.toList))
        "names.json")
      (Ledger.replaceCatalog {} (names.map .str) none none) :=
  (loads_names_as_set (contentOf_layouts List.mem_cons_self rfl)
    (lists_layouts List.mem_cons_self) {} none none).1 (by decide +kernel)

/-- A name under the namespace in upper case is put under it again if it comes from a file. -/
theorem upper_case_namespace_disagrees :
    ¬ ∀ (names : List String) (data : Json), data ∈ layouts names →
      ∀ (read : FileReader) (file : String),
        read (tidyFileName file) = .ok (asciiBytes data.compact.toList) →
          ∀ (ledger : Ledger) (version source : Option String),
            Agree (loadLedger ledger read file)
              (ledger.replaceCatalog (names.map .str) version source) := by
  intro h
  let data := Json.arr [.str "MINECRAFT:GLASS"]
  have hd : data ∈ layouts ["MINECRAFT:GLASS"] := List.mem_cons_self
  let read : FileReader := fun _ => .ok (asciiBytes data.compact.toList)
  have hc : contentOf read (tidyFileName "names.json") = .ok data := contentOf_layouts hd rfl
  have ha : SpelledAlike "MINECRAFT:GLASS" :=
    spelledAlike_of_agree hc (lists_layouts hd) (h _ data hd read "names.json" rfl {} none none)
  exact absurd ha (by decide +kernel)

end Service
end VoxelBlueprint
