/-
# Building a snapshot

A snapshot is built of the values that name a block. Which values these are is judged by the text
that a value is written as, and for values that are no strings this text is never blank. A value
with a number that is too long to be written fails it, but no such value is ever read of a text. The
ids of the snapshot are the canonical forms of these values, in the order in which they come first.
So a snapshot that is built again, from its own ids, is the same; and a snapshot that is built of
the same values in another order has the same ids.

Key definitions: `Catalog.Usable`, `Catalog.FirstOccurrences`.
Key theorems: `Catalog.isNamed_iff`, `Catalog.firstOccurrences_iff`, `Catalog.usableIds_eq`,
`Catalog.usableIds_usableIds`, `Catalog.Snapshot.exists_build_iff`,
`Catalog.snapshots_built_exactly`.
-/
import Mathlib.Data.List.Induction
import Mathlib.Data.List.Sort
import VoxelBlueprint.Proofs.Catalog.Snapshot
import VoxelBlueprint.Proofs.Expression.Integers
import VoxelBlueprint.Proofs.Json.Texts
import VoxelBlueprint.Proofs.Json.Written

namespace VoxelBlueprint

/-! ### Values that are shown blank -/

namespace Text

theorem not_isAllBlank {s : String} {c : Char} (hc : c ∈ s.toList) (hb : isBlank c = false) :
    isAllBlank s = false :=
  List.all_eq_false.mpr ⟨c, hc, by simp [hb]⟩

theorem not_isAllBlank_append {s : String} (h : isAllBlank s = false) (t : String) :
    isAllBlank (s ++ t) = false := by
  unfold isAllBlank at h ⊢
  rw [String.toList_append, List.all_append, h, Bool.false_and]

end Text

open Text

/-- A number is laid out with a point or with an exponent. -/
theorem Binary64.exists_not_blank_layOut (digits : List Char) (point : Int) :
    ∃ c ∈ layOut digits point, isBlank c = false := by
  unfold layOut
  split
  · split
    · exact ⟨'.', by simp, by decide⟩
    · split <;> exact ⟨'.', by simp, by decide⟩
  · exact ⟨'e', by simp, by decide⟩

theorem Binary64.not_isAllBlank_toText (x : Binary64) : isAllBlank x.toText = false := by
  cases x with
  | nan => decide
  | infinite negative => cases negative <;> decide
  | finite x =>
    have hshown : ∃ c ∈ (if x.mantissa = 0 then ['0', '.', '0'] else
        layOut x.shortest.significant.1 x.shortest.significant.2), isBlank c = false := by
      split
      · exact ⟨'.', by simp, by decide⟩
      · exact exists_not_blank_layOut _ _
    obtain ⟨c, hc, hb⟩ := hshown
    refine not_isAllBlank (c := c) ?_ hb
    show c ∈ (Finite.toText x).toList
    rw [Finite.toText, String.toList_ofList]
    split
    · exact List.mem_cons_of_mem _ hc
    · exact hc

namespace Json

theorem not_isAllBlank_toString (n : Int) : isAllBlank (toString n) = false := by
  obtain ⟨c, rest, hc⟩ :=
    List.exists_cons_of_ne_nil (Nat.toDigits_ne_nil (n := n.natAbs) (b := 10))
  have hmem : c ∈ Nat.toDigits 10 n.natAbs := hc ▸ List.mem_cons_self
  refine not_isAllBlank (c := c) ?_
    (isBlank_of_isDigit (Expression.isDigit_of_mem_toDigits c hmem))
  rw [Expression.toList_toString, Expression.spell]
  exact List.mem_append_left _ (List.mem_append_right _ hmem)

/-- The literal of a value that is no string is not blank. -/
theorem not_isAllBlank_literal? {value : Json} (hs : ∀ text, value ≠ .str text) {text : String}
    (h : value.literal? = some text) : isAllBlank text = false := by
  cases value with
  | null => cases h; decide
  | bool b => cases b <;> cases h <;> decide
  | int n =>
    rw [literal?, Numeral.write?] at h
    split at h
    · cases h
      exact not_isAllBlank_toString n
    · cases h
  | float x =>
    cases h
    exact x.not_isAllBlank_toText
  | str text => exact absurd rfl (hs text)
  | arr items =>
    rw [literal?] at h
    cases hi : itemLiterals? items with
    | none => rw [hi] at h; cases h
    | some shown =>
      rw [hi] at h
      cases h
      exact not_isAllBlank_append (not_isAllBlank_append (by decide) _) _
  | obj fields =>
    rw [literal?] at h
    cases hf : fieldLiterals? fields with
    | none => rw [hf] at h; cases h
    | some shown =>
      rw [hf] at h
      cases h
      exact not_isAllBlank_append (not_isAllBlank_append (by decide) _) _

/-- Nor is what a diagnostic shows of it. -/
theorem not_isAllBlank_display {value : Json} (hs : ∀ text, value ≠ .str text) :
    isAllBlank value.display = false := by
  have hshown : isAllBlank ((literal? value).getD s!"<{value.kindName}>") = false := by
    cases h : literal? value with
    | none => exact not_isAllBlank_append (not_isAllBlank_append (by decide) _) _
    | some text => exact not_isAllBlank_literal? hs h
  cases value with
  | str text => exact absurd rfl (hs text)
  | int n =>
    rw [display]
    split
    · exact not_isAllBlank_append (not_isAllBlank_append (by decide) _) _
    · exact not_isAllBlank_toString n
  | null | bool | float | arr | obj => exact hshown

end Json

namespace Catalog

/-- A value that is neither null nor a string names a block, if that can be told. -/
theorem isNamed_of_not_str {value : Json} (hn : value ≠ .null) (hs : ∀ text, value ≠ .str text) :
    isNamed value = true := by
  have hw : isNamed? value = value.literal?.map fun text => !isAllBlank text := by
    cases value with
    | null => exact absurd rfl hn
    | str text => exact absurd rfl (hs text)
    | _ => rfl
  rw [isNamed, hw]
  cases h : value.literal? with
  | none => rfl
  | some text =>
    rw [Option.map_some, Json.not_isAllBlank_literal? hs h]
    rfl

/-- A value names a block if it is not null and not blank. -/
theorem isNamed_iff {value : Json} :
    isNamed value = true ↔ value.isNull = false ∧ isAllBlank value.display = false := by
  cases value with
  | null => simp [isNamed, isNamed?, Json.isNull]
  | str text => simp [isNamed, isNamed?, Json.written?, Json.isNull, Json.display]
  | bool | int | float | arr | obj =>
    exact iff_of_true (isNamed_of_not_str nofun nofun)
      ⟨rfl, Json.not_isAllBlank_display nofun⟩

/-- Whether a value is of use to a catalog: it is neither null nor blank, and its canonical form is
more than the namespace. -/
def Usable (value : Json) : Prop :=
  value.isNull = false ∧ isAllBlank value.display = false ∧ canonical value ≠ namespaceText

instance (value : Json) : Decidable (Usable value) :=
  inferInstanceAs (Decidable (_ ∧ _ ∧ _))

/-! ### First occurrences -/

/-- Whether a list has the items of another one, each of them once, in the order in which they come
first there. -/
structure FirstOccurrences (items firsts : List String) : Prop where
  mem_iff : ∀ item, item ∈ firsts ↔ item ∈ items
  ascending : firsts.Pairwise fun item other => items.idxOf item < items.idxOf other

namespace FirstOccurrences

variable {items firsts firsts' : List String}

theorem nodup (h : FirstOccurrences items firsts) : firsts.Nodup := by
  refine List.Pairwise.imp (S := (· ≠ ·)) (fun {item other} hlt => ?_) h.ascending
  rintro rfl
  exact Nat.lt_irrefl _ hlt

/-- There is only one such list. -/
theorem unique (h : FirstOccurrences items firsts) (h' : FirstOccurrences items firsts') :
    firsts = firsts' := by
  have hperm : firsts.Perm firsts' := (List.perm_ext_iff_of_nodup h.nodup h'.nodup).mpr
    fun item => (h.mem_iff item).trans (h'.mem_iff item).symm
  exact hperm.eq_of_pairwise (fun _ _ _ _ hlt hlt' => absurd hlt (Nat.lt_asymm hlt')) h.ascending
    h'.ascending

end FirstOccurrences

theorem firstOccurrences_eraseDups (items : List String) :
    FirstOccurrences items items.eraseDups := by
  refine ⟨fun item => List.mem_eraseDups, ?_⟩
  induction items using List.reverseRecOn with
  | nil => exact .nil
  | append_singleton items item ih =>
    have hkeep : items.eraseDups.Pairwise fun x y =>
        (items ++ [item]).idxOf x < (items ++ [item]).idxOf y :=
      ih.imp_of_mem fun hx hy hlt => by
        rwa [List.idxOf_append_of_mem (List.mem_eraseDups.mp hx),
          List.idxOf_append_of_mem (List.mem_eraseDups.mp hy)]
    rw [eraseDups_concat]
    split
    · exact hkeep
    · rename_i hnew
      refine List.pairwise_append.mpr ⟨hkeep, List.pairwise_singleton _ _, fun x hx y hy => ?_⟩
      have hmem := List.mem_eraseDups.mp hx
      rw [List.mem_singleton.mp hy, List.idxOf_append_of_mem hmem,
        List.idxOf_append_of_notMem hnew]
      exact Nat.lt_add_right _ (List.idxOf_lt_length_iff.mpr hmem)

/-- Items that do not repeat are their own first occurrences. -/
theorem firstOccurrences_self {items : List String} (h : items.Nodup) :
    FirstOccurrences items items := by
  refine ⟨fun _ => Iff.rfl, List.pairwise_iff_getElem.mpr fun i j hi hj hlt => ?_⟩
  rwa [h.idxOf_getElem, h.idxOf_getElem]

/-- **Items without repetitions are the items in the order in which they come first.** -/
theorem firstOccurrences_iff {items firsts : List String} :
    FirstOccurrences items firsts ↔ items.eraseDups = firsts :=
  ⟨(firstOccurrences_eraseDups items).unique, fun h => h ▸ firstOccurrences_eraseDups items⟩

/-! ### Ids -/

/-- The usable ids are the canonical forms of the usable values, without repetition. -/
theorem usableIds_eq (values : List Json) :
    usableIds values = ((values.filter fun value => Usable value).map canonical).eraseDups := by
  have hfilter : (values.filter isNamed).filter (fun value => canonical value != namespaceText) =
      values.filter fun value => Usable value := by
    rw [List.filter_filter]
    refine List.filter_congr fun value _ => ?_
    rw [Bool.eq_iff_iff, Bool.and_eq_true, bne_iff_ne, isNamed_iff, decide_eq_true_iff, Usable,
      and_comm, and_assoc]
  rw [usableIds, idsOf, List.filter_map, Function.comp_def, hfilter]

/-- A usable id is usable again. -/
theorem usable_of_mem_usableIds {values : List Json} {id : String} (h : id ∈ usableIds values) :
    Usable (.str id) ∧ canonical (.str id) = id := by
  obtain ⟨hne, value, -, -, rfl⟩ := mem_usableIds.mp h
  have hcanonical := canonical_canonical value
  have hshown : isAllBlank (canonical value) = false := by
    refine not_isAllBlank (c := 'm') ?_ (by decide)
    rw [canonical, String.toList_ofList]
    exact (prefix_canonicalText _).subset (by decide)
  exact ⟨⟨rfl, hshown, by rwa [hcanonical]⟩, hcanonical⟩

/-- **The ids of usable ids are these ids.** -/
theorem usableIds_usableIds (values : List Json) :
    usableIds ((usableIds values).map .str) = usableIds values := by
  have husable : ((usableIds values).map Json.str).filter (fun value => Usable value) =
      (usableIds values).map Json.str := by
    refine List.filter_eq_self.mpr fun value hv => ?_
    obtain ⟨id, hid, rfl⟩ := List.mem_map.mp hv
    exact decide_eq_true (usable_of_mem_usableIds hid).1
  have hcanonical : ((usableIds values).map Json.str).map canonical = usableIds values := by
    rw [List.map_map]
    exact (List.map_congr_left fun id hid => (usable_of_mem_usableIds hid).2).trans (List.map_id _)
  rw [usableIds_eq, husable, hcanonical]
  exact firstOccurrences_iff.mp (firstOccurrences_self (nodup_eraseDups _))

namespace Snapshot

variable {values : List Json} {s : Snapshot} {generation : ℕ} {version source : String}

/-- A snapshot can be built of values just if all of them can be written. -/
theorem exists_build_iff : (∃ s, build generation values version source = .ok s) ↔
    ∀ value ∈ values, value.HasText := by
  refine ⟨fun ⟨s, hs⟩ => ?_, fun h => ⟨_, build_of_hasText h generation version source⟩⟩
  by_contra h
  rw [build_of_not_hasText h] at hs
  cases hs

/-- What is built of values has the usable ids among them. -/
theorem ids_of_build (h : build generation values version source = .ok s) :
    s.ids = usableIds values := by
  rw [build_of_hasText (exists_build_iff.mp ⟨s, h⟩)] at h
  cases h
  rfl

end Snapshot

theorem mem_usableIds_iff {values : List Json} {id : String} :
    id ∈ usableIds values ↔ ∃ value ∈ values, Usable value ∧ canonical value = id := by
  rw [usableIds_eq, List.mem_eraseDups, List.mem_map]
  simp only [List.mem_filter, decide_eq_true_eq, and_assoc]

/-- **Canonical ids and the snapshots that are built of them are exact.** The canonical form of
every value is under the namespace, has neither a blank nor a hyphen in it, and is its own canonical
form. A snapshot can be built of every list of values that texts are read as, and of other values
just if all of them can be written, for which a whole number may be too long. The ids of a snapshot
that is built are the canonical forms of the usable values, each of them once, in the order in which
they come first; a snapshot of these ids has the same ids in the same order; and a snapshot of the
same values in another order has the same ids. What a snapshot has is a canonical form of a usable
value, and it has all of these. -/
theorem snapshots_built_exactly :
    (∀ value : Json, namespaceText.toList <+: (canonical value).toList ∧
      (∀ c ∈ (canonical value).toList, isBlank c = false ∧ c ≠ '-') ∧
      canonical (.str (canonical value)) = canonical value) ∧
    ∀ (values : List Json) (generation : ℕ) (version source : String),
      ((∀ value ∈ values, ∃ text, Json.read text = .ok value) →
        ∃ s, Snapshot.build generation values version source = .ok s) ∧
      ((∃ s, Snapshot.build generation values version source = .ok s) ↔
        ∀ value ∈ values, value.HasText) ∧
      ∀ s, Snapshot.build generation values version source = .ok s →
        (∀ ids, FirstOccurrences ((values.filter fun value => Usable value).map canonical) ids ↔
          s.ids = ids) ∧
        (∀ generation version source, ∃ s',
          Snapshot.build generation (s.ids.map .str) version source = .ok s' ∧ s'.ids = s.ids) ∧
        (∀ values', values.Perm values' → ∀ generation version source, ∃ s',
          Snapshot.build generation values' version source = .ok s' ∧
            ∀ id, id ∈ s'.ids ↔ id ∈ s.ids) ∧
        ∀ id, s.supports id = true ↔ ∃ value ∈ values, Usable value ∧ canonical value = id := by
  constructor
  · intro value
    refine ⟨?_, fun c hc => ?_, canonical_canonical value⟩
    · rw [canonical, String.toList_ofList]
      exact prefix_canonicalText _
    · rw [canonical, String.toList_ofList] at hc
      exact (isPlain_canonicalText _ c hc).2
  · intro values generation version source
    refine ⟨fun hread => Snapshot.exists_build_iff.mpr fun value hvalue => ?_,
      Snapshot.exists_build_iff, fun s hs => ?_⟩
    · obtain ⟨text, ht⟩ := hread value hvalue
      exact Json.hasText_of_read ht
    · have hids := Snapshot.ids_of_build hs
      have htext := Snapshot.exists_build_iff.mp ⟨s, hs⟩
      refine ⟨fun ids => ?_, fun generation version source => ?_,
        fun values' hperm generation version source => ?_, fun id => ?_⟩
      · rw [hids, usableIds_eq]
        exact firstOccurrences_iff
      · refine ⟨_, Snapshot.build_of_hasText (Json.hasText_strings s.ids) _ _ _, ?_⟩
        rw [hids]
        exact usableIds_usableIds values
      · have htext' : ∀ value ∈ values', value.HasText := fun value hvalue =>
          htext value (hperm.mem_iff.mpr hvalue)
        refine ⟨_, Snapshot.build_of_hasText htext' _ _ _, fun id => ?_⟩
        rw [hids, mem_usableIds_iff, mem_usableIds_iff]
        simp only [hperm.mem_iff]
      · rw [Snapshot.supports_iff, hids]
        exact mem_usableIds_iff

/-- Two spellings of one block, and values that are of no use. -/
def stock : List Json :=
  [.str " Oak  Planks", .null, .str "glass", .int 7, .str "oak-Planks", .str "\t",
   .str "MINECRAFT:"]

theorem snapshots_built_exactly_stock :
    ∃ s, Snapshot.build 0 stock "1" "yard" = .ok s ∧
      s.ids = ["minecraft:oak_planks", "minecraft:glass", "minecraft:7"] ∧
      ∃ s', Snapshot.build 1 stock.reverse "2" "yard" = .ok s' ∧
        "minecraft:oak_planks" ∈ s'.ids := by
  obtain ⟨hbuilt, -, hexact⟩ := snapshots_built_exactly.2 stock 0 "1" "yard"
  have hread : ∀ value ∈ stock, ∃ text, Json.read text = .ok value := by
    intro value hvalue
    have hw : Json.Writable Json.Reader.maxNesting value := by
      simp only [stock, List.mem_cons, List.not_mem_nil, or_false] at hvalue
      rcases hvalue with rfl | rfl | rfl | rfl | rfl | rfl | rfl
      case inr.inl => exact .null _
      case inr.inr.inr.inl => exact .int _ (by decide)
      all_goals exact .str _ _
    exact ⟨_, Json.read_compact hw [] nofun⟩
  obtain ⟨s, hs⟩ := hbuilt hread
  obtain ⟨-, -, hperm, -⟩ := hexact s hs
  have hids : s.ids = ["minecraft:oak_planks", "minecraft:glass", "minecraft:7"] := by
    rw [Snapshot.ids_of_build hs]
    decide +kernel
  obtain ⟨s', hs', hsame⟩ := hperm stock.reverse (List.reverse_perm _).symm 1 "2" "yard"
  refine ⟨s, hs, hids, s', hs', (hsame _).mpr ?_⟩
  rw [hids]
  exact List.mem_cons_self

end Catalog
end VoxelBlueprint
