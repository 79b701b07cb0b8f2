/-
# Sound snapshots

A snapshot can be built of values that can all be written as texts, and it has the ids that are
usable among them. It is sound when it has an id, has none twice, and all of them are canonical and
more than the bare namespace. Whatever is built from values among which there is a usable
id is sound, and so is the palette. A sound snapshot has a block for every type.

Key definitions: `Catalog.usableIds`, `Catalog.Snapshot.Sound`.
Key theorems: `Catalog.namedValues?_eq`, `Catalog.mem_usableIds`,
`Catalog.Snapshot.build_of_hasText`, `Catalog.Snapshot.sound_of_usableIds`,
`Catalog.Snapshot.sound_ofPalette`, `Catalog.Snapshot.resolve_mem`.
-/
import VoxelBlueprint.Catalog.Snapshot
import VoxelBlueprint.Proofs.Catalog.BlockId

namespace VoxelBlueprint

/-- A name at the end counts only if it is not there already. -/
theorem eraseDups_concat (names : List String) (name : String) :
    (names ++ [name]).eraseDups =
      if name ∈ names then names.eraseDups else names.eraseDups ++ [name] := by
  rw [List.eraseDups_append]
  by_cases h : name ∈ names <;> simp [h, List.removeAll, List.eraseDups_cons]

/-- Strings are texts. -/
theorem Json.hasText_strings (texts : List String) : ∀ value ∈ texts.map Json.str, value.HasText :=
  List.forall_mem_map.mpr fun _ _ => rfl

namespace Catalog

/-! ### Values that name a block -/

/-- Whether a value names a block, as far as it can be told. -/
def isNamed (value : Json) : Bool :=
  (isNamed? value).getD true

theorem isNamed?_of_hasText {value : Json} (h : value.HasText) :
    isNamed? value = some (isNamed value) := by
  have hsome : (isNamed? value).isSome = true := by
    unfold isNamed?
    split
    · rfl
    · rw [Option.isSome_map]
      exact h
  obtain ⟨named, hn⟩ := Option.isSome_iff_exists.mp hsome
  rw [isNamed, hn]
  rfl

theorem isNamed?_of_not_hasText {value : Json} (h : ¬ value.HasText) : isNamed? value = none := by
  have hn : value.written? = none := by
    rw [← Option.not_isSome_iff_eq_none]
    exact h
  unfold isNamed?
  split
  · exact absurd rfl h
  · rw [hn]
    rfl

/-- It can be told which values name a block just if all of them can be written. -/
theorem namedValues?_eq (values : List Json) : namedValues? values =
    if ∀ value ∈ values, value.HasText then some (values.filter isNamed) else none := by
  induction values with
  | nil => rfl
  | cons value values ih =>
    rw [namedValues?, ih]
    simp only [List.forall_mem_cons]
    by_cases hv : value.HasText
    · rw [isNamed?_of_hasText hv, List.filter_cons]
      by_cases hr : ∀ value ∈ values, value.HasText
      · rw [if_pos hr, if_pos ⟨hv, hr⟩]
        rfl
      · rw [if_neg hr, if_neg (mt And.right hr)]
        rfl
    · rw [isNamed?_of_not_hasText hv, if_neg (mt And.left hv)]
      rfl

/-- The canonical ids among values, in order and without repetition. -/
def usableIds (values : List Json) : List String :=
  idsOf (values.filter isNamed)

/-- In a list without repetitions no item occurs twice. -/
theorem nodup_eraseDups : ∀ ids : List String, ids.eraseDups.Nodup
  | [] => List.nodup_nil
  | id :: ids => by
    rw [List.eraseDups_cons]
    refine List.nodup_cons.mpr ⟨fun h => ?_, nodup_eraseDups _⟩
    have := (List.mem_filter.mp (List.mem_eraseDups.mp h)).2
    simp at this
termination_by ids => ids.length
decreasing_by exact Nat.lt_succ_of_le (List.length_filter_le _ _)

/-- The usable ids are the canonical forms of the values that name a block. -/
theorem mem_usableIds {values : List Json} {id : String} : id ∈ usableIds values ↔
    id ≠ namespaceText ∧ ∃ value ∈ values, isNamed value = true ∧ canonical value = id := by
  unfold usableIds idsOf
  simp only [List.mem_eraseDups, List.mem_filter, List.mem_map, bne_iff_ne, and_assoc]
  exact and_comm

namespace Snapshot

/-- What every snapshot of a store keeps to. -/
structure Sound (s : Snapshot) : Prop where
  ids_ne_nil : s.ids ≠ []
  nodup : s.ids.Nodup
  canonical_eq : ∀ id ∈ s.ids, canonical (.str id) = id
  ne_namespace : ∀ id ∈ s.ids, id ≠ namespaceText

variable {s : Snapshot}

theorem supports_iff (id : String) : s.supports id = true ↔ id ∈ s.ids :=
  List.contains_iff_mem

/-- The fallback of a snapshot with an id is one of its ids. -/
theorem fallback_mem (h : s.ids ≠ []) : s.fallback ∈ s.ids := by
  unfold fallback
  split
  · exact (supports_iff _).mp ‹_›
  · obtain ⟨id, ids, hs⟩ := List.exists_cons_of_ne_nil h
    rw [hs]
    exact List.mem_cons_self

/-- Which id is the fallback depends on the ids alone. -/
theorem fallback_congr {s' : Snapshot} (h : s.ids = s'.ids) : s.fallback = s'.fallback := by
  unfold fallback supports
  rw [h]

/-- A snapshot with an id has a block for every type. -/
theorem resolve_mem (h : s.ids ≠ []) (id : String) : s.resolve id ∈ s.ids := by
  unfold resolve
  split
  · exact (supports_iff _).mp ‹_›
  · exact fallback_mem h

/-! ### Snapshots that are built -/

theorem build_of_hasText {values : List Json} (h : ∀ value ∈ values, value.HasText)
    (generation : Nat) (version source : String) :
    build generation values version source =
      .ok { ids := usableIds values, version, source, generation } := by
  rw [build, namedValues?_eq, if_pos h]
  rfl

theorem build_of_not_hasText {values : List Json} (h : ¬ ∀ value ∈ values, value.HasText)
    (generation : Nat) (version source : String) :
    build generation values version source = .error .longInteger := by
  rw [build, namedValues?_eq, if_neg h]

/-- A snapshot that has the usable ids among values, of which there is one, is sound. -/
theorem sound_of_usableIds {values : List Json} (hs : s.ids = usableIds values)
    (h : usableIds values ≠ []) : s.Sound := by
  refine ⟨hs ▸ h, hs ▸ nodup_eraseDups _, fun id hid => ?_, fun id hid => ?_⟩
  · obtain ⟨-, value, -, -, rfl⟩ := mem_usableIds.mp (hs ▸ hid)
    exact canonical_canonical value
  · exact (mem_usableIds.mp (hs ▸ hid)).1

theorem usableIds_palette : usableIds (palette.map .str) = idsOf (palette.map .str) := by
  have h : (palette.map Json.str).filter isNamed = palette.map .str :=
    List.filter_eq_self.mpr
      (List.forall_mem_map.mpr (List.all_eq_true.mp (by decide +kernel)))
  rw [usableIds, h]

/-- The snapshot of the palette is the one that is built of it. -/
theorem build_palette (generation : Nat) :
    build generation (palette.map .str) "builtin" "fallback" = .ok (ofPalette generation) := by
  rw [build_of_hasText (Json.hasText_strings palette), usableIds_palette]
  rfl

theorem sound_ofPalette (generation : Nat) : (ofPalette generation).Sound := by
  have h : defaultBlock ∈ usableIds (palette.map .str) :=
    mem_usableIds.mpr ⟨by decide, .str defaultBlock, by simp [palette, defaultBlock],
      by decide +kernel, by decide +kernel⟩
  have hs : (ofPalette generation).ids = usableIds (palette.map .str) := by
    rw [usableIds_palette, ofPalette]
  exact sound_of_usableIds hs (List.ne_nil_of_mem h)

end Snapshot
end Catalog
end VoxelBlueprint
