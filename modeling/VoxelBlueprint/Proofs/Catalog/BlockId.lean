/-
# Canonical block ids

What a canonical block id looks like: it is under the namespace, and its characters are in
lower case, not blank and no hyphens. A text that looks like this is its own canonical form,
so canonical ids stay as they are when they are made canonical again.

Key definition: `Catalog.IsPlain`.
Key theorems: `Catalog.isPlain_canonicalText`, `Catalog.canonicalText_of_isPlain`,
`Catalog.canonical_canonical`.
-/
import Mathlib.Logic.Basic
import VoxelBlueprint.Catalog.BlockId
import VoxelBlueprint.Proofs.Text.Lowercase

namespace VoxelBlueprint

namespace Text

/-- A text without blanks has none at its ends. -/
theorem strip_of_not_blank {s : List Char} (h : ∀ c ∈ s, isBlank c = false) : strip s = s := by
  have hd {s : List Char} (h : ∀ c ∈ s, isBlank c = false) : s.dropWhile isBlank = s := by
    cases s with
    | nil => rfl
    | cons c s => rw [List.dropWhile_cons, if_neg (by simp [h c List.mem_cons_self])]
  rw [strip, stripRight, stripLeft, hd h, hd fun c hc => h c (List.mem_reverse.mp hc),
    List.reverse_reverse]

end Text

namespace Catalog

open Text

/-- Whether the character may stand in a canonical id. -/
def IsPlain (c : Char) : Prop :=
  IsLower c ∧ isBlank c = false ∧ c ≠ '-'

instance (c : Char) : Decidable (IsPlain c) :=
  inferInstanceAs (Decidable (_ ∧ _ ∧ _))

/-! ### Blanks, hyphens and the namespace -/

theorem mem_joinBlanks : ∀ {afterBlank : Bool} {s : List Char} {c : Char},
    c ∈ joinBlanks afterBlank s → c = '_' ∨ c ∈ s ∧ isBlank c = false
  | afterBlank, d :: s, c, h => by
    have later {afterBlank : Bool} (h : c ∈ joinBlanks afterBlank s) :
        c = '_' ∨ c ∈ d :: s ∧ isBlank c = false :=
      (mem_joinBlanks h).imp id fun ⟨hm, hb⟩ => ⟨List.mem_cons_of_mem _ hm, hb⟩
    rw [joinBlanks] at h
    split at h
    · split at h
      · exact later h
      · rcases List.mem_cons.mp h with rfl | h
        · exact .inl rfl
        · exact later h
    · rename_i hb
      rcases List.mem_cons.mp h with rfl | h
      · exact .inr ⟨List.mem_cons_self, by simpa using hb⟩
      · exact later h

theorem joinBlanks_of_not_blank : ∀ (afterBlank : Bool) {s : List Char},
    (∀ c ∈ s, isBlank c = false) → joinBlanks afterBlank s = s
  | _, [], _ => rfl
  | afterBlank, c :: s, h => by
    obtain ⟨hc, hs⟩ := List.forall_mem_cons.mp h
    rw [joinBlanks, if_neg (by simp [hc]), joinBlanks_of_not_blank false hs]

theorem isPlain_plainChar {c : Char} (h : IsLower c) (hb : isBlank c = false) :
    IsPlain (plainChar c) := by
  unfold plainChar
  split
  · decide +kernel
  · exact ⟨h, hb, ‹_›⟩

theorem isPlain_qualify {s : List Char} (h : ∀ c ∈ s, IsPlain c) : ∀ c ∈ qualify s, IsPlain c := by
  have hn : (namespaceText.toList.all fun c => decide (IsPlain c)) = true := by decide +kernel
  unfold qualify
  split
  · exact h
  · refine List.forall_mem_append.mpr ⟨fun c hc => ?_, h⟩
    exact of_decide_eq_true (List.all_eq_true.mp hn c hc)

theorem prefix_qualify (s : List Char) : namespaceText.toList <+: qualify s := by
  unfold qualify
  split
  · exact List.isPrefixOf_iff_prefix.mp ‹_›
  · exact List.prefix_append _ _

theorem qualify_of_prefix {s : List Char} (h : namespaceText.toList <+: s) : qualify s = s :=
  if_pos (List.isPrefixOf_iff_prefix.mpr h)

/-! ### Canonical forms -/

theorem isPlain_canonicalText (s : List Char) : ∀ c ∈ canonicalText s, IsPlain c := by
  refine isPlain_qualify fun c hc => ?_
  obtain ⟨d, hd, rfl⟩ := List.mem_map.mp hc
  rcases mem_joinBlanks hd with rfl | ⟨hd, hb⟩
  · decide +kernel
  · exact isPlain_plainChar (isLower_lower _ d hd) hb

theorem prefix_canonicalText (s : List Char) : namespaceText.toList <+: canonicalText s :=
  prefix_qualify _

/-- A text under the namespace that has only characters of canonical ids is one. -/
theorem canonicalText_of_isPlain {s : List Char} (h : ∀ c ∈ s, IsPlain c)
    (hn : namespaceText.toList <+: s) : canonicalText s = s := by
  have hb : ∀ c ∈ s, isBlank c = false := fun c hc => (h c hc).2.1
  have hp : s.map plainChar = s :=
    (List.map_congr_left fun c hc => (if_neg (h c hc).2.2 : plainChar c = id c)).trans s.map_id
  rw [canonicalText, strip_of_not_blank hb, lower_of_isLower fun c hc => (h c hc).1,
    joinBlanks_of_not_blank false hb, hp, qualify_of_prefix hn]

/-- **A canonical id is its own canonical form.** -/
theorem canonical_canonical (value : Json) :
    canonical (.str (canonical value)) = canonical value := by
  show String.ofList (canonicalText (canonical value).toList) = canonical value
  unfold canonical
  rw [String.toList_ofList,
    canonicalText_of_isPlain (isPlain_canonicalText _) (prefix_canonicalText _)]

end Catalog
end VoxelBlueprint
