/-
# Documents do not depend on how lines end

The text inside a fence is found in the same place whatever ends the lines of the text, and it
holds the same document. So it does not matter to an expansion whether the line ends of a text
were unified before.

Key theorems: `Document.unfenced_unifyNewlines`, `Document.decode_unifyNewlines`.
-/
import VoxelBlueprint.Document
import VoxelBlueprint.Proofs.Json.LineEnds

namespace VoxelBlueprint
namespace Document

open Text

theorem unbroken_fence : Unbroken fence := by
  decide

/-- A run that does not take backticks ends in front of a fence. -/
theorem dropWhile_append_fence {isMember : Char → Bool} (h : isMember '\x60' = false)
    (s : List Char) : (s ++ fence).dropWhile isMember = s.dropWhile isMember ++ fence := by
  have hfence : fence.dropWhile isMember = fence := List.dropWhile_cons_of_neg (by simp [h])
  rw [List.dropWhile_append, hfence]
  split
  · rename_i he
    rw [List.isEmpty_iff.mp he, List.nil_append]
  · rfl

/-- What stands inside a fence is what follows the tag, without the blanks around it. -/
theorem fenced?_fence (s : List Char) :
    fenced? (fence ++ (s ++ fence)) = some (strip (s.dropWhile isTagChar)) := by
  have hprefix : fence.isPrefixOf (fence ++ (s ++ fence)) = true :=
    List.isPrefixOf_iff_prefix.mpr (List.prefix_append _ _)
  have hsuffix : fence.isSuffixOf (s ++ fence) = true :=
    List.isSuffixOf_iff_suffix.mpr (List.suffix_append _ _)
  rw [fenced?, List.drop_left, hprefix, hsuffix, dropWhile_append_fence (by decide)]
  simp

theorem fenced?_eq_none {text : List Char} (h : ∀ s, text ≠ fence ++ (s ++ fence)) :
    fenced? text = none := by
  rw [fenced?, if_neg]
  rw [Bool.and_eq_true, List.isPrefixOf_iff_prefix, List.isSuffixOf_iff_suffix]
  rintro ⟨⟨r, rfl⟩, hs⟩
  rw [List.drop_left] at hs
  obtain ⟨s, rfl⟩ := hs
  exact h s rfl

/-- A tag ends in front of a line end. -/
theorem dropWhile_isTagChar_unifyNewlines (s : List Char) :
    (unifyNewlines s).dropWhile isTagChar = unifyNewlines (s.dropWhile isTagChar) := by
  induction s with
  | nil => rfl
  | cons c s ih =>
    by_cases hc : isTagChar c = true
    · have hn : c ≠ '\n' ∧ c ≠ '\r' := by
        constructor
        · rintro rfl
          revert hc
          decide
        · rintro rfl
          revert hc
          decide
      rw [unifyNewlines, unifyNewlinesAfter_plain hn.1 hn.2, List.dropWhile_cons_of_pos hc,
        List.dropWhile_cons_of_pos hc]
      exact ih
    · rw [List.dropWhile_cons_of_neg hc]
      rcases unifyNewlinesAfter_cons false c with ⟨hf, -⟩ | ⟨d, hd, h⟩
      · cases hf
      · have hd : isTagChar d = false := by
          rcases hd with rfl | ⟨rfl, -, -⟩
          · decide
          · simpa using hc
        rw [unifyNewlines, h, List.dropWhile_cons_of_neg (by simp [hd])]

theorem fenced?_unifyNewlines (text : List Char) :
    fenced? (unifyNewlines text) = (fenced? text).map unifyNewlines := by
  by_cases h : ∃ s, text = fence ++ (s ++ fence)
  · obtain ⟨s, rfl⟩ := h
    rw [unifyNewlines_unbroken_append unbroken_fence, unifyNewlines, unifyNewlinesAfter_append,
      unifyNewlinesAfter_unbroken unbroken_fence, fenced?_fence, fenced?_fence, ← unifyNewlines,
      dropWhile_isTagChar_unifyNewlines, Option.map_some, ← strip_unifyNewlines, unifyNewlines]
  · rw [fenced?_eq_none (not_exists.mp h), fenced?_eq_none, Option.map_none]
    intro y hy
    obtain ⟨r, rfl, hr⟩ := prefix_of_unifyNewlines unbroken_fence hy
    have hs : fence <:+ unifyNewlines r := hr ▸ List.suffix_append _ _
    obtain ⟨s, rfl⟩ := (suffix_unifyNewlinesAfter unbroken_fence).mp hs
    exact h ⟨s, rfl⟩

/-- The text inside a fence is found in the same place whatever ends the lines. -/
theorem unfenced_unifyNewlines (text : List Char) :
    unfenced (unifyNewlines text) = unifyNewlines (unfenced text) := by
  unfold unfenced
  rw [unifyNewlines, strip_unifyNewlines]
  simp only [fenced?_unifyNewlines]
  cases fenced? (strip text) <;> rfl

/-- **A text holds the same document when its line ends are unified**, or none both times. -/
theorem decode_unifyNewlines (text : List Char) :
    (decode (unifyNewlines text)).toOption = (decode text).toOption := by
  unfold decode
  rw [all_isBlank_unifyNewlines, unfenced_unifyNewlines]
  have hread := Json.read_unifyNewlines (unfenced text)
  split
  · rfl
  · cases h : Json.read (unfenced text) with
    | error fault =>
      rw [h] at hread
      cases h' : Json.read (unifyNewlines (unfenced text)) with
      | error fault' => rfl
      | ok value =>
        rw [h'] at hread
        cases hread
    | ok value =>
      rw [h] at hread
      rw [Effects.toOption_eq_some.mp hread]

end Document
end VoxelBlueprint
