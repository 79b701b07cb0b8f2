/-
# The case of ASCII letters

An ASCII letter is lower-cased as the other one of its pair is, and it has the same part in the
words around it. So texts that are the same but for the case of ASCII letters have the same
lower-case form, whatever other characters are in them.

Key definition: `Text.foldCase`.
Key theorems: `Text.sameCase_toLower`, `Text.lower_foldCase`.
-/
import VoxelBlueprint.Text.Lowercase

namespace VoxelBlueprint
namespace Text

/-- The text with its ASCII letters in lower case, and all else as it is. -/
def foldCase (s : List Char) : List Char :=
  s.map Char.toLower

/-- Whether lower-casing makes the same of two characters, and of what stands around them. -/
structure SameCase (c d : Char) : Prop where
  lowerChar : lowerChar c = lowerChar d
  isCased : isCased c = isCased d
  isCaseIgnorable : isCaseIgnorable c = isCaseIgnorable d
  dottedI : c = 'İ' ↔ d = 'İ'
  sigma : c = 'Σ' ↔ d = 'Σ'

instance (c d : Char) : Decidable (SameCase c d) :=
  decidable_of_iff (Text.lowerChar c = Text.lowerChar d ∧ Text.isCased c = Text.isCased d ∧
      Text.isCaseIgnorable c = Text.isCaseIgnorable d ∧ (c = 'İ' ↔ d = 'İ') ∧ (c = 'Σ' ↔ d = 'Σ'))
    ⟨fun ⟨h₁, h₂, h₃, h₄, h₅⟩ => ⟨h₁, h₂, h₃, h₄, h₅⟩,
      fun ⟨h₁, h₂, h₃, h₄, h₅⟩ => ⟨h₁, h₂, h₃, h₄, h₅⟩⟩

theorem sameCase_toLower_capital :
    ∀ i < 26, SameCase (Char.ofNat (65 + i)).toLower (Char.ofNat (65 + i)) := by
  decide +kernel

theorem sameCase_toLower (c : Char) : SameCase c.toLower c := by
  by_cases hc : 65 ≤ c.toNat ∧ c.toNat ≤ 90
  · have := sameCase_toLower_capital (c.toNat - 65) (by omega)
    rwa [Nat.add_sub_cancel' hc.1, Char.ofNat_toNat] at this
  · have hlower : c.toLower = c := dif_neg fun ⟨hge, hle⟩ => by
      have hge : 65 ≤ c.toNat := UInt32.le_iff_toNat_le.mp hge
      have hle : c.toNat ≤ 90 := UInt32.le_iff_toNat_le.mp hle
      exact hc ⟨hge, hle⟩
    rw [hlower]
    exact ⟨rfl, rfl, rfl, Iff.rfl, Iff.rfl⟩

theorem startsCased_foldCase (s : List Char) : startsCased (foldCase s) = startsCased s := by
  induction s with
  | nil => rfl
  | cons c s ih =>
    have hc := sameCase_toLower c
    unfold startsCased at ih ⊢
    by_cases hi : isCaseIgnorable c = true
    · rw [foldCase, List.map_cons, List.dropWhile_cons_of_pos (hc.isCaseIgnorable.trans hi),
        List.dropWhile_cons_of_pos hi]
      exact ih
    · rw [foldCase, List.map_cons, List.dropWhile_cons_of_neg (by rwa [hc.isCaseIgnorable]),
        List.dropWhile_cons_of_neg hi]
      exact hc.isCased

theorem lowerAfter_foldCase : ∀ (afterCased : Bool) (s : List Char),
    lowerAfter afterCased (foldCase s) = lowerAfter afterCased s
  | _, [] => rfl
  | afterCased, c :: s => by
    have hc := sameCase_toLower c
    have hin : lowerIn afterCased c.toLower (foldCase s) = lowerIn afterCased c s := by
      simp only [lowerIn, hc.dottedI, hc.sigma, hc.lowerChar, startsCased_foldCase]
    rw [foldCase, List.map_cons, lowerAfter, lowerAfter, hc.isCaseIgnorable, hc.isCased,
      ← foldCase, hin, lowerAfter_foldCase]

/-- **The case of ASCII letters does not matter to the lower-case form of a text.** -/
theorem lower_foldCase (s : List Char) : lower (foldCase s) = lower s :=
  lowerAfter_foldCase false s

end Text
end VoxelBlueprint
