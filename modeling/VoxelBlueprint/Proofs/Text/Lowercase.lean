/-
# Lower case is lower case already

The character that lower-casing puts in the place of another one has no lower-case form but
itself: the table leads out of itself, since a run of it shifted by its distance meets none
of its runs. So a text in lower case stays as it is when it is lower-cased again, whatever
the neighbours of its characters are.

Key definitions: `Text.IsLower`, `Text.LowerRun.avoids`.
Key theorems: `Text.isLower_lower`, `Text.lower_of_isLower`, `Text.lower_lower`.
-/
import Mathlib.Logic.Basic
import VoxelBlueprint.Text.Lowercase

namespace VoxelBlueprint
namespace Text

/-- Whether the character stays as it is in every text that is lower-cased. -/
def IsLower (c : Char) : Prop :=
  lowerChar c = c ∧ c ≠ 'İ' ∧ c ≠ 'Σ'

instance (c : Char) : Decidable (IsLower c) :=
  inferInstanceAs (Decidable (_ ∧ _ ∧ _))

/-! ### The table -/

namespace LowerRun

/-- The code point that takes the place of a member. -/
def target (r : LowerRun) (n : Nat) : Nat :=
  ((n : Int) + r.shift).toNat

/-- Whether what takes the place of the members of a run is no member of another one: it ends
before the other one starts, it starts after the other one ends, or the other one goes on by
two and it lies between the members. -/
def avoids (r q : LowerRun) : Bool :=
  (r.target r.last).blt q.first || q.last.blt (r.target r.first) ||
    ((r.stride.beq 2 || r.last.beq r.first) && q.stride.beq 2 &&
      !(r.target r.first % 2).beq (q.first % 2))

theorem contains_iff {r : LowerRun} {n : Nat} :
    r.contains n = true ↔ r.first ≤ n ∧ n ≤ r.last ∧ (n - r.first) % r.stride = 0 := by
  simp only [contains, Bool.and_eq_true, decide_eq_true_eq, beq_iff_eq, and_assoc]

theorem not_contains_target {r q : LowerRun} (h : r.avoids q = true)
    (hr : 0 < (r.first : Int) + r.shift) {n : Nat} (hn : r.contains n = true) :
    q.contains (r.target n) = false := by
  refine Bool.eq_false_iff.mpr fun hq => ?_
  obtain ⟨hn1, hn2, hn3⟩ := contains_iff.mp hn
  obtain ⟨hq1, hq2, hq3⟩ := contains_iff.mp hq
  simp only [avoids, target, Bool.or_eq_true, Bool.and_eq_true, Nat.blt_eq, Nat.beq_eq,
    Bool.not_eq_true'] at h
  unfold target at hq1 hq2 hq3
  rcases h with (h | h) | ⟨⟨hs, hq⟩, h⟩
  · omega
  · omega
  · have h := Nat.ne_of_beq_eq_false h
    rw [hq] at hq3
    rcases hs with hs | hs
    · rw [hs] at hn3
      omega
    · omega

end LowerRun

/-- The capital I with a dot above, which is in no run, as a run of its own. -/
def dottedI : LowerRun := ⟨0x130, 0x130, 1, 0⟩

/-- No run of the table leads to a member of a run, or to the capital I with a dot above. -/
theorem lowerRuns_avoid :
    (lowerRuns.all fun r => (dottedI :: lowerRuns).all r.avoids) = true := by
  decide +kernel

/-- Every run of the table leads to characters. -/
theorem lowerRuns_valid : ∀ r ∈ lowerRuns, 0 < (r.first : Int) + r.shift ∧
    ((r.last : Int) + r.shift < 0xD800 ∨ 0xDFFF < (r.first : Int) + r.shift ∧
      (r.last : Int) + r.shift < 0x110000) := by
  decide +kernel

/-- What takes the place of a member of a run is in no run, and no capital I with a dot above. -/
theorem not_contains_lowered {r : LowerRun} (hr : r ∈ lowerRuns) {n : Nat}
    (hn : r.contains n = true) :
    ∀ q ∈ dottedI :: lowerRuns, q.contains (Char.ofNat (r.target n)).toNat = false := by
  intro q hq
  obtain ⟨hpos, hv⟩ := lowerRuns_valid r hr
  have hvalid : (r.target n).isValidChar := by
    obtain ⟨h1, h2, -⟩ := LowerRun.contains_iff.mp hn
    unfold Nat.isValidChar LowerRun.target
    omega
  have hc : (Char.ofNat (r.target n)).toNat = r.target n := by
    rw [Char.ofNat, dif_pos hvalid]
    rfl
  rw [hc]
  exact LowerRun.not_contains_target
    (List.all_eq_true.mp (List.all_eq_true.mp lowerRuns_avoid r hr) q hq) hpos hn

/-! ### Characters -/

/-- A character that is in no run is in lower case. -/
theorem isLower_of_not_contains {c : Char}
    (h : ∀ q ∈ dottedI :: lowerRuns, q.contains c.toNat = false) : IsLower c := by
  obtain ⟨hi, hr⟩ := List.forall_mem_cons.mp h
  have hf : lowerRuns.find? (·.contains c.toNat) = none :=
    List.find?_eq_none.mpr fun q hq => by simp [hr q hq]
  refine ⟨by rw [lowerChar, hf], ?_, ?_⟩
  · rintro rfl
    exact absurd hi (by decide)
  · rintro rfl
    exact absurd hf (by decide)

theorem dottedI_contains {c : Char} (hc : c ≠ 'İ') : dottedI.contains c.toNat = false := by
  refine Bool.eq_false_iff.mpr fun hd => hc ?_
  obtain ⟨h1, h2, -⟩ := LowerRun.contains_iff.mp hd
  have hn : c.toNat = 0x130 := Nat.le_antisymm h2 h1
  rw [← Char.ofNat_toNat c, hn]

theorem isLower_lowerChar {c : Char} (hc : c ≠ 'İ') : IsLower (lowerChar c) := by
  unfold lowerChar
  cases hf : lowerRuns.find? (·.contains c.toNat) with
  | none =>
    refine isLower_of_not_contains (List.forall_mem_cons.mpr ⟨dottedI_contains hc, ?_⟩)
    intro q hq
    simpa using List.find?_eq_none.mp hf q hq
  | some r =>
    have hn : r.contains c.toNat = true := by simpa using List.find?_some hf
    exact isLower_of_not_contains (not_contains_lowered (List.mem_of_find?_eq_some hf) hn)

theorem isLower_lowerIn (afterCased : Bool) (c : Char) (rest : List Char) :
    ∀ d ∈ lowerIn afterCased c rest, IsLower d := by
  unfold lowerIn
  split
  · simp only [List.mem_cons, List.not_mem_nil, or_false, forall_eq_or_imp, forall_eq]
    exact ⟨by decide, by decide⟩
  · split
    · split <;> simp only [List.mem_singleton, forall_eq] <;> decide
    · simpa using isLower_lowerChar ‹_›

/-! ### Texts -/

theorem isLower_lowerAfter : ∀ (afterCased : Bool) (s : List Char),
    ∀ d ∈ lowerAfter afterCased s, IsLower d
  | _, [], d, hd => by cases hd
  | afterCased, c :: rest, d, hd => by
    rw [lowerAfter, List.mem_append] at hd
    rcases hd with hd | hd
    · exact isLower_lowerIn afterCased c rest d hd
    · exact isLower_lowerAfter _ rest d hd

theorem isLower_lower (s : List Char) : ∀ d ∈ lower s, IsLower d :=
  isLower_lowerAfter false s

theorem lowerAfter_of_isLower : ∀ (afterCased : Bool) {s : List Char}, (∀ c ∈ s, IsLower c) →
    lowerAfter afterCased s = s
  | _, [], _ => rfl
  | afterCased, c :: rest, h => by
    obtain ⟨⟨hc, hi, hs⟩, hr⟩ := List.forall_mem_cons.mp h
    rw [lowerAfter, lowerIn, if_neg hi, if_neg hs, hc, lowerAfter_of_isLower _ hr]
    rfl

/-- A text in lower case stays as it is. -/
theorem lower_of_isLower {s : List Char} (h : ∀ c ∈ s, IsLower c) : lower s = s :=
  lowerAfter_of_isLower false h

/-- Lower-casing a text again changes nothing. -/
theorem lower_lower (s : List Char) : lower (lower s) = lower s :=
  lower_of_isLower (isLower_lower s)

end Text
end VoxelBlueprint
