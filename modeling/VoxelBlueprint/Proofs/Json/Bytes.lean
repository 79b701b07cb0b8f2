/-
# ASCII as bytes

A text of visible ASCII characters and spaces, which is what a written value is on one line, is
the same text again when it is read from its bytes: as UTF-8, after its line ends are unified,
and as the text of JSON whose encoding is told from its first bytes.

Key definitions: `Text.IsVisible`, `Text.asciiBytes`.
Key theorems: `Text.Utf8.decode_asciiBytes`, `Text.unifyNewlines_of_visible`,
`Json.textOfBytes?_asciiBytes`, `Json.isVisible_compact`.
-/
import VoxelBlueprint.Json.Bytes
import VoxelBlueprint.Proofs.Json.Written
import VoxelBlueprint.Proofs.Text.LineEnds

namespace VoxelBlueprint

namespace Text

/-- Whether the character is a visible one of ASCII, or a space. -/
def IsVisible (c : Char) : Prop :=
  0x20 ≤ c.toNat ∧ c.toNat < 0x7F

instance (c : Char) : Decidable (IsVisible c) :=
  inferInstanceAs (Decidable (_ ∧ _))

/-- The bytes of a text of ASCII characters. -/
def asciiBytes (text : List Char) : List UInt8 :=
  text.map fun c => UInt8.ofNat c.toNat

theorem toNat_asciiByte {c : Char} (h : IsVisible c) : (UInt8.ofNat c.toNat).toNat = c.toNat := by
  obtain ⟨-, h2⟩ := h
  rw [UInt8.toNat_ofNat']
  exact Nat.mod_eq_of_lt (by omega)

namespace Utf8

/-- The bytes of visible characters are UTF-8 of the same text. -/
theorem decodeFrom_asciiBytes : ∀ (text : List Char) (position : Nat) (before : List Char),
    (∀ c ∈ text, IsVisible c) →
      decodeFrom position before none (asciiBytes text) = .ok (before.reverse ++ text)
  | [], _, before, _ => by rw [List.append_nil]; rfl
  | c :: text, position, before, h => by
    obtain ⟨hc, ht⟩ := List.forall_mem_cons.mp h
    have hb : (UInt8.ofNat c.toNat).toNat < 0x80 := by
      rw [toNat_asciiByte hc]
      exact Nat.lt_succ_of_lt hc.2
    rw [asciiBytes, List.map_cons, decodeFrom, if_pos hb, toNat_asciiByte hc, Char.ofNat_toNat,
      ← asciiBytes, decodeFrom_asciiBytes text _ _ ht]
    simp

theorem decode_asciiBytes {text : List Char} (h : ∀ c ∈ text, IsVisible c) :
    decode (asciiBytes text) = .ok text :=
  decodeFrom_asciiBytes text 0 [] h

end Utf8

/-- There are no line ends to unify among visible characters. -/
theorem unifyNewlines_of_visible {text : List Char} (h : ∀ c ∈ text, IsVisible c) :
    unifyNewlines text = text :=
  unifyNewlinesAfter_unbroken fun c hc => by
    constructor
    · rintro rfl
      exact absurd (h _ hc) (by decide)
    · rintro rfl
      exact absurd (h _ hc) (by decide)

end Text

namespace Json

open Text

theorem asciiByte_ne {c : Char} (h : IsVisible c) {b : UInt8}
    (hb : ¬ (0x20 ≤ b.toNat ∧ b.toNat < 0x7F)) : UInt8.ofNat c.toNat ≠ b := by
  rintro rfl
  rw [toNat_asciiByte h] at hb
  exact hb h

/-- Visible characters as bytes are read as UTF-8 where the encoding is to be told. -/
theorem textOfBytes?_asciiBytes {text : List Char} (h : ∀ c ∈ text, IsVisible c) :
    textOfBytes? (asciiBytes text) = some text := by
  have hm : Encoding.marks.find? (·.1.isPrefixOf (asciiBytes text)) = none := by
    have hmarks : ∀ mark ∈ Encoding.marks, ∃ b bs, mark.1 = b :: bs ∧
        ¬ (0x20 ≤ b.toNat ∧ b.toNat < 0x7F) := by
      simp [Encoding.marks]
    refine List.find?_eq_none.mpr fun mark hmark => ?_
    obtain ⟨b, bs, hb, hn⟩ := hmarks mark hmark
    rw [hb]
    cases text with
    | nil => simp [asciiBytes]
    | cons c text =>
      have hne := asciiByte_ne (h c List.mem_cons_self) hn
      simp [asciiBytes, List.isPrefixOf_cons_cons, hne.symm]
  have hz : Encoding.ofZeros (asciiBytes text) = .utf8 := by
    have hne : ∀ b ∈ asciiBytes text, b ≠ 0 := by
      intro b hb
      obtain ⟨c, hc, rfl⟩ := List.mem_map.mp hb
      exact asciiByte_ne (h c hc) (by decide)
    unfold Encoding.ofZeros
    split
    · rename_i a b _ _ _ hb
      rw [if_neg (hne a (by simp [hb])), if_neg (hne b (by simp [hb]))]
    · rename_i a b hb
      rw [if_neg (hne a (by simp [hb])), if_neg (hne b (by simp [hb]))]
    · rfl
  unfold textOfBytes? Encoding.detect
  rw [hm]
  simp only [hz, Encoding.decode, Utf8.decode_asciiBytes h]
  rfl

/-! ### Written values -/

/-- Whether the characters of a written text are visible is found by looking at each. -/
theorem isVisible_of_all {text : List Char} (h : (text.all fun c => decide (IsVisible c)) = true) :
    ∀ c ∈ text, IsVisible c :=
  fun c hc => of_decide_eq_true (List.all_eq_true.mp h c hc)

theorem isVisible_unitEscape (n : Nat) : ∀ d ∈ unitEscape n, IsVisible d := by
  have hd : ∀ m < 16, IsVisible (hexDigit m) := by decide
  have hm (k : Nat) : IsVisible (hexDigit (k % 16)) := hd _ (Nat.mod_lt _ (by decide))
  rw [unitEscape, hexDigits_four]
  simp only [List.forall_mem_cons, hm, List.not_mem_nil, false_imp_iff, implies_true, and_true]
  decide

theorem isVisible_writtenChar (c : Char) : ∀ d ∈ writtenChar c, IsVisible d := by
  unfold writtenChar
  split
  · exact isVisible_of_all (by decide)
  · exact isVisible_of_all (by decide)
  · exact isVisible_of_all (by decide)
  · exact isVisible_of_all (by decide)
  · exact isVisible_of_all (by decide)
  · exact isVisible_of_all (by decide)
  · exact isVisible_of_all (by decide)
  · by_cases hp : 0x20 ≤ c.toNat ∧ c.toNat < 0x7F
    · rw [if_pos hp]
      exact List.forall_mem_singleton.mpr hp
    · by_cases hn : c.toNat < 0x10000
      · rw [if_neg hp, if_pos hn]
        exact isVisible_unitEscape _
      · rw [if_neg hp, if_neg hn]
        exact List.forall_mem_append.mpr ⟨isVisible_unitEscape _, isVisible_unitEscape _⟩

theorem isVisible_writtenText (s : String) : ∀ c ∈ (writtenText s).toList, IsVisible c := by
  rw [toList_writtenText, List.forall_mem_cons, List.forall_mem_append]
  refine ⟨by decide, fun d hd => ?_, isVisible_of_all (by decide)⟩
  obtain ⟨c, -, hc⟩ := List.mem_flatMap.mp hd
  exact isVisible_writtenChar c d hc

theorem isVisible_toString (n : Int) : ∀ c ∈ (toString n).toList, IsVisible c := by
  have hd : ∀ c ∈ Nat.toDigits 10 n.natAbs, IsVisible c := by
    intro c hc
    have h : 0x30 ≤ c.toNat ∧ c.toNat ≤ 0x39 := by
      have hdigit := Nat.isDigit_of_mem_toDigits (by decide) (by decide) hc
      simpa [Char.isDigit, UInt32.le_iff_toNat_le] using hdigit
    exact ⟨by omega, by omega⟩
  rw [toList_toString_int]
  by_cases hn : 0 ≤ n
  · rwa [if_pos hn]
  · rw [if_neg hn]
    exact List.forall_mem_cons.mpr ⟨by decide, hd⟩

theorem isVisible_intercalate {separator : List Char} (hs : ∀ c ∈ separator, IsVisible c) :
    ∀ {parts : List (List Char)}, (∀ part ∈ parts, ∀ c ∈ part, IsVisible c) →
      ∀ c ∈ List.intercalate separator parts, IsVisible c
  | [], _ => nofun
  | [part], h => by
    rw [List.intercalate_singleton]
    exact h part List.mem_cons_self
  | part :: next :: parts, h => by
    obtain ⟨hp, hps⟩ := List.forall_mem_cons.mp h
    rw [List.intercalate_cons_cons]
    exact List.forall_mem_append.mpr
      ⟨List.forall_mem_append.mpr ⟨hp, hs⟩, isVisible_intercalate hs hps⟩

/-- A writable value is written on one line in visible characters. -/
theorem isVisible_compact {depth : Nat} {value : Json} (h : Writable depth value) :
    ∀ c ∈ (compact value).toList, IsVisible c := by
  induction h with
  | null depth => exact isVisible_of_all (by decide)
  | bool depth value => cases value <;> exact isVisible_of_all (by decide)
  | int depth hn => exact isVisible_toString _
  | str depth text => exact isVisible_writtenText text
  | @arr depth items h ih =>
    rw [compact, compactItems_eq_map, String.toList_append, String.toList_append,
      String.toList_intercalate]
    refine List.forall_mem_append.mpr ⟨List.forall_mem_append.mpr
      ⟨isVisible_of_all (by decide), ?_⟩, isVisible_of_all (by decide)⟩
    refine isVisible_intercalate (isVisible_of_all (by decide)) fun part hpart => ?_
    simp only [List.map_map, List.mem_map, Function.comp] at hpart
    obtain ⟨item, hitem, rfl⟩ := hpart
    exact ih item hitem
  | @obj depth fields hn h ih =>
    rw [compact, compactFields_eq_map, String.toList_append, String.toList_append,
      String.toList_intercalate, List.map_map, toList_comp_field]
    refine List.forall_mem_append.mpr ⟨List.forall_mem_append.mpr
      ⟨isVisible_of_all (by decide), ?_⟩, isVisible_of_all (by decide)⟩
    refine isVisible_intercalate (isVisible_of_all (by decide)) fun part hpart => ?_
    obtain ⟨field, hfield, rfl⟩ := List.mem_map.mp hpart
    refine List.forall_mem_append.mpr ⟨isVisible_writtenText _, ?_⟩
    exact List.forall_mem_cons.mpr ⟨by decide, List.forall_mem_cons.mpr
      ⟨by decide, ih field hfield⟩⟩

end Json
end VoxelBlueprint
