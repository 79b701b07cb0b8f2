/-
# Strings and whole numbers are read as they are written

A string is written in ASCII, with a code for every other character, and read back as the
same string: each character on its own, a pair of units as one character. A whole number of
no more digits than may be read is read back as itself where nothing behind it would
lengthen it.

Key definition: `Json.Closes`.
Key theorems: `Json.readText_writtenChar`, `Json.lexeme_writtenText`, `Json.readScalar_int`.
-/
import Mathlib.Data.List.Basic
import Mathlib.Data.Nat.Digits.Defs
import VoxelBlueprint.Json.Lexeme
import VoxelBlueprint.Json.Writer
import VoxelBlueprint.Proofs.Text.Strip

namespace VoxelBlueprint

namespace Text

theorem hexValue?_hexDigit : ∀ d < 16, hexValue? (hexDigit d) = some d := by
  decide

theorem hexDigits_four (n : Nat) :
    hexDigits 4 n =
      [hexDigit (n / 4096 % 16), hexDigit (n / 256 % 16), hexDigit (n / 16 % 16),
       hexDigit (n % 16)] := by
  simp [hexDigits, Nat.div_div_eq_div_mul]

namespace Utf16

/-- The numbers of characters leave out the units that make up pairs. -/
theorem toNat_valid (c : Char) : c.toNat < 0xD800 ∨ 0xDFFF < c.toNat ∧ c.toNat < 0x110000 :=
  c.valid

/-- No character is half a pair of units. -/
theorem unitChar_toNat (c : Char) : isHighUnit c.toNat = false ∧ unitChar c.toNat = c := by
  have hv := toNat_valid c
  have hh : isHighUnit c.toNat = false := by
    rw [isHighUnit, Bool.and_eq_false_iff, decide_eq_false_iff_not, decide_eq_false_iff_not]
    omega
  have hl : isLowUnit c.toNat = false := by
    rw [isLowUnit, Bool.and_eq_false_iff, decide_eq_false_iff_not, decide_eq_false_iff_not]
    omega
  refine ⟨hh, ?_⟩
  rw [unitChar, hh, hl, Bool.or_false, if_neg Bool.false_ne_true, Char.ofNat_toNat]

/-- A character beyond the units is a pair of them. -/
theorem pairedChar_toNat {c : Char} (h : 0x10000 ≤ c.toNat) :
    (c.toNat - 0x10000) / 0x400 < 0x400 ∧
      isHighUnit (0xD800 + (c.toNat - 0x10000) / 0x400) = true ∧
      isLowUnit (0xDC00 + (c.toNat - 0x10000) % 0x400) = true ∧
      pairedChar (0xD800 + (c.toNat - 0x10000) / 0x400)
        (0xDC00 + (c.toNat - 0x10000) % 0x400) = c := by
  have hv := toNat_valid c
  refine ⟨by omega, ?_, ?_, ?_⟩
  · rw [isHighUnit, Bool.and_eq_true, decide_eq_true_eq, decide_eq_true_eq]
    omega
  · rw [isLowUnit, Bool.and_eq_true, decide_eq_true_eq, decide_eq_true_eq]
    omega
  · have hc : 0x10000 + (0xD800 + (c.toNat - 0x10000) / 0x400 - 0xD800) * 0x400 +
        (0xDC00 + (c.toNat - 0x10000) % 0x400 - 0xDC00) = c.toNat := by omega
    rw [pairedChar, hc, Char.ofNat_toNat]

end Utf16
end Text

namespace Json

open Text Text.Utf16

/-! ### Strings -/

theorem hexQuad?_hexDigit {n : Nat} (h : n < 0x10000) :
    hexQuad? (hexDigit (n / 4096 % 16)) (hexDigit (n / 256 % 16)) (hexDigit (n / 16 % 16))
      (hexDigit (n % 16)) = some n := by
  have hd (m : Nat) : hexValue? (hexDigit (m % 16)) = some (m % 16) :=
    hexValue?_hexDigit _ (Nat.mod_lt _ (by decide))
  simp only [hexQuad?, List.mapM_cons, List.mapM_nil, hd, Option.pure_def, Option.bind_eq_bind,
    Option.bind_some, List.foldl_cons, List.foldl_nil, Option.some.injEq]
  omega

section Characters

variable (start position : Nat) (content : List Char) {rest : List Char}

theorem readText_plain {c : Char} (hq : c ≠ '\x22') (hb : c ≠ '\\') (hc : 0x20 ≤ c.toNat) :
    readText start position content (c :: rest) =
      readText start (position + 1) (c :: content) rest := by
  rw [readText]
  · rw [if_neg (by omega)]
  all_goals simp_all

theorem readText_letter {c d : Char} (h : unescape? c = some d) :
    readText start position content ('\\' :: c :: rest) =
      readText start (position + 2) (d :: content) rest := by
  have hu : c ≠ 'u' := by
    rintro rfl
    cases h
  rw [readText]
  · rw [h]
  all_goals simp_all

/-- A unit is read by itself, unless it is the first of a pair and the second one follows. -/
theorem readText_unit {a b c d : Char} {n : Nat} (h : hexQuad? a b c d = some n)
    (hs : isHighUnit n = true → ∀ e f g i after behind,
      rest = '\\' :: 'u' :: e :: f :: g :: i :: after :: behind →
        ∃ low, hexQuad? e f g i = some low ∧ isLowUnit low = false)
    (hr : rest ≠ []) :
    readText start position content ('\\' :: 'u' :: a :: b :: c :: d :: rest) =
      readText start (position + 6) (unitChar n :: content) rest := by
  obtain ⟨next, rest, rfl⟩ := List.exists_cons_of_ne_nil hr
  -- a unit behind it is looked for before it is known that this one is single
  by_cases hp : ∃ e f g i after behind,
      next :: rest = '\\' :: 'u' :: e :: f :: g :: i :: after :: behind
  · obtain ⟨e, f, g, i, after, behind, hn⟩ := hp
    rw [hn, readText, h]
    by_cases hh : isHighUnit n = true
    · obtain ⟨low, hlow, hl⟩ := hs hh e f g i after behind hn
      simp only [hh, if_true, hlow, hl, Bool.false_eq_true, if_false]
    · simp only [if_neg hh]
  · rw [readText, h]
    intro e f g i after behind hn ht
    exact hp ⟨e, f, g, i, after, behind, by rw [hn, ht]⟩

/-- A pair of units is read as one character. -/
theorem readText_pair {a b c d e f g i : Char} {high low : Nat} (h : hexQuad? a b c d = some high)
    (hh : isHighUnit high = true) (h' : hexQuad? e f g i = some low) (hl : isLowUnit low = true)
    (hr : rest ≠ []) :
    readText start position content
        ('\\' :: 'u' :: a :: b :: c :: d :: '\\' :: 'u' :: e :: f :: g :: i :: rest) =
      readText start (position + 12) (pairedChar high low :: content) rest := by
  obtain ⟨next, rest, rfl⟩ := List.exists_cons_of_ne_nil hr
  rw [readText, h, h']
  simp only [hh, hl, if_true]

/-- Whatever character is written is read back. -/
theorem readText_writtenChar (c : Char) (hr : rest ≠ []) :
    readText start position content (writtenChar c ++ rest) =
      readText start (position + (writtenChar c).length) (c :: content) rest := by
  unfold writtenChar
  split
  · exact readText_letter _ _ _ rfl
  · exact readText_letter _ _ _ rfl
  · exact readText_letter _ _ _ rfl
  · exact readText_letter _ _ _ rfl
  · exact readText_letter _ _ _ rfl
  · exact readText_letter _ _ _ rfl
  · exact readText_letter _ _ _ rfl
  · by_cases hp : 0x20 ≤ c.toNat ∧ c.toNat < 0x7F
    · simp only [if_pos hp]
      exact readText_plain _ _ _ ‹_› ‹_› hp.1
    · by_cases hn : c.toNat < 0x10000
      · obtain ⟨hu, hc⟩ := unitChar_toNat c
        simp only [if_neg hp, if_pos hn, unitEscape, hexDigits_four]
        exact (readText_unit _ _ _ (hexQuad?_hexDigit hn) (by simp [hu]) hr).trans
          (by rw [hc]; rfl)
      · obtain ⟨hb, hh, hl, hc⟩ := pairedChar_toNat (Nat.le_of_not_lt hn)
        simp only [if_neg hp, if_neg hn, unitEscape, hexDigits_four, List.cons_append,
          List.nil_append, List.length_cons, List.length_nil]
        rw [readText_pair _ _ _ (hexQuad?_hexDigit (by omega)) hh
          (hexQuad?_hexDigit (by omega)) hl hr, hc]

end Characters

/-- What is written of a string is read up to its closing mark. -/
theorem readText_written (start : Nat) (rest : List Char) : ∀ (s : List Char) (position : Nat)
    (content : List Char),
    readText start position content (s.flatMap writtenChar ++ '\x22' :: rest) =
      (.text (String.ofList (content.reverse ++ s)),
        position + (s.flatMap writtenChar).length + 1)
  | [], position, content => by
    rw [List.flatMap_nil, List.nil_append, readText, List.append_nil]
    rfl
  | c :: s, position, content => by
    rw [List.flatMap_cons, List.append_assoc, readText_writtenChar _ _ _ _ (by simp),
      readText_written start rest s, List.reverse_cons, List.append_assoc, List.length_append,
      ← Nat.add_assoc]
    rfl

theorem toList_writtenText (s : String) :
    (writtenText s).toList = '\x22' :: (s.toList.flatMap writtenChar ++ ['\x22']) := by
  rw [writtenText, String.toList_ofList]
  rfl

/-- A written string is one lexeme. -/
theorem lexeme_writtenText (position : Nat) (s : String) (rest : List Char) :
    Lexeme.read position '\x22' (s.toList.flatMap writtenChar ++ ['\x22'] ++ rest) =
      (.text s, (s.toList.flatMap writtenChar ++ ['\x22']).length) := by
  rw [List.append_assoc, List.singleton_append]
  simp only [Lexeme.read, readText_written, List.reverse_nil, List.nil_append,
    String.ofList_toList, Prod.mk.injEq, true_and, List.length_append, List.length_singleton]
  omega

/-! ### Whole numbers -/

/-- Whether nothing at the start of the text would lengthen a whole number before it. -/
def Closes (rest : List Char) : Prop :=
  ∀ c, rest.head? = some c → c.isDigit = false ∧ c ≠ '.' ∧ c ≠ 'e' ∧ c ≠ 'E'

/-- No numeral but zero starts with a zero. -/
theorem head_toDigits {n : Nat} (h : 0 < n) : (Nat.toDigits 10 n).head? ≠ some '0' := by
  induction n using Nat.strongRecOn with
  | ind n ih =>
    by_cases hn : n < 10
    · have hd : ∀ d < 10, 0 < d → [Nat.digitChar d].head? ≠ some '0' := by decide
      rw [Nat.toDigits_of_lt_base hn]
      exact hd n hn h
    · have hle : 10 ≤ n := Nat.le_of_not_lt hn
      rw [Nat.toDigits_of_base_le (by decide) hle,
        List.head?_append_of_ne_nil _ Nat.toDigits_ne_nil]
      exact ih (n / 10) (Nat.div_lt_self h (by decide)) (Nat.div_pos hle (by decide))

theorem digitsValue_toDigits (n : Nat) : digitsValue (Nat.toDigits 10 n) = n := by
  rw [digitsValue, Numeral.ofDigits, List.foldl_map]
  exact Nat.ofDigitChars_eq_foldl.symm.trans Nat.ofDigitChars_ten_toDigits

theorem wholePart_toDigits (n : Nat) {rest : List Char} (h : Closes rest) :
    wholePart (Nat.toDigits 10 n ++ rest) = Nat.toDigits 10 n := by
  unfold wholePart
  rw [List.head?_append_of_ne_nil _ Nat.toDigits_ne_nil]
  have hd : ∀ c ∈ Nat.toDigits 10 n, c.isDigit = true := fun c hc =>
    Nat.isDigit_of_mem_toDigits (by decide) (by decide) hc
  by_cases hn : n = 0
  · rw [hn]
    rfl
  · rw [if_neg (head_toDigits (Nat.pos_of_ne_zero hn))]
    exact (Text.span_append hd fun c hc => (h c hc).1).1

/-- The digits of a whole number, with or without a sign, are one number. -/
theorem numberParts?_toDigits (n : Nat) {rest : List Char} (h : Closes rest) :
    numberParts? (Nat.toDigits 10 n ++ rest) =
        some ⟨false, Nat.toDigits 10 n, [], none, (Nat.toDigits 10 n).length⟩ ∧
      numberParts? ('-' :: (Nat.toDigits 10 n ++ rest)) =
        some ⟨true, Nat.toDigits 10 n, [], none, (Nat.toDigits 10 n).length + 1⟩ := by
  have hf : fractionPart rest = [] := by
    cases rest with
    | nil => rfl
    | cons c rest =>
      have hc : c ≠ '.' := (h c rfl).2.1
      unfold fractionPart
      split
      · rename_i heq
        exact absurd (List.cons.inj heq).1 hc
      · rfl
  have he : exponentPart? rest = none := by
    cases rest with
    | nil => rfl
    | cons c rest =>
      obtain ⟨-, -, he, hE⟩ := h c rfl
      simp [exponentPart?, he, hE]
  have hne : (Nat.toDigits 10 n).isEmpty = false := by
    simp [Nat.toDigits_ne_nil]
  have hm : ∀ s, Nat.toDigits 10 n ++ rest ≠ '-' :: s := by
    intro s hs
    have hc := congrArg List.head? hs
    rw [List.head?_append_of_ne_nil _ Nat.toDigits_ne_nil] at hc
    have := Nat.isDigit_of_mem_toDigits (by decide) (by decide) (List.mem_of_mem_head? hc)
    simp at this
  constructor
  · unfold numberParts?
    split
    rename_i hs
    split at hs
    · exact absurd ‹_› (hm _)
    · cases hs
      simp [wholePart_toDigits n h, hne, hf, he]
  · simp [numberParts?, wholePart_toDigits n h, hne, hf, he]
    omega

/-- The characters of a whole number. -/
theorem toList_toString_int (n : Int) :
    (toString n).toList =
      if 0 ≤ n then Nat.toDigits 10 n.natAbs else '-' :: Nat.toDigits 10 n.natAbs := by
  rw [Int.toString_eq_repr, Int.repr_eq_if]
  by_cases hn : 0 ≤ n
  · have hm : n.toNat = n.natAbs := by omega
    rw [if_pos hn, if_pos hn, Nat.repr_eq_ofList_toDigits, String.toList_ofList, hm]
  · have hm : (-n).toNat = n.natAbs := by omega
    rw [if_neg hn, if_neg hn, Nat.repr_eq_ofList_toDigits, hm]
    simp [String.toList_append]

/-- No scalar value that is a word starts like a numeral. -/
theorem find?_words {c : Char} (hc : c.isDigit = true) (s : List Char) :
    (words.find? fun word => word.1.isPrefixOf (c :: s)) = none ∧
      (words.find? fun word => word.1.isPrefixOf ('-' :: c :: s)) = none := by
  have hne {d : Char} (hd : d.isDigit = false) : (d == c) = false := by
    rw [beq_eq_false_iff_ne]
    rintro rfl
    rw [hc] at hd
    cases hd
  have hw : ∀ word ∈ words, ∃ d e rest, word.1 = d :: e :: rest ∧ d.isDigit = false ∧
      e.isDigit = false := by
    simp [words]
  simp only [List.find?_eq_none, Bool.not_eq_true]
  constructor
  · intro word hword
    obtain ⟨d, e, rest, hd, h1, -⟩ := hw word hword
    rw [hd, List.isPrefixOf_cons_cons, hne h1, Bool.false_and]
  · intro word hword
    obtain ⟨d, e, rest, hd, -, h2⟩ := hw word hword
    rw [hd, List.isPrefixOf_cons_cons, List.isPrefixOf_cons_cons, hne h2, Bool.false_and,
      Bool.and_false]

/-- **A whole number is read as it is written**, if it has no more digits than may be read. -/
theorem readScalar_int {n : Int} (hn : (toString n.natAbs).length ≤ Numeral.maxDigits)
    {rest : List Char} (h : Closes rest) :
    readScalar ((toString n).toList ++ rest) = (.scalar (.int n), (toString n).toList.length) := by
  obtain ⟨hplain, hsigned⟩ := numberParts?_toDigits n.natAbs h
  have hl : ¬ Numeral.maxDigits < (Nat.toDigits 10 n.natAbs).length := by
    rw [Nat.toString_eq_ofList_toDigits, String.length_ofList] at hn
    omega
  obtain ⟨c, digits, hc⟩ := List.exists_cons_of_ne_nil
    (Nat.toDigits_ne_nil (n := n.natAbs) (b := 10))
  have hd : c.isDigit = true :=
    Nat.isDigit_of_mem_toDigits (by decide) (by decide) (hc ▸ List.mem_cons_self)
  obtain ⟨hw, hw'⟩ := find?_words hd (digits ++ rest)
  rw [← List.cons_append, ← hc] at hw hw'
  rw [toList_toString_int]
  by_cases hs : 0 ≤ n
  · have hv : (n.natAbs : Int) = n := Int.natAbs_of_nonneg hs
    rw [if_pos hs, readScalar, hw, hplain]
    simp [NumberParts.lexeme, hl, digitsValue_toDigits, hv]
  · have hv : -(n.natAbs : Int) = n := by omega
    rw [if_neg hs, List.cons_append, readScalar, hw', hsigned]
    simp only [NumberParts.lexeme, List.isEmpty_nil, Option.isNone_none, Bool.and_self, if_true,
      gt_iff_lt, if_neg hl, digitsValue_toDigits, hv, List.length_cons]

end Json
end VoxelBlueprint
