/-
# One integer, however it is written

An integer may be given as a number or as its decimal numeral, as it is or behind a name. All these
ways agree on its value, and on the integers that are too wide to have one: a numeral of more than
309 digits is refused for its length, a number for its width, and `2 ^ 1024`, the least number that
is too wide, has 309 digits itself.

Key definitions: `Expression.Asks`.
Key theorems: `Expression.toList_toString`, `Expression.readInteger_toDigits`,
`Expression.evaluate_toString`, `Expression.Asks.toOption_eq`, `Expression.integers_agree`.
-/
import VoxelBlueprint.Proofs.Expression.Names
import VoxelBlueprint.Proofs.Expression.Reading
import VoxelBlueprint.Proofs.Json.Scalars

namespace VoxelBlueprint
namespace Expression

open Effects Text

/-! ### Numerals -/

/-- The value of an ASCII digit is its distance from zero. -/
theorem digitValue?_of_ascii {c : Char} (h : c.isDigit = true) :
    digitValue? c = some (c.toNat - 0x30) := by
  obtain ⟨ha, hb⟩ := Bool.and_eq_true_iff.mp h
  have hrange : ((0x30 : ℕ) ≤ c.toNat && c.toNat ≤ 0x39) = true :=
    inRange_of_le (of_decide_eq_true ha) (of_decide_eq_true hb)
  have hlt : c.toNat - 0x30 < 10 := by
    simp only [Bool.and_eq_true, decide_eq_true_eq] at hrange
    omega
  have hfind : (digitRanges.find? fun r => r.1 ≤ c.toNat && c.toNat ≤ r.2) = some (0x30, 0x39) :=
    List.find?_cons_of_pos hrange
  rw [digitValue?, hfind, Option.map_some, Nat.mod_eq_of_lt hlt]

theorem isDigit_of_mem_toDigits {n : ℕ} : ∀ c ∈ Nat.toDigits 10 n, Text.isDigit c = true :=
  fun _ hc => isDigit_of_ascii (Nat.isDigit_of_mem_toDigits (by decide) (by decide) hc)

theorem magnitude_toDigits (n : ℕ) : magnitude (Nat.toDigits 10 n) = n := by
  have hd : (Nat.toDigits 10 n).map (fun c => (digitValue? c).getD 0) =
      (Nat.toDigits 10 n).map fun c => c.toNat - 0x30 := List.map_congr_left fun c hc => by
    rw [digitValue?_of_ascii (Nat.isDigit_of_mem_toDigits (by decide) (by decide) hc)]
    rfl
  rw [magnitude, hd]
  exact congrArg _ (Json.digitsValue_toDigits n)

/-- The numeral of an integer has a minus sign if the integer is negative. -/
theorem toList_toString (v : Int) :
    (toString v).toList = spell (decide (v < 0)) (Nat.toDigits 10 v.natAbs) false := by
  rw [Json.toList_toString_int, spell]
  by_cases hv : 0 ≤ v
  · simp [hv, Int.not_lt.mpr hv]
  · simp [hv, Int.not_le.mp hv]

/-- Digits on their own are a numeral. -/
theorem spell_digits (digits : List Char) : spell false digits false = digits :=
  List.append_nil _

theorem signed_natAbs (v : Int) : signed (decide (v < 0)) v.natAbs = v := by
  unfold signed
  split
  · have := of_decide_eq_true ‹_›
    omega
  · have := of_decide_eq_false (Bool.eq_false_iff.mpr ‹_›)
    omega

/-- A number that may circulate has no more digits than are read. -/
theorem InRange.length_toDigits_le {n : ℕ} (h : InRange n) :
    (Nat.toDigits 10 n).length ≤ maxNumeralLength := by
  have hlt : n < 10 ^ maxNumeralLength := Nat.lt_trans h (by decide +kernel)
  exact (Nat.length_toDigits_le_iff (by decide) (by decide)).mpr hlt

/-- The sign of an integer does not count for its width. -/
theorem checked_signed (negative : Bool) (n : Int) :
    checked (signed negative n) = (checked n).map (signed negative) := by
  unfold checked
  simp only [inRange_signed]
  split <;> rfl

/-- **A numeral is too long only if its number is too wide**, so it is read just as the number is
checked. -/
theorem readInteger_toDigits (negative : Bool) (n : ℕ) :
    (readInteger (spell negative (Nat.toDigits 10 n) false)).toOption =
      (checked (signed negative n)).toOption := by
  rw [readInteger_spell negative false Nat.toDigits_ne_nil isDigit_of_mem_toDigits,
    magnitude_toDigits]
  split
  · rfl
  · rename_i hlong
    have hwide : ¬ InRange (signed negative n) := fun h => by
      have := ((inRange_signed negative n).mp h).length_toDigits_le
      simp only [Bool.toNat_false] at hlong
      omega
    rw [checked, if_neg hwide]
    rfl

/-! ### Numerals as expressions -/

theorem evaluate_digits (scope : Scope) {limit : Int} (hl : 2 ≤ limit) (negative : Bool) (n : ℕ) :
    evaluate scope limit (String.ofList (spell negative (Nat.toDigits 10 n) false)) =
      (readInteger (Nat.toDigits 10 n)).map (signed negative) := by
  have hlexeme : (Atom.number (Nat.toDigits 10 n)).IsLexeme :=
    ⟨Nat.toDigits_ne_nil, isDigit_of_mem_toDigits⟩
  have hnumber (position : ℕ) :
      Laid position (Nat.toDigits 10 n ++ []) [⟨.number (Nat.toDigits 10 n), position⟩] :=
    hlexeme.laid (List.forall_mem_nil _) position
  rw [List.append_nil] at hnumber
  obtain ⟨room, hroom⟩ : ∃ room, limit.toNat = room + 2 := ⟨limit.toNat - 2, by omega⟩
  cases negative with
  | false =>
    have htokens : tokenize (String.ofList (spell false (Nat.toDigits 10 n) false)).toList =
        .ok [⟨.number (Nat.toDigits 10 n), 0⟩] := by
      rw [String.toList_ofList, spell_digits]
      exact tokenizeFrom_of_laid (hnumber 0)
    rw [evaluate_of_tokenize htokens]
    refine evaluateTokens_of_factor ?_
    rw [hroom, factor]
    cases readInteger (Nat.toDigits 10 n) <;> rfl
  | true =>
    have htokens : tokenize (String.ofList (spell true (Nat.toDigits 10 n) false)).toList =
        .ok [⟨.mark .minus, 0⟩, ⟨.number (Nat.toDigits 10 n), 1⟩] := by
      rw [String.toList_ofList, spell, if_pos rfl, if_neg Bool.false_ne_true, List.append_nil]
      exact tokenizeFrom_of_laid (.mark .minus (hnumber 1))
    rw [evaluate_of_tokenize htokens]
    refine evaluateTokens_of_factor ?_
    rw [hroom, factor, factor]
    cases readInteger (Nat.toDigits 10 n) <;> rfl

theorem ofList_spell (v : Int) :
    String.ofList (spell (decide (v < 0)) (Nat.toDigits 10 v.natAbs) false) = toString v := by
  rw [← toList_toString, String.ofList_toList]

/-- A numeral has a value as an expression just if its number may circulate. -/
theorem evaluate_toString (scope : Scope) {limit : Int} (hl : 2 ≤ limit) (v : Int) :
    (evaluate scope limit (toString v)).toOption = (checked v).toOption := by
  have hread := readInteger_toDigits false v.natAbs
  rw [spell_digits, signed, if_neg Bool.false_ne_true] at hread
  calc (evaluate scope limit (toString v)).toOption
      = ((readInteger (Nat.toDigits 10 v.natAbs)).map (signed (decide (v < 0)))).toOption := by
        rw [← ofList_spell, evaluate_digits scope hl]
    _ = ((checked v.natAbs).map (signed (decide (v < 0)))).toOption := by
        rw [toOption_map, hread, ← toOption_map]
    _ = (checked v).toOption := by rw [← checked_signed, signed_natAbs]

/-- A name that is bound to a numeral stands for its number. -/
theorem integerOf_toString (name : String) (v : Int) :
    (integerOf name (.str (toString v))).toOption = (checked v).toOption := by
  have hnumeric : isNumericText (toString v).toList = true :=
    isNumericText_iff.mpr ⟨_, _, false, toList_toString v, Nat.toDigits_ne_nil,
      isDigit_of_mem_toDigits⟩
  rw [integerOf, if_pos hnumeric, toList_toString, readInteger_toDigits, signed_natAbs]

/-- A numeral is no name, so it refers to no binding. -/
theorem reference?_toString (scope : Scope) (v : Int) : scope.reference? (toString v) = none := by
  have hplain : ∀ c ∈ (toString v).toList, Text.isBlank c = false ∧ isNameStart c = false := by
    intro c hc
    rw [toList_toString, spell] at hc
    simp only [Bool.false_eq_true, if_false, List.append_nil, List.mem_append] at hc
    rcases hc with hc | hc
    · split at hc
      · rw [List.mem_singleton.mp hc]
        decide
      · cases hc
    · have hd := isDigit_of_mem_toDigits c hc
      refine ⟨isBlank_of_isDigit hd, Bool.eq_false_iff.mpr fun hn => ?_⟩
      rw [isDigit_of_isNameStart hn] at hd
      cases hd
  have hlast : (toString v).toList.getLast? ≠ some '\n' := fun h => by
    have := (hplain '\n' (List.mem_of_getLast? h)).1
    exact absurd this (by decide)
  have hname : isIdentifier (toString v).toList = false := by
    unfold isIdentifier dropFinalNewline
    rw [if_neg hlast]
    cases hs : (toString v).toList with
    | nil => rfl
    | cons c rest =>
      have hc := (hplain c (hs ▸ List.mem_cons_self)).2
      simp only [hc, Bool.false_and]
  unfold Scope.reference?
  simp only [strip_of_trimmed (.of_forall fun c hc => (hplain c hc).1), hname, Bool.false_eq_true,
    if_false]

/-! ### All ways of giving an integer -/

/-- The least number that is too wide to circulate. -/
def tooWide : ℕ := Nat.pow 2 1024

theorem inRange_iff {n : Int} : InRange n ↔ n.natAbs < tooWide := by
  have hpow : Nat.pow 2 maxBits = tooWide := by decide +kernel
  rw [InRange, hpow]

/-- The ways in which an integer may be given where one is asked for: as a number or a numeral, and
by a name that is bound to one of them. -/
inductive Asks (scope : Scope) (limit v : Int) : Except Fault Int → Prop
  | number : Asks scope limit v (coerce scope limit (.int v))
  | numeral : Asks scope limit v (evaluate scope limit (toString v))
  | boundNumber (name : String) : Asks scope limit v (integerOf name (.int v))
  | boundNumeral (name : String) : Asks scope limit v (integerOf name (.str (toString v)))
  | nameOfNumber {name : String} : IsName name → scope.find? name = some (.int v) →
    Asks scope limit v (evaluate scope limit name)
  | nameOfNumeral {name : String} : IsName name → scope.find? name = some (.str (toString v)) →
    Asks scope limit v (evaluate scope limit name)

section Asks

variable {scope : Scope} {limit v : Int}

/-- An integer is accepted in every way or in none. -/
theorem Asks.toOption_eq {answer : Except Fault Int} (h : Asks scope limit v answer)
    (hl : 2 ≤ limit) : answer.toOption = (checked v).toOption := by
  cases h with
  | number | boundNumber => rfl
  | numeral => exact evaluate_toString scope hl v
  | boundNumeral name => exact integerOf_toString name v
  | nameOfNumber hname hv =>
    rw [hname.evaluate (by omega) hv]
    rfl
  | nameOfNumeral hname hv =>
    rw [hname.evaluate (by omega) hv]
    exact integerOf_toString _ v

theorem Asks.eq_ok {answer : Except Fault Int} (h : Asks scope limit v answer) (hl : 2 ≤ limit)
    (hv : InRange v) : answer = .ok v := by
  rw [← toOption_eq_some, h.toOption_eq hl, toOption_eq_some, checked, if_pos hv]

theorem Asks.exists_error {answer : Except Fault Int} (h : Asks scope limit v answer)
    (hl : 2 ≤ limit) (hv : ¬ InRange v) : ∃ fault, answer = .error fault := by
  have hanswer := h.toOption_eq hl
  rw [checked, if_neg hv] at hanswer
  cases answer with
  | ok n => cases hanswer
  | error fault => exact ⟨fault, rfl⟩

/-- **All ways of giving an integer agree, up to the same limit.** If at least two factors may be
open, an integer below `2 ^ 1024` in absolute value is the answer in every way in which it is
given, and its numeral passes it as an argument. Every other integer is refused in every way, and
its numeral passes itself. -/
theorem integers_agree (scope : Scope) {limit : Int} (hl : 2 ≤ limit) (v : Int) :
    (v.natAbs < tooWide → (∀ answer, Asks scope limit v answer → answer = .ok v) ∧
      coerceArgument scope limit (.str (toString v)) = .ok (.int v)) ∧
    (tooWide ≤ v.natAbs →
      (∀ answer, Asks scope limit v answer → ∃ fault, answer = .error fault) ∧
      coerceArgument scope limit (.str (toString v)) = .ok (.str (toString v))) := by
  constructor
  · intro hv
    rw [← inRange_iff] at hv
    have hall : ∀ answer, Asks scope limit v answer → answer = .ok v :=
      fun _ h => h.eq_ok hl hv
    refine ⟨hall, ?_⟩
    simp only [coerceArgument, reference?_toString, hall _ .numeral]
  · intro hv
    rw [← Nat.not_lt, ← inRange_iff] at hv
    have hall : ∀ answer, Asks scope limit v answer → ∃ fault, answer = .error fault :=
      fun _ h => h.exists_error hl hv
    refine ⟨hall, ?_⟩
    obtain ⟨fault, hf⟩ := hall _ .numeral
    simp only [coerceArgument, reference?_toString, hf]

/-- On both sides of the limit, above and below zero. -/
theorem integers_agree_brink :
    evaluate [] 2 (toString (1 - tooWide : Int)) = .ok (1 - tooWide) ∧
      coerceArgument [] 2 (.str (toString (tooWide - 1 : Int))) = .ok (.int (tooWide - 1)) ∧
      (∃ fault, evaluate [("n", .int (-tooWide))] 2 "n" = .error fault) ∧
      coerceArgument [] 2 (.str (toString (tooWide : Int))) =
        .ok (.str (toString (tooWide : Int))) := by
  have hlow : (1 - tooWide : Int).natAbs < tooWide := by decide +kernel
  have hhigh : (tooWide - 1 : Int).natAbs < tooWide := by decide +kernel
  have hbelow : tooWide ≤ (-tooWide : Int).natAbs := by decide +kernel
  have habove : tooWide ≤ (tooWide : Int).natAbs := by decide +kernel
  exact ⟨((integers_agree [] (by decide) _).1 hlow).1 _ .numeral,
    ((integers_agree [] (by decide) _).1 hhigh).2,
    ((integers_agree [("n", .int (-tooWide))] (by decide) _).2 hbelow).1 _
      (.nameOfNumber ⟨'n', [], rfl, by decide, nofun⟩ rfl),
    ((integers_agree [] (by decide) _).2 habove).2⟩

end Asks

end Expression
end VoxelBlueprint
