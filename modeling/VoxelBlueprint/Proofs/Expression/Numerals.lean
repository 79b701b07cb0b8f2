/-
# What numerals stand for

A numeral of the expressions is a run of decimal digits with an optional minus sign in
front and an optional line feed behind (`spell`). Its number is that of its digits. The
reader of numerals allows more, blanks and underscores and plus signs, but on a numeral it
computes just this number, unless there are too many characters or the number is too wide.

Key definitions: `Expression.magnitude`, `Expression.spell`, `Expression.signed`,
`Expression.Writes`, `Expression.Binds`.
Key theorems: `Expression.readInteger_spell`, `Expression.readInteger_iff`,
`Expression.integerOf_iff`.
-/
import Mathlib.Logic.Basic
import VoxelBlueprint.Expression.Scope

namespace VoxelBlueprint

/-! ### Digits -/

namespace Text

/-- Ranges of which each ends before each of the others starts. -/
theorem not_inRanges_of_apart {a b : Ranges}
    (h : ∀ p ∈ a, ∀ q ∈ b, p.2 < q.1 ∨ q.2 < p.1) {c : Char} (hc : inRanges a c = true) :
    inRanges b c = false := by
  obtain ⟨p, hp, hpc⟩ := List.any_eq_true.mp hc
  refine Bool.eq_false_iff.mpr fun hb => ?_
  obtain ⟨q, hq, hqc⟩ := List.any_eq_true.mp hb
  simp only [Bool.and_eq_true, decide_eq_true_eq] at hpc hqc
  have := h p hp q hq
  omega

/-- A digit is not blank. -/
theorem isBlank_of_isDigit {c : Char} (h : isDigit c = true) : isBlank c = false :=
  not_inRanges_of_apart (by decide) h

/-- A digit has a value. -/
theorem digitValue?_of_isDigit {c : Char} (h : isDigit c = true) :
    digitValue? c = some ((digitValue? c).getD 0) := by
  obtain ⟨p, hp, hpc⟩ := List.any_eq_true.mp h
  unfold digitValue?
  cases hf : digitRanges.find? fun r => r.1 ≤ c.toNat && c.toNat ≤ r.2 with
  | none => exact absurd hpc (List.find?_eq_none.mp hf p hp)
  | some r => rfl

theorem ne_of_isDigit {c d : Char} (h : isDigit c = true) (hd : isDigit d = false) : c ≠ d := by
  rintro rfl
  rw [h] at hd
  cases hd

end Text

namespace Numeral

open Text

theorem isMargin_of_isDigit {c : Char} (h : isDigit c = true) : isMargin c = false := by
  rw [isMargin, isBlank_of_isDigit h, Bool.false_and]

/-- A run of digits has no underscores to be skipped. -/
theorem groupedDigits_of_isDigit : ∀ {digits : List Char}, digits ≠ [] →
    (∀ c ∈ digits, isDigit c = true) →
    groupedDigits digits = some (digits.map fun c => (digitValue? c).getD 0)
  | [], h, _ => absurd rfl h
  | [c], _, hd => by
    rw [groupedDigits, digitValue?_of_isDigit (hd c List.mem_cons_self)]
    rfl
  | c :: d :: digits, _, hd => by
    obtain ⟨hc, hd⟩ := List.forall_mem_cons.mp hd
    have hu : d ≠ '_' := ne_of_isDigit (hd d List.mem_cons_self) (by decide)
    have ih := groupedDigits_of_isDigit (List.cons_ne_nil d digits) hd
    rw [groupedDigits, digitValue?_of_isDigit hc]
    simp only [Option.bind_eq_bind, Option.bind_some]
    split
    · rename_i h
      cases h
    · rename_i h
      exact absurd (List.cons.inj h).1 hu
    · rw [ih]
      rfl

theorem dropWhile_isMargin {s : List Char} (hs : ∀ c ∈ s, isMargin c = false) (hne : s ≠ [])
    (t : List Char) : (s ++ t).dropWhile isMargin = s ++ t := by
  cases s with
  | nil => exact absurd rfl hne
  | cons c s => exact List.dropWhile_cons_of_neg (by simp [hs c List.mem_cons_self])

/-- A text without margins loses what follows it if that is a margin. -/
theorem trim_append {s margin : List Char} (hs : ∀ c ∈ s, isMargin c = false) (hne : s ≠ [])
    (hm : ∀ c ∈ margin, isMargin c = true) : trim (s ++ margin) = s := by
  have hr : ∀ c ∈ s.reverse, isMargin c = false := fun c hc => hs c (List.mem_reverse.mp hc)
  have hd := dropWhile_isMargin hr (by simpa using hne) []
  rw [List.append_nil] at hd
  rw [trim, dropWhile_isMargin hs hne, List.reverse_append,
    List.dropWhile_append_of_pos fun c hc => hm c (List.mem_reverse.mp hc), hd,
    List.reverse_reverse]

theorem readDigits?_of_isDigit {digits : List Char} (hne : digits ≠ [])
    (hd : ∀ c ∈ digits, isDigit c = true) (hl : digits.length ≤ maxDigits) :
    readDigits? digits = some (ofDigits (digits.map fun c => (digitValue? c).getD 0)) := by
  rw [readDigits?, groupedDigits_of_isDigit hne hd]
  exact if_pos (by rwa [List.length_map])

end Numeral

namespace Expression

open Text

/-- The number with these decimal digits. -/
def magnitude (digits : List Char) : Int :=
  Numeral.ofDigits (digits.map fun c => (digitValue? c).getD 0)

/-- The number with this sign. -/
def signed (negative : Bool) (n : Int) : Int :=
  if negative then -n else n

/-- A numeral as it is written: digits, perhaps with a minus sign in front and a line feed
behind. -/
def spell (negative : Bool) (digits : List Char) (newline : Bool) : List Char :=
  (if negative then ['-'] else []) ++ digits ++ if newline then ['\n'] else []

theorem inRange_signed (negative : Bool) (n : Int) : InRange (signed negative n) ↔ InRange n := by
  cases negative
  · exact Iff.rfl
  · unfold InRange signed
    rw [if_pos rfl, Int.natAbs_neg]

theorem read?_spell (negative : Bool) {digits : List Char} (newline : Bool) (hne : digits ≠ [])
    (hd : ∀ c ∈ digits, isDigit c = true) (hl : digits.length ≤ Numeral.maxDigits) :
    Numeral.read? (spell negative digits newline) = some (signed negative (magnitude digits)) := by
  have hm : ∀ c ∈ (if newline then ['\n'] else []), Numeral.isMargin c = true := by
    cases newline with
    | true => exact List.forall_mem_singleton.mpr (by decide)
    | false => exact List.forall_mem_nil _
  have hn : ∀ c ∈ (if negative then ['-'] else []), Numeral.isMargin c = false := by
    cases negative with
    | true => exact List.forall_mem_singleton.mpr (by decide)
    | false => exact List.forall_mem_nil _
  have hs : ∀ c ∈ (if negative then ['-'] else []) ++ digits, Numeral.isMargin c = false :=
    List.forall_mem_append.mpr ⟨hn, fun c hc => Numeral.isMargin_of_isDigit (hd c hc)⟩
  have hr := Numeral.readDigits?_of_isDigit hne hd hl
  rw [Numeral.read?, spell, Numeral.trim_append hs (by simp [hne]) hm]
  cases negative with
  | true =>
    show Option.map _ (Numeral.readDigits? digits >>= _) = _
    rw [hr]
    rfl
  | false =>
    rw [if_neg Bool.false_ne_true, List.nil_append]
    split
    · exact absurd rfl (ne_of_isDigit (hd '-' List.mem_cons_self) (by decide))
    · exact absurd rfl (ne_of_isDigit (hd '+' List.mem_cons_self) (by decide))
    · rw [hr]
      rfl

theorem dropWhile_isSign_spell (negative : Bool) {digits : List Char} (newline : Bool)
    (hne : digits ≠ []) (hd : ∀ c ∈ digits, isDigit c = true) :
    ((spell negative digits newline).dropWhile isSign).length =
      digits.length + newline.toNat := by
  cases digits with
  | nil => exact absurd rfl hne
  | cons c digits =>
    have hc := hd c List.mem_cons_self
    have hs : isSign c = false := by
      have h1 : c ≠ '+' := ne_of_isDigit hc (by decide)
      have h2 : c ≠ '-' := ne_of_isDigit hc (by decide)
      simp [isSign, h1, h2]
    have hd : isSign '-' = true := by decide
    cases negative <;> cases newline <;> simp [spell, hs, hd]

/-- What reading a numeral comes to. -/
theorem readInteger_spell (negative : Bool) {digits : List Char} (newline : Bool)
    (hne : digits ≠ []) (hd : ∀ c ∈ digits, isDigit c = true) :
    readInteger (spell negative digits newline) =
      if digits.length + newline.toNat ≤ maxNumeralLength then
        checked (signed negative (magnitude digits))
      else .error .literalOutOfRange := by
  rw [readInteger, dropWhile_isSign_spell negative newline hne hd]
  split
  · rw [if_neg (by omega)]
  · rename_i hl
    have hl' : digits.length ≤ Numeral.maxDigits := by
      unfold maxNumeralLength at hl
      unfold Numeral.maxDigits
      omega
    rw [if_pos (by omega), read?_spell negative newline hne hd hl']

/-! ### Numerals that are accepted -/

/-- The numerals that are accepted, and the integers they write. -/
inductive Writes : List Char → Int → Prop
  | spell (negative : Bool) {digits : List Char} (newline : Bool) : digits ≠ [] →
    (∀ c ∈ digits, isDigit c = true) → digits.length + newline.toNat ≤ maxNumeralLength →
    InRange (magnitude digits) →
    Writes (spell negative digits newline) (signed negative (magnitude digits))

/-- The values to which a name may be bound, and the integers for which they stand. -/
inductive Binds : Json → Int → Prop
  | int {n : Int} : InRange n → Binds (.int n) n
  | str {text : String} {n : Int} : Writes text.toList n → Binds (.str text) n

theorem checked_eq_ok {n v : Int} : checked n = .ok v ↔ InRange n ∧ n = v := by
  unfold checked
  split
  · rename_i h
    exact ⟨fun he => ⟨h, Except.ok.inj he⟩, fun he => congrArg _ he.2⟩
  · rename_i h
    exact ⟨fun he => (by cases he), fun he => absurd he.1 h⟩

/-- A numeral is read just if it is accepted. -/
theorem readInteger_iff (negative : Bool) {digits : List Char} (newline : Bool)
    (hne : digits ≠ []) (hd : ∀ c ∈ digits, isDigit c = true) {v : Int} :
    readInteger (spell negative digits newline) = .ok v ↔
      digits.length + newline.toNat ≤ maxNumeralLength ∧ InRange (magnitude digits) ∧
        signed negative (magnitude digits) = v := by
  rw [readInteger_spell negative newline hne hd]
  split
  · rename_i hl
    rw [checked_eq_ok, inRange_signed]
    exact ⟨fun h => ⟨hl, h⟩, And.right⟩
  · rename_i hl
    exact ⟨fun h => (by cases h), fun h => absurd h.1 hl⟩

theorem readInteger_of_writes {text : List Char} {n : Int} (h : Writes text n) :
    readInteger text = .ok n := by
  cases h with
  | spell negative newline hne hd hl hr =>
    exact (readInteger_iff negative newline hne hd).mpr ⟨hl, hr, rfl⟩

/-- A number token is a numeral without a sign. -/
theorem writes_of_readInteger {digits : List Char} (hne : digits ≠ [])
    (hd : ∀ c ∈ digits, isDigit c = true) {v : Int} (h : readInteger digits = .ok v) :
    Writes digits v := by
  have hs : spell false digits false = digits := by simp [spell]
  rw [← hs] at h
  obtain ⟨hl, hr, rfl⟩ := (readInteger_iff false false hne hd).mp h
  have hw := Writes.spell false false hne hd hl hr
  rwa [hs] at hw

/-! ### Values of names -/

theorem dropMinus_append (text : List Char) :
    ∃ negative : Bool, text = (if negative then ['-'] else []) ++ dropMinus text := by
  unfold dropMinus
  split
  · exact ⟨true, rfl⟩
  · exact ⟨false, rfl⟩

theorem dropFinalNewline_append (text : List Char) :
    ∃ newline : Bool, text = dropFinalNewline text ++ if newline then ['\n'] else [] := by
  unfold dropFinalNewline
  split
  · rename_i h
    obtain ⟨front, rfl⟩ := List.getLast?_eq_some_iff.mp h
    exact ⟨true, by rw [List.dropLast_concat]; rfl⟩
  · exact ⟨false, (List.append_nil _).symm⟩

theorem dropMinus_spell (negative : Bool) {digits : List Char} (newline : Bool)
    (hne : digits ≠ []) (hd : ∀ c ∈ digits, isDigit c = true) :
    dropMinus (spell negative digits newline) = digits ++ if newline then ['\n'] else [] := by
  cases digits with
  | nil => exact absurd rfl hne
  | cons c digits =>
    have hc : c ≠ '-' := ne_of_isDigit (hd c List.mem_cons_self) (by decide)
    cases negative with
    | true => rfl
    | false =>
      show dropMinus (c :: _) = _
      unfold dropMinus
      split
      · rename_i h
        exact absurd (List.cons.inj h).1 hc
      · rfl

theorem dropFinalNewline_digits {digits : List Char} (newline : Bool)
    (hd : ∀ c ∈ digits, isDigit c = true) :
    dropFinalNewline (digits ++ if newline then ['\n'] else []) = digits := by
  unfold dropFinalNewline
  cases newline with
  | true => rw [if_pos (by simp)]; simp
  | false =>
    rw [if_neg]
    · exact List.append_nil _
    · intro h
      have hl := hd '\n' (List.mem_of_getLast? (by simpa using h))
      exact absurd hl (by decide)

/-- The texts that count as integers are the numerals. -/
theorem isNumericText_iff {text : List Char} : isNumericText text = true ↔
    ∃ negative digits newline, text = spell negative digits newline ∧ digits ≠ [] ∧
      ∀ c ∈ digits, isDigit c = true := by
  have hb : isNumericText text = true ↔ dropFinalNewline (dropMinus text) ≠ [] ∧
      ∀ c ∈ dropFinalNewline (dropMinus text), isDigit c = true := by
    simp [isNumericText]
  rw [hb]
  constructor
  · intro h
    obtain ⟨negative, hn⟩ := dropMinus_append text
    obtain ⟨newline, hl⟩ := dropFinalNewline_append (dropMinus text)
    refine ⟨negative, _, newline, ?_, h⟩
    rw [spell, List.append_assoc, ← hl, ← hn]
  · rintro ⟨negative, digits, newline, rfl, hne, hd⟩
    rw [dropMinus_spell negative newline hne hd, dropFinalNewline_digits newline hd]
    exact ⟨hne, hd⟩

/-- A value counts as an integer just if it may be bound as one. -/
theorem integerOf_iff {name : String} : ∀ {value : Json} {v : Int},
    integerOf name value = .ok v ↔ Binds value v
  | .int n, v => by
    rw [integerOf, checked_eq_ok]
    exact ⟨fun ⟨hr, he⟩ => he ▸ .int hr, fun h => by cases h with | int hr => exact ⟨hr, rfl⟩⟩
  | .str text, v => by
    rw [integerOf]
    split
    · rename_i hn
      refine ⟨fun h => .str ?_, fun h => ?_⟩
      · obtain ⟨negative, digits, newline, ht, hne, hd⟩ := isNumericText_iff.mp hn
        rw [ht] at h ⊢
        obtain ⟨hl, hr, rfl⟩ := (readInteger_iff negative newline hne hd).mp h
        exact .spell negative newline hne hd hl hr
      · cases h with | str hw => exact readInteger_of_writes hw
    · rename_i hn
      refine ⟨fun h => (by cases h), fun h => absurd ?_ hn⟩
      cases h with
      | str hw =>
        generalize text.toList = chars at hw
        cases hw with
        | spell negative newline hne hd =>
          exact isNumericText_iff.mpr ⟨negative, _, newline, rfl, hne, hd⟩
  | .null, _ | .bool _, _ | .float _, _ | .arr _, _ | .obj _, _ =>
    ⟨fun h => (by cases h), fun h => (by cases h)⟩

end Expression
end VoxelBlueprint
