/-
# JSON does not depend on how lines end

A lexeme ends where space follows it, and none but a string that cannot be read has a line end
in it. So the lexemes of a text are the same once every line end is a line feed, and the text is
read as the same value, or refused both times.

Key theorems: `Json.readScalar_append`, `Json.read_lexeme_unifyNewlines`,
`Json.read_unifyNewlines`.
-/
import VoxelBlueprint.Proofs.Effects
import VoxelBlueprint.Proofs.Json.Strings
import VoxelBlueprint.Proofs.Json.Written
import VoxelBlueprint.Proofs.Text.LineEnds

namespace VoxelBlueprint
namespace Json

open Reader Text

/-! ### Scalar values in front of space -/

section Space

variable {c : Char} (hc : isSpace c = true) (s rest : List Char)

include hc

theorem eq_of_isSpace : c = ' ' ∨ c = '\t' ∨ c = '\n' ∨ c = '\r' := by
  simpa [isSpace, or_assoc] using hc

theorem takeWhile_isDigit_append :
    (s ++ c :: rest).takeWhile Char.isDigit = s.takeWhile Char.isDigit := by
  have hd : c.isDigit = false := (closes_of_isSpace hc rest c rfl).1
  rw [List.takeWhile_append, List.takeWhile_cons_of_neg (by simp [hd]), List.append_nil]
  split
  · rename_i h
    exact ((List.takeWhile_prefix _).eq_of_length h).symm
  · rfl

theorem wholePart_append : wholePart (s ++ c :: rest) = wholePart s := by
  unfold wholePart
  rw [takeWhile_isDigit_append hc]
  cases s with
  | nil => rcases eq_of_isSpace hc with rfl | rfl | rfl | rfl <;> rfl
  | cons d s => rfl

theorem fractionPart_append : fractionPart (s ++ c :: rest) = fractionPart s := by
  cases s with
  | nil => rcases eq_of_isSpace hc with rfl | rfl | rfl | rfl <;> rfl
  | cons d s =>
    by_cases hd : d = '.'
    · rw [hd, List.cons_append, fractionPart, fractionPart, takeWhile_isDigit_append hc]
    · have hf : ∀ s, fractionPart (d :: s) = [] := fun s => by
        unfold fractionPart
        split
        · rename_i h
          exact absurd (List.cons.inj h).1 hd
        · rfl
      rw [List.cons_append, hf, hf]

theorem exponentSign_append :
    exponentSign (s ++ c :: rest) =
      ((exponentSign s).1, (exponentSign s).2.1 ++ c :: rest, (exponentSign s).2.2) := by
  cases s with
  | nil => rcases eq_of_isSpace hc with rfl | rfl | rfl | rfl <;> rfl
  | cons d s =>
    unfold exponentSign
    split <;> simp_all

theorem exponentPart?_append : exponentPart? (s ++ c :: rest) = exponentPart? s := by
  cases s with
  | nil =>
    obtain ⟨-, -, he, hE⟩ := closes_of_isSpace hc rest c rfl
    simp [exponentPart?, he, hE]
  | cons d s =>
    simp only [exponentPart?, List.cons_append, exponentSign_append hc,
      takeWhile_isDigit_append hc]

theorem find?_words_append :
    (words.find? fun word => word.1.isPrefixOf (s ++ c :: rest)) =
      words.find? fun word => word.1.isPrefixOf s := by
  have hword : ∀ (word s : List Char), (∀ d ∈ word, isSpace d = false) →
      word.isPrefixOf (s ++ c :: rest) = word.isPrefixOf s := by
    intro word
    induction word with
    | nil => intro s _; rw [List.isPrefixOf_nil_left, List.isPrefixOf_nil_left]
    | cons d word ih =>
      intro s h
      obtain ⟨hd, hrest⟩ := List.forall_mem_cons.mp h
      cases s with
      | nil =>
        have hne : (d == c) = false := by
          rw [beq_eq_false_iff_ne]
          rintro rfl
          rw [hc] at hd
          cases hd
        rw [List.nil_append, List.isPrefixOf_cons_cons, hne, Bool.false_and]
        rfl
      | cons e s =>
        rw [List.cons_append, List.isPrefixOf_cons_cons, List.isPrefixOf_cons_cons, ih s hrest]
  have hwords : ∀ word ∈ words, ∀ d ∈ word.1, isSpace d = false := by
    intro word hw d hd
    have h : (words.all fun word => word.1.all fun d => !isSpace d) = true := by decide
    simpa using List.all_eq_true.mp (List.all_eq_true.mp h word hw) d hd
  rw [← List.head?_filter, ← List.head?_filter,
    List.filter_congr fun word h => hword word.1 s (hwords word h)]

end Space

/-! ### Widths -/

theorem length_wholePart_le (s : List Char) : (wholePart s).length ≤ s.length := by
  unfold wholePart
  split
  · cases s with
    | nil => simp at *
    | cons c s => simp
  · exact (List.takeWhile_prefix _).length_le

theorem width_fractionPart_le (s : List Char) :
    (if (fractionPart s).isEmpty then 0 else (fractionPart s).length + 1) ≤ s.length := by
  split
  · exact Nat.zero_le _
  · unfold fractionPart at *
    split
    · exact Nat.succ_le_succ (List.takeWhile_prefix _).length_le
    · simp at *

theorem width_exponentPart?_le {s : List Char} {e : Bool × List Char × Nat}
    (h : exponentPart? s = some e) : e.2.2 ≤ s.length := by
  cases s with
  | nil => cases h
  | cons c s =>
    obtain ⟨negative, digits, width, hsign⟩ : ∃ negative digits width,
        exponentSign s = (negative, digits, width) := ⟨_, _, _, rfl⟩
    have hlength : digits.length + width = s.length := by
      unfold exponentSign at hsign
      split at hsign <;> cases hsign <;> rfl
    have hdigits : (digits.takeWhile Char.isDigit).length ≤ digits.length :=
      (List.takeWhile_prefix _).length_le
    simp only [exponentPart?, hsign] at h
    split at h
    · cases h
      simp only [List.length_cons]
      omega
    · cases h

/-! ### Numbers and words -/

/-- The longest number without a sign that a text starts with, behind a sign. -/
def unsignedParts? (negative : Bool) (signWidth : Nat) (unsigned : List Char) :
    Option NumberParts :=
  let whole := wholePart unsigned
  if whole.isEmpty then none
  else
    let afterWhole := unsigned.drop whole.length
    let fraction := fractionPart afterWhole
    let fractionWidth := if fraction.isEmpty then 0 else fraction.length + 1
    let exponent := exponentPart? (afterWhole.drop fractionWidth)
    some
      { negative, whole, fraction
        exponent := exponent.map fun e => (e.1, e.2.1)
        width := signWidth + whole.length + fractionWidth + (exponent.map (·.2.2)).getD 0 }

theorem numberParts?_minus (s : List Char) : numberParts? ('-' :: s) = unsignedParts? true 1 s :=
  rfl

theorem numberParts?_of_head {s : List Char} (h : s.head? ≠ some '-') :
    numberParts? s = unsignedParts? false 0 s := by
  unfold numberParts?
  split
  rename_i hs
  split at hs
  · exact absurd rfl h
  · cases hs
    rfl

theorem unsignedParts?_append {c : Char} (hc : isSpace c = true) (negative : Bool) (width : Nat)
    (s rest : List Char) :
    unsignedParts? negative width (s ++ c :: rest) = unsignedParts? negative width s := by
  simp only [unsignedParts?, wholePart_append hc,
    List.drop_append_of_le_length (length_wholePart_le s), fractionPart_append hc,
    List.drop_append_of_le_length (width_fractionPart_le _), exponentPart?_append hc]

theorem width_unsignedParts?_le {negative : Bool} {width : Nat} {s : List Char}
    {parts : NumberParts} (h : unsignedParts? negative width s = some parts) :
    parts.width ≤ width + s.length := by
  simp only [unsignedParts?] at h
  split at h
  · cases h
  · have hwhole := length_wholePart_le s
    have hfraction := width_fractionPart_le (s.drop (wholePart s).length)
    rw [List.length_drop] at hfraction
    cases h
    dsimp only
    cases he : exponentPart? ((s.drop (wholePart s).length).drop
        (if (fractionPart (s.drop (wholePart s).length)).isEmpty then 0
          else (fractionPart (s.drop (wholePart s).length)).length + 1)) with
    | none =>
      simp only [Option.map_none, Option.getD_none]
      omega
    | some e =>
      have hexponent := width_exponentPart?_le he
      rw [List.length_drop, List.length_drop] at hexponent
      simp only [Option.map_some, Option.getD_some]
      omega

theorem numberParts?_append {c : Char} (hc : isSpace c = true) (s rest : List Char) :
    numberParts? (s ++ c :: rest) = numberParts? s := by
  by_cases hs : s.head? = some '-'
  · obtain ⟨s, rfl⟩ : ∃ t, s = '-' :: t := ⟨_, List.eq_cons_of_mem_head? hs⟩
    rw [List.cons_append, numberParts?_minus, numberParts?_minus, unsignedParts?_append hc]
  · rw [numberParts?_of_head hs, numberParts?_of_head, unsignedParts?_append hc]
    cases s with
    | nil =>
      rw [List.nil_append, List.head?_cons, Ne, Option.some.injEq]
      rintro rfl
      revert hc
      decide
    | cons d s => exact hs

theorem width_numberParts?_le {s : List Char} {parts : NumberParts}
    (h : numberParts? s = some parts) : parts.width ≤ s.length := by
  by_cases hs : s.head? = some '-'
  · obtain ⟨s, rfl⟩ : ∃ t, s = '-' :: t := ⟨_, List.eq_cons_of_mem_head? hs⟩
    have := width_unsignedParts?_le ((numberParts?_minus s).symm.trans h)
    rw [List.length_cons]
    omega
  · have := width_unsignedParts?_le ((numberParts?_of_head hs).symm.trans h)
    omega

/-- **A scalar value ends where space follows it.** -/
theorem readScalar_append {c : Char} (hc : isSpace c = true) (s rest : List Char) :
    readScalar (s ++ c :: rest) = readScalar s := by
  rw [readScalar, readScalar, find?_words_append hc, numberParts?_append hc]

theorem width_readScalar_le {s : List Char} (hs : s ≠ []) : (readScalar s).2 ≤ s.length := by
  unfold readScalar
  split
  · rename_i h
    have hprefix := List.find?_some h
    exact (List.isPrefixOf_iff_prefix.mp hprefix).length_le
  · split
    · rename_i h
      exact width_numberParts?_le h
    · exact List.length_pos_of_ne_nil hs

/-! ### Lexemes -/

/-- A scalar value is the same whatever ends its line. -/
theorem readScalar_unifyNewlines (c : Char) (s : List Char) :
    ∃ part behind, s = part ++ behind ∧ Unbroken part ∧
      (readScalar (c :: s)).2 - 1 = part.length ∧
      readScalar (c :: unifyNewlines s) = readScalar (c :: s) := by
  obtain ⟨line, rest, rfl, hline, hrest⟩ := exists_unbroken_append s
  have hread : ∀ rest : List Char, (∀ d, rest.head? = some d → d = '\n' ∨ d = '\r') →
      readScalar (c :: (line ++ rest)) = readScalar (c :: line) := by
    intro rest hrest
    cases rest with
    | nil => rw [List.append_nil]
    | cons d rest =>
      have hd : isSpace d = true := by
        rcases hrest d rfl with rfl | rfl <;> rfl
      exact readScalar_append hd (c :: line) rest
  have hunified : ∀ d, (unifyNewlines rest).head? = some d → d = '\n' ∨ d = '\r' := by
    intro d hd
    cases rest with
    | nil => cases hd
    | cons e rest =>
      rcases hrest e rfl with rfl | rfl <;> exact .inl (Option.some.inj hd).symm
  have hwidth := width_readScalar_le (List.cons_ne_nil c line)
  rw [List.length_cons] at hwidth
  rw [unifyNewlines_unbroken_append hline, hread _ hrest, hread _ hunified]
  refine ⟨line.take ((readScalar (c :: line)).2 - 1),
    line.drop ((readScalar (c :: line)).2 - 1) ++ rest, ?_,
    fun d hd => hline d (List.mem_of_mem_take hd), ?_, rfl⟩
  · rw [← List.append_assoc, List.take_append_drop]
  · rw [List.length_take]
    omega

theorem Quoted.unbroken {s content : List Char} (h : Quoted s content) : Unbroken s := by
  intro c hc
  have hctrl := h.not_control c hc
  constructor
  · rintro rfl
    exact absurd hctrl (by decide)
  · rintro rfl
    exact absurd hctrl (by decide)

/-- A string is the same whatever ends the lines behind it. -/
theorem readText_unifyNewlines (start start' position position' : Nat) (before s : List Char) :
    (∃ part behind content, s = part ++ behind ∧ Unbroken part ∧
        readText start position before s = (.text content, position + part.length) ∧
        readText start' position' before (unifyNewlines s) =
          (.text content, position' + part.length)) ∨
      (∃ problem place, (readText start position before s).1 = .badText problem place) ∧
        ∃ problem place,
          (readText start' position' before (unifyNewlines s)).1 = .badText problem place := by
  have hboth {part read : List Char} (h : Quoted part read) (behind : List Char) :
      readText start position before (part ++ behind) =
          (.text (String.ofList (before.reverse ++ read)), position + part.length) ∧
        readText start' position' before (unifyNewlines (part ++ behind)) =
          (.text (String.ofList (before.reverse ++ read)), position' + part.length) := by
    rw [unifyNewlines_unbroken_append h.unbroken]
    exact ⟨readText_of_quoted h _ _ _ _, readText_of_quoted h _ _ _ _⟩
  rcases readText_text_or_bad start position before s with ⟨content, h⟩ | hbad
  · obtain ⟨part, behind, read, rfl, hq, -, -⟩ := quoted_of_readText (Prod.ext h rfl)
    obtain ⟨h1, h2⟩ := hboth hq behind
    exact .inl ⟨part, behind, _, rfl, hq.unbroken, h1, h2⟩
  · rcases readText_text_or_bad start' position' before (unifyNewlines s) with ⟨content, h⟩ | hbad'
    · obtain ⟨part, behind, read, hs, hq, -, -⟩ := quoted_of_readText (Prod.ext h rfl)
      obtain ⟨behind, rfl, -⟩ := prefix_of_unifyNewlines hq.unbroken hs
      obtain ⟨h1, h2⟩ := hboth hq behind
      exact .inl ⟨part, behind, _, rfl, hq.unbroken, h1, h2⟩
    · exact .inr ⟨hbad, hbad'⟩

/-- **A lexeme is the same whatever ends the lines behind it**, and has no line end in it, but
for a string that cannot be read. -/
theorem read_lexeme_unifyNewlines (position position' : Nat) (c : Char) (s : List Char) :
    (∃ part behind lexeme, s = part ++ behind ∧ Unbroken part ∧
        Lexeme.read position c s = (lexeme, part.length) ∧
        Lexeme.read position' c (unifyNewlines s) = (lexeme, part.length)) ∨
      (∃ problem place, (Lexeme.read position c s).1 = .badText problem place) ∧
        ∃ problem place,
          (Lexeme.read position' c (unifyNewlines s)).1 = .badText problem place := by
  unfold Lexeme.read
  split
  case h_7 =>
    rcases readText_unifyNewlines position position' (position + 1) (position' + 1) [] s with
      ⟨part, behind, content, hs, hu, h1, h2⟩ | hbad
    · refine .inl ⟨part, behind, .text content, hs, hu, ?_, ?_⟩
      · rw [h1]
        simp
      · rw [h2]
        simp
    · exact .inr hbad
  case h_8 =>
    obtain ⟨part, behind, hs, hu, hwidth, h⟩ := readScalar_unifyNewlines c s
    refine .inl ⟨part, behind, (readScalar (c :: s)).1, hs, hu, ?_, ?_⟩
    · rw [← hwidth]
    · rw [h, ← hwidth]
  all_goals exact .inl ⟨[], s, _, rfl, nofun, rfl, rfl⟩

/-! ### Texts -/

/-- What is taken of a lexeme does not depend on its place. -/
theorem take_toOption (s : State) (position position' : Nat) (lexeme : Lexeme) :
    (s.take position lexeme).toOption = (s.take position' lexeme).toOption := by
  have hvalue (frames : List Frame) :
      (takeValue frames position lexeme).toOption =
        (takeValue frames position' lexeme).toOption := by
    unfold takeValue
    split <;> rfl
  unfold State.take
  split <;> first | rfl | exact hvalue _

theorem take_badText (s : State) (position : Nat) (problem : Problem) (place : Nat) :
    (s.take position (.badText problem place)).toOption = none := by
  unfold State.take
  split <;> first | rfl | contradiction

theorem finish_toOption (s : State) (position position' : Nat) :
    (s.finish position).toOption = (s.finish position').toOption := by
  unfold State.finish
  split <;> rfl

/-- A lexeme that is not taken ends the reading. -/
theorem run_refused {s : State} {position : Nat} {c : Char} {rest : List Char}
    (hc : isSpace c = false)
    (h : (s.take position (Lexeme.read position c rest).1).toOption = none) :
    (run s 0 position (c :: rest)).toOption = none := by
  rw [run, if_neg (by simp [hc])]
  cases ht : s.take position (Lexeme.read position c rest).1 with
  | ok s' =>
    rw [ht] at h
    cases h
  | error stop =>
    dsimp only
    rw [ht]
    rfl

/-- Reading goes on from one state in the same way when line ends are unified. -/
theorem run_unifyNewlinesAfter (s : State) (position position' : Nat) (after : Bool)
    (text : List Char) :
    (run s 0 position' (unifyNewlinesAfter after text)).toOption =
      (run s 0 position text).toOption := by
  match text with
  | [] =>
    rw [unifyNewlinesAfter_nil, run, run]
    exact finish_toOption s position' position
  | c :: rest =>
    by_cases hc : isSpace c = true
    · rw [run, if_pos hc]
      rcases unifyNewlinesAfter_cons after c with ⟨-, -, h⟩ | ⟨d, hd, h⟩
      · rw [h]
        exact run_unifyNewlinesAfter s _ _ _ rest
      · have hd : isSpace d = true := by
          rcases hd with rfl | ⟨rfl, -, -⟩
          · rfl
          · exact hc
        rw [h, run, if_pos hd]
        exact run_unifyNewlinesAfter s _ _ _ rest
    · have hn : c ≠ '\n' ∧ c ≠ '\r' := by
        constructor <;> rintro rfl <;> exact hc rfl
      have hc : isSpace c = false := by simpa using hc
      rw [unifyNewlinesAfter_plain hn.1 hn.2]
      rcases read_lexeme_unifyNewlines position position' c rest with
        ⟨part, behind, lexeme, rfl, hpart, hl, hl'⟩ | ⟨⟨_, _, hbad⟩, _, _, hbad'⟩
      · have htake := take_toOption s position position' lexeme
        cases ht : s.take position lexeme with
        | ok s' =>
          have ht' : s.take position' lexeme = .ok s' :=
            Effects.toOption_eq_some.mp (htake.symm.trans (by rw [ht]; rfl))
          rw [← unifyNewlines]
          rw [unifyNewlines_unbroken_append hpart] at hl' ⊢
          have hrun := run_lexeme part hc hl ht
          have hrun' := run_lexeme part hc hl' ht'
          rw [List.cons_append] at hrun hrun'
          rw [hrun, hrun']
          exact run_unifyNewlinesAfter s' _ _ false behind
        | error stop =>
          rw [ht] at htake
          rw [run_refused hc, run_refused hc]
          · rw [hl, ht]
            rfl
          · rw [← unifyNewlines, hl', ← htake]
            rfl
      · rw [run_refused hc, run_refused hc]
        · rw [hbad, take_badText]
        · rw [← unifyNewlines, hbad', take_badText]
termination_by text.length

theorem mapError_toOption {ε ε' α : Type} (f : ε → ε') (x : Except ε α) :
    (x.mapError f).toOption = x.toOption := by
  cases x <;> rfl

/-- **A text is read as the same value when its line ends are unified**, or refused both times. -/
theorem read_unifyNewlines (text : List Char) :
    (read (unifyNewlines text)).toOption = (read text).toOption := by
  have hmark : (unifyNewlines text).head? = some '\uFEFF' ↔ text.head? = some '\uFEFF' := by
    have hu : Unbroken ['\uFEFF'] := by decide
    rw [List.head?_eq_some_iff, List.head?_eq_some_iff]
    constructor
    · rintro ⟨_, h⟩
      obtain ⟨rest, rfl, -⟩ := prefix_of_unifyNewlines hu h
      exact ⟨rest, rfl⟩
    · rintro ⟨rest, rfl⟩
      exact ⟨_, unifyNewlines_unbroken_append hu rest⟩
  unfold read
  by_cases hb : text.head? = some '\uFEFF'
  · rw [if_pos hb, if_pos (hmark.mpr hb)]
    rfl
  · rw [if_neg hb, if_neg (mt hmark.mp hb), mapError_toOption, mapError_toOption]
    exact run_unifyNewlinesAfter .start 0 0 false text

end Json
end VoxelBlueprint
