/-
# What was read can be written

A value can be written as a text unless a whole number in it has more digits than a numeral may
have. A numeral with so many digits is not read either. What is read of a text is put together of
scalar values and strings, so whatever these have in common and arrays and objects take over from
their parts is true of every value that was read; and every such value can be written.

Key definitions: `Json.Reader.State.Made`.
Key theorems: `Json.of_read`, `Json.hasText_of_read`.
-/
import VoxelBlueprint.Json.Display
import VoxelBlueprint.Json.Reader
import VoxelBlueprint.Proofs.Effects
import VoxelBlueprint.Proofs.Json.Strings

namespace VoxelBlueprint
namespace Json

open Effects Reader

/-! ### What the reader puts together -/

section Made

variable {P : Json → Prop}

/-- Whether all values that enclose the next one have a property. -/
def Reader.Frame.Made (P : Json → Prop) : Frame → Prop
  | .array items => ∀ item ∈ items, P item
  | .object fields _ => ∀ field ∈ fields, P field.2

/-- Whether all values that were read inside the innermost array or object have a property. -/
def Reader.Expected.Made (P : Json → Prop) : Expected → Prop
  | .nextItem items => ∀ item ∈ items, P item
  | .key fields | .colon fields _ | .nextKey fields => ∀ field ∈ fields, P field.2
  | .nothing whole => P whole
  | .value | .firstItem | .firstKey => True

/-- Whether all values that were read have a property. -/
structure Reader.State.Made (P : Json → Prop) (s : State) : Prop where
  frames : ∀ frame ∈ s.frames, frame.Made P
  expected : s.expected.Made P

theorem forall_mem_setField {name : String} {value : Json} (hv : P value) :
    ∀ {fields : List (String × Json)}, (∀ field ∈ fields, P field.2) →
      ∀ field ∈ setField name value fields, P field.2
  | [], _ => List.forall_mem_singleton.mpr hv
  | (n, v) :: fields, h => by
    obtain ⟨hfirst, hrest⟩ := List.forall_mem_cons.mp h
    rw [setField]
    split
    · exact List.forall_mem_cons.mpr ⟨hv, hrest⟩
    · exact List.forall_mem_cons.mpr ⟨hfirst, forall_mem_setField hv hrest⟩

/-- A value is put into the array or object around it. -/
theorem made_complete {value : Json} (hv : P value) {frames : List Frame}
    (hf : ∀ frame ∈ frames, frame.Made P) : (complete value frames).Made P := by
  cases frames with
  | nil => exact ⟨hf, hv⟩
  | cons frame frames =>
    obtain ⟨hframe, hrest⟩ := List.forall_mem_cons.mp hf
    cases frame with
    | array items => exact ⟨hrest, List.forall_mem_cons.mpr ⟨hv, hframe⟩⟩
    | object fields key => exact ⟨hrest, forall_mem_setField hv hframe⟩

variable (hstr : ∀ text, P (.str text)) (harr : ∀ items, (∀ item ∈ items, P item) → P (.arr items))
  (hobj : ∀ fields, (∀ field ∈ fields, P field.2) → P (.obj fields))

include hstr

theorem made_takeValue {frames : List Frame} (hf : ∀ frame ∈ frames, frame.Made P)
    {position : Nat} {lexeme : Lexeme} (hl : ∀ value, lexeme = .scalar value → P value) {s : State}
    (h : takeValue frames position lexeme = .ok s) : s.Made P := by
  have henter (inArray : Bool) (h : enter frames inArray = .ok s) : s.Made P := by
    unfold enter at h
    split at h
    · cases h
      exact ⟨hf, by cases inArray <;> trivial⟩
    · cases h
  unfold takeValue at h
  split at h
  · cases h
    exact made_complete (hl _ rfl) hf
  · cases h
    exact made_complete (hstr _) hf
  · exact henter _ h
  · exact henter _ h
  all_goals cases h

include harr hobj

/-- A lexeme that is taken leaves what was read before, or puts something together of it. -/
theorem made_take {s s' : State} (hs : s.Made P) {position : Nat} {lexeme : Lexeme}
    (hl : ∀ value, lexeme = .scalar value → P value) (h : s.take position lexeme = .ok s') :
    s'.Made P := by
  obtain ⟨frames, expected⟩ := s
  obtain ⟨hf, he⟩ := hs
  unfold State.take at h
  dsimp only at hf he h
  split at h
  case h_1 => exact made_takeValue hstr hf hl h
  case h_2 =>
    cases h
    exact made_complete (harr [] (List.forall_mem_nil _)) hf
  case h_3 =>
    have hempty : Frame.Made P (.array []) := List.forall_mem_nil _
    exact made_takeValue hstr (List.forall_mem_cons.mpr ⟨hempty, hf⟩) hl h
  case h_4 =>
    cases h
    exact made_complete (harr _ fun item hi => he item (List.mem_reverse.mp hi)) hf
  case h_5 =>
    cases h
    exact ⟨List.forall_mem_cons.mpr ⟨he, hf⟩, trivial⟩
  case h_6 =>
    cases h
    exact made_complete (hobj [] (List.forall_mem_nil _)) hf
  case h_7 =>
    cases h
    exact ⟨hf, List.forall_mem_nil _⟩
  case h_8 =>
    cases h
    exact ⟨hf, he⟩
  case h_11 =>
    cases h
    exact ⟨List.forall_mem_cons.mpr ⟨he, hf⟩, trivial⟩
  case h_12 =>
    cases h
    exact made_complete (hobj _ he) hf
  case h_13 =>
    cases h
    exact ⟨hf, he⟩
  all_goals cases h

variable (hscalar : ∀ {position : Nat} {c : Char} {rest : List Char} {value : Json},
  (Lexeme.read position c rest).1 = .scalar value → P value)

include hscalar

theorem of_run {value : Json} : ∀ (text : List Char) (s : State) (skip position : Nat),
    s.Made P → run s skip position text = .ok value → P value
  | [], s, _, _, hs, h => by
    rw [run, State.finish] at h
    split at h
    · rename_i he
      cases h
      have := hs.expected
      rwa [he] at this
    · cases h
  | c :: rest, s, skip + 1, position, hs, h => of_run rest s skip (position + 1) hs h
  | c :: rest, s, 0, position, hs, h => by
    rw [run] at h
    split at h
    · exact of_run rest s 0 (position + 1) hs h
    · dsimp only at h
      split at h
      · rename_i s' ht
        exact of_run rest s' _ (position + 1) (made_take hstr harr hobj hs (fun _ => hscalar) ht) h
      · cases h

/-- **What scalar values and strings have in common, and arrays and objects take over from their
parts, every value has that was read.** -/
theorem of_read {text : List Char} {value : Json} (h : read text = .ok value) : P value := by
  unfold read at h
  split at h
  · cases h
  · cases hr : run .start 0 0 text with
    | error stop =>
      rw [hr] at h
      cases h
    | ok value' =>
      rw [hr] at h
      cases h
      exact of_run hstr harr hobj hscalar text .start 0 0 ⟨List.forall_mem_nil _, trivial⟩ hr

end Made

/-! ### Numerals -/

/-- So many digits write no more than numbers of so many digits. -/
theorem foldl_digits_lt : ∀ (digits : List Nat) (n : Nat), (∀ d ∈ digits, d < 10) →
    digits.foldl (fun n d => 10 * n + d) n < (n + 1) * 10 ^ digits.length
  | [], n, _ => by simp
  | d :: digits, n, h => by
    obtain ⟨hd, hdigits⟩ := List.forall_mem_cons.mp h
    calc (d :: digits).foldl (fun n d => 10 * n + d) n
      _ < (10 * n + d + 1) * 10 ^ digits.length := foldl_digits_lt digits _ hdigits
      _ ≤ ((n + 1) * 10) * 10 ^ digits.length := Nat.mul_le_mul_right _ (by omega)
      _ = (n + 1) * 10 ^ (d :: digits).length := by
        rw [List.length_cons, Nat.pow_succ, Nat.mul_assoc, Nat.mul_comm 10]

theorem digitsValue_lt {digits : List Char} (h : ∀ c ∈ digits, c.isDigit = true) :
    digitsValue digits < 10 ^ digits.length := by
  have hd : ∀ d ∈ digits.map fun c => c.toNat - 0x30, d < 10 := by
    refine List.forall_mem_map.mpr fun c hc => ?_
    have hle : c.toNat ≤ 57 := (Char.isDigit_iff_toNat.mp (h c hc)).2
    omega
  have hlt := foldl_digits_lt _ 0 hd
  rwa [List.length_map, Nat.zero_add, Nat.one_mul] at hlt

/-- A number below a power of ten has no more digits than that. -/
theorem length_toString_le {n digits : Nat} (h0 : 0 < digits) (h : n < 10 ^ digits) :
    (toString n).length ≤ digits := by
  rw [Nat.toString_eq_ofList_toDigits, String.length_ofList]
  exact (Nat.length_toDigits_le_iff (by decide) h0).mpr h

theorem isDigit_of_mem_wholePart {s : List Char} {c : Char} (h : c ∈ wholePart s) :
    c.isDigit = true := by
  unfold wholePart at h
  split at h
  · rw [List.mem_singleton.mp h]
    rfl
  · exact List.all_eq_true.mp List.all_takeWhile c h

/-- The whole part of what is read as a number is the digits at the start of its text. -/
theorem isDigit_of_numberParts? {s : List Char} {parts : NumberParts}
    (h : numberParts? s = some parts) : ∀ c ∈ parts.whole, c.isDigit = true := by
  unfold numberParts? at h
  split at h
  dsimp only at h
  split at h
  · cases h
  · cases h
    exact fun c => isDigit_of_mem_wholePart

/-- A number that was read has a literal. -/
theorem literal?_of_numberParts {parts : NumberParts} {value : Json}
    (hd : ∀ c ∈ parts.whole, c.isDigit = true) (h : parts.lexeme = .scalar value) :
    value.literal?.isSome = true := by
  unfold NumberParts.lexeme at h
  split at h
  · split at h
    · cases h
    · rename_i hl
      cases h
      have hn : digitsValue parts.whole < 10 ^ Numeral.maxDigits :=
        Nat.lt_of_lt_of_le (digitsValue_lt hd)
          (Nat.pow_le_pow_right (by decide) (Nat.not_lt.mp hl))
      have habs : (if parts.negative then -(digitsValue parts.whole : Int)
          else digitsValue parts.whole).natAbs = digitsValue parts.whole := by
        split <;> omega
      rw [literal?, Numeral.write?, habs, if_pos (length_toString_le (by decide) hn)]
      rfl
  · cases h
    rfl

/-- A scalar value that was read has a literal. -/
theorem literal?_of_scalar {position : Nat} {c : Char} {rest : List Char} {value : Json}
    (h : (Lexeme.read position c rest).1 = .scalar value) : value.literal?.isSome = true := by
  have hscalar {s : List Char} (h : (readScalar s).1 = .scalar value) :
      value.literal?.isSome = true := by
    unfold readScalar at h
    split at h
    · rename_i word value' hw
      cases h
      have hwords : words.all (fun word => word.2.literal?.isSome) = true := by decide
      exact List.all_eq_true.mp hwords _ (List.mem_of_find?_eq_some hw)
    · split at h
      · rename_i parts hp
        exact literal?_of_numberParts (isDigit_of_numberParts? hp) h
      · cases h
  unfold Lexeme.read at h
  split at h
  case h_7 =>
    rcases readText_text_or_bad position (position + 1) [] rest with ⟨content, ht⟩ | ⟨_, _, ht⟩
    · rw [show (readText position (position + 1) [] rest).1 = .scalar value from h] at ht
      cases ht
    · rw [show (readText position (position + 1) [] rest).1 = .scalar value from h] at ht
      cases ht
  case h_8 => exact hscalar h
  all_goals cases h

/-! ### Literals -/

/-- An array has a literal if its items have. -/
theorem literal?_arr {items : List Json} (h : ∀ item ∈ items, item.literal?.isSome = true) :
    (arr items).literal?.isSome = true := by
  have hitems : (itemLiterals? items).isSome = true := by
    induction items with
    | nil => rfl
    | cons item items ih =>
      obtain ⟨hfirst, hrest⟩ := List.forall_mem_cons.mp h
      obtain ⟨text, ht⟩ := Option.isSome_iff_exists.mp hfirst
      obtain ⟨texts, hts⟩ := Option.isSome_iff_exists.mp (ih hrest)
      rw [itemLiterals?, ht, hts]
      rfl
  obtain ⟨texts, ht⟩ := Option.isSome_iff_exists.mp hitems
  rw [literal?, ht]
  rfl

/-- An object has a literal if its fields have. -/
theorem literal?_obj {fields : List (String × Json)}
    (h : ∀ field ∈ fields, field.2.literal?.isSome = true) :
    (obj fields).literal?.isSome = true := by
  have hfields : (fieldLiterals? fields).isSome = true := by
    induction fields with
    | nil => rfl
    | cons field fields ih =>
      obtain ⟨name, value⟩ := field
      obtain ⟨hfirst, hrest⟩ := List.forall_mem_cons.mp h
      obtain ⟨text, ht⟩ := Option.isSome_iff_exists.mp hfirst
      obtain ⟨texts, hts⟩ := Option.isSome_iff_exists.mp (ih hrest)
      rw [fieldLiterals?, ht, hts]
      rfl
  obtain ⟨texts, ht⟩ := Option.isSome_iff_exists.mp hfields
  rw [literal?, ht]
  rfl

/-- **Every value that was read can be written as a text.** -/
theorem hasText_of_read {text : List Char} {value : Json} (h : read text = .ok value) :
    value.HasText := by
  have hl : value.literal?.isSome = true :=
    of_read (P := fun value => value.literal?.isSome = true) (fun _ => rfl)
      (fun _ => literal?_arr) (fun _ => literal?_obj) literal?_of_scalar h
  unfold HasText written?
  split
  · rfl
  · exact hl

end Json
end VoxelBlueprint
