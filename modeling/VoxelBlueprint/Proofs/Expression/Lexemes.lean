/-
# Lexemes

Which texts are expressions as far as their characters go, and what their tokens are. A text is
laid out as blanks and lexemes; the character behind a lexeme never goes on with it. Splitting a
text into tokens finds this layout, and if there is none, the first character that belongs to no
expression.

Key definitions: `Expression.IsLexical`, `Expression.Atom.IsLexeme`, `Expression.Laid`.
Key theorems: `Expression.tokenizeFrom_of_laid`, `Expression.tokenizeFrom_iff`,
`Expression.exists_tokenizeFrom_iff`, `Expression.tokenizeFrom_error_iff`.
-/
import Mathlib.Data.List.Basic
import VoxelBlueprint.Proofs.Effects
import VoxelBlueprint.Proofs.Expression.Numerals
import VoxelBlueprint.Proofs.Text.Strip

namespace VoxelBlueprint
namespace Expression

open Effects Text

/-! ### Characters -/

/-- Whether the character may stand in an expression: it is blank, a digit of some script, an ASCII
letter, an underscore or a mark. -/
def IsLexical (c : Char) : Prop :=
  isBlank c = true ∨ Text.isDigit c = true ∨ c.isAlpha = true ∨ c = '_' ∨
    c ∈ ['+', '-', '*', '/', '(', ')']

instance (c : Char) : Decidable (IsLexical c) :=
  inferInstanceAs (Decidable (_ ∨ _))

theorem Mark.ofChar?_eq_some {c : Char} {m : Mark} : ofChar? c = some m ↔ c = m.toChar := by
  constructor
  · intro h
    unfold ofChar? at h
    split at h <;> cases h <;> rfl
  · rintro rfl
    cases m <;> rfl

theorem isNameStart_iff {c : Char} : isNameStart c = true ↔ c.isAlpha = true ∨ c = '_' := by
  simp [isNameStart]

theorem mem_marks_iff {c : Char} :
    c ∈ ['+', '-', '*', '/', '(', ')'] ↔ ∃ m, Mark.ofChar? c = some m := by
  constructor
  · simp only [List.mem_cons, List.not_mem_nil, or_false]
    rintro (rfl | rfl | rfl | rfl | rfl | rfl) <;> exact ⟨_, rfl⟩
  · rintro ⟨m, hm⟩
    rw [Mark.ofChar?_eq_some.mp hm]
    cases m <;> decide

/-- The character is of one of the kinds that the tokens are told apart by. -/
theorem isLexical_iff {c : Char} : IsLexical c ↔ isBlank c = true ∨ Text.isDigit c = true ∨
    isNameStart c = true ∨ ∃ m, Mark.ofChar? c = some m := by
  rw [IsLexical, isNameStart_iff, mem_marks_iff, or_assoc]

/-- The characters that may start a name. -/
def startRanges : Text.Ranges := [(0x41, 0x5A), (0x5F, 0x5F), (0x61, 0x7A)]

/-- A character between two others lies in the range of their code points. -/
theorem inRange_of_le {a b c : Char} (ha : a.val ≤ c.val) (hb : c.val ≤ b.val) :
    (a.toNat ≤ c.toNat && c.toNat ≤ b.toNat) = true :=
  Bool.and_eq_true_iff.mpr ⟨decide_eq_true (UInt32.le_iff_toNat_le.mp ha),
    decide_eq_true (UInt32.le_iff_toNat_le.mp hb)⟩

theorem inRanges_of_isNameStart {c : Char} (h : isNameStart c = true) :
    Text.inRanges startRanges c = true := by
  have hin {a b : Char} (hmem : (a.toNat, b.toNat) ∈ startRanges) (ha : a.val ≤ c.val)
      (hb : c.val ≤ b.val) : Text.inRanges startRanges c = true :=
    List.any_eq_true.mpr ⟨_, hmem, inRange_of_le ha hb⟩
  rcases Bool.or_eq_true_iff.mp h with halpha | hunder
  · rcases Bool.or_eq_true_iff.mp halpha with hupper | hlower
    · obtain ⟨ha, hb⟩ := of_decide_eq_true hupper
      exact hin (by decide) ha hb
    · obtain ⟨ha, hb⟩ := Bool.and_eq_true_iff.mp hlower
      exact hin (by decide) (of_decide_eq_true ha) (of_decide_eq_true hb)
  · rw [of_decide_eq_true hunder]
    decide

theorem inRanges_of_isNamePart {c : Char} (h : isNamePart c = true) :
    Text.inRanges ((0x30, 0x39) :: startRanges) c = true := by
  rcases Bool.or_eq_true_iff.mp h with hstart | hdigit
  · obtain ⟨range, hmem, hin⟩ := List.any_eq_true.mp (inRanges_of_isNameStart hstart)
    exact List.any_eq_true.mpr ⟨range, List.mem_cons_of_mem _ hmem, hin⟩
  · obtain ⟨ha, hb⟩ := Bool.and_eq_true_iff.mp hdigit
    exact List.any_eq_true.mpr ⟨_, List.mem_cons_self,
      inRange_of_le (of_decide_eq_true ha) (of_decide_eq_true hb)⟩

theorem isBlank_of_isNameStart {c : Char} (h : isNameStart c = true) : isBlank c = false :=
  not_inRanges_of_apart (by decide) (inRanges_of_isNameStart h)

theorem isBlank_of_isNamePart {c : Char} (h : isNamePart c = true) : isBlank c = false :=
  not_inRanges_of_apart (by decide) (inRanges_of_isNamePart h)

theorem isDigit_of_isNameStart {c : Char} (h : isNameStart c = true) : Text.isDigit c = false :=
  not_inRanges_of_apart (by decide) (inRanges_of_isNameStart h)

theorem isNamePart_iff {c : Char} :
    isNamePart c = true ↔ isNameStart c = true ∨ c.isDigit = true := by
  simp [isNamePart]

/-- An ASCII digit is a digit. -/
theorem isDigit_of_ascii {c : Char} (h : c.isDigit = true) : Text.isDigit c = true := by
  obtain ⟨ha, hb⟩ := Bool.and_eq_true_iff.mp h
  exact List.any_eq_true.mpr ⟨(0x30, 0x39), List.mem_cons_self,
    inRange_of_le (of_decide_eq_true ha) (of_decide_eq_true hb)⟩

theorem isLexical_of_isDigit {c : Char} (h : Text.isDigit c = true) : IsLexical c :=
  isLexical_iff.mpr (.inr (.inl h))

theorem isLexical_of_isNameStart {c : Char} (h : isNameStart c = true) : IsLexical c :=
  isLexical_iff.mpr (.inr (.inr (.inl h)))

theorem isLexical_of_isNamePart {c : Char} (h : isNamePart c = true) : IsLexical c :=
  (isNamePart_iff.mp h).elim isLexical_of_isNameStart
    fun hd => isLexical_of_isDigit (isDigit_of_ascii hd)

/-! ### Lexemes -/

/-- Whether the token is one that can be written: a run of digits, a name or a mark. -/
def Atom.IsLexeme : Atom → Prop
  | .number digits => digits ≠ [] ∧ ∀ c ∈ digits, Text.isDigit c = true
  | .name letters => ∃ c rest, letters = c :: rest ∧ isNameStart c = true ∧
      ∀ d ∈ rest, isNamePart d = true
  | .mark _ => True

/-- Whether a character goes on with a token that starts with the character `first`. -/
def continues (first c : Char) : Bool :=
  if Text.isDigit first then Text.isDigit c else isNameStart first && isNamePart c

theorem continues_digit {first : Char} (h : Text.isDigit first = true) :
    continues first = Text.isDigit :=
  funext fun _ => if_pos h

theorem continues_nameStart {first : Char} (h : isNameStart first = true) :
    continues first = isNamePart := by
  funext c
  rw [continues, if_neg (by simp [isDigit_of_isNameStart h]), h, Bool.true_and]

theorem continues_mark (m : Mark) (c : Char) : continues m.toChar c = false := by
  cases m <;> rfl

/-- No token goes on behind a blank. -/
theorem continues_blank (first : Char) {c : Char} (hc : isBlank c = true) :
    continues first c = false := by
  unfold continues
  split
  · refine Bool.eq_false_iff.mpr fun hd => ?_
    rw [isBlank_of_isDigit hd] at hc
    cases hc
  · refine Bool.and_eq_false_iff.mpr (.inr (Bool.eq_false_iff.mpr fun hp => ?_))
    rw [isBlank_of_isNamePart hp] at hc
    cases hc

/-- A lexeme goes on from its first character to its end. -/
theorem Atom.IsLexeme.exists_text {atom : Atom} (h : atom.IsLexeme) :
    ∃ first rest, atom.text = first :: rest ∧ ∀ c ∈ rest, continues first c = true := by
  cases atom with
  | number digits =>
    obtain ⟨hne, hd⟩ := h
    obtain ⟨first, rest, rfl⟩ := List.exists_cons_of_ne_nil hne
    obtain ⟨hfirst, hrest⟩ := List.forall_mem_cons.mp hd
    refine ⟨first, rest, rfl, ?_⟩
    rwa [continues_digit hfirst]
  | name letters =>
    obtain ⟨first, rest, rfl, hfirst, hrest⟩ := h
    refine ⟨first, rest, rfl, ?_⟩
    rwa [continues_nameStart hfirst]
  | mark m => exact ⟨m.toChar, [], rfl, List.forall_mem_nil _⟩

theorem Atom.IsLexeme.text_ne_nil {atom : Atom} (h : atom.IsLexeme) : atom.text ≠ [] := by
  obtain ⟨first, rest, ht, -⟩ := h.exists_text
  simp [ht]

theorem Atom.IsLexeme.isLexical {atom : Atom} (h : atom.IsLexeme) :
    ∀ c ∈ atom.text, IsLexical c := by
  cases atom with
  | number digits => exact fun c hc => isLexical_of_isDigit (h.2 c hc)
  | name letters =>
    obtain ⟨first, rest, rfl, hfirst, hrest⟩ := h
    exact List.forall_mem_cons.mpr ⟨isLexical_of_isNameStart hfirst,
      fun c hc => isLexical_of_isNamePart (hrest c hc)⟩
  | mark m =>
    exact List.forall_mem_singleton.mpr
      (isLexical_iff.mpr (.inr (.inr (.inr ⟨m, Mark.ofChar?_eq_some.mpr rfl⟩))))

/-- Whether the text does not go on with the token in front of it. -/
def Atom.EndsAt (atom : Atom) (behind : List Char) : Prop :=
  ∀ first c, atom.text.head? = some first → behind.head? = some c → continues first c = false

/-- Before a blank, and at the end of the text, every token ends. -/
theorem Atom.endsAt_blanks (atom : Atom) {behind : List Char}
    (hb : ∀ c ∈ behind, isBlank c = true) : atom.EndsAt behind :=
  fun first _ _ hc => continues_blank first (hb _ (List.mem_of_head? hc))

/-- A mark ends wherever it stands. -/
theorem Atom.endsAt_mark (m : Mark) (behind : List Char) : (Atom.mark m).EndsAt behind :=
  fun first c hf _ => by
    cases hf
    exact continues_mark m c

/-- A lexeme that another one ends before is no longer than it. -/
theorem Atom.IsLexeme.length_le {atom other : Atom} (h : atom.IsLexeme) (ho : other.IsLexeme)
    {behind : List Char} (he : atom.EndsAt behind) (hp : other.text <+: atom.text ++ behind) :
    other.text.length ≤ atom.text.length := by
  by_contra hlt
  have hle : atom.text.length ≤ other.text.length := Nat.le_of_not_le hlt
  obtain ⟨more, hmore⟩ := List.prefix_of_prefix_length_le (List.prefix_append _ behind) hp hle
  obtain ⟨first, rest, ht, -⟩ := h.exists_text
  obtain ⟨first', rest', ht', hrest'⟩ := ho.exists_text
  cases more with
  | nil => exact hlt (Nat.le_of_eq (by rw [← hmore, List.append_nil]))
  | cons c more =>
    obtain ⟨tail, htail⟩ := hp
    rw [← hmore, List.append_assoc, List.append_cancel_left_eq] at htail
    rw [ht, ht', List.cons_append] at hmore
    obtain ⟨rfl, rfl⟩ := List.cons.inj hmore
    have hstop := he first c (by rw [ht]; rfl) (by rw [← htail]; rfl)
    rw [hrest' c (List.mem_append_right _ List.mem_cons_self)] at hstop
    cases hstop

/-! ### Layouts -/

/-- How a text that starts at a position is laid out: as blanks and lexemes, behind each of which
the text does not go on with it. -/
inductive Laid : ℕ → List Char → List Token → Prop
  | nil {position : ℕ} : Laid position [] []
  | blank {position : ℕ} {c : Char} {text : List Char} {tokens : List Token} :
    isBlank c = true → Laid (position + 1) text tokens → Laid position (c :: text) tokens
  | token {position : ℕ} {atom : Atom} {text : List Char} {tokens : List Token} :
    atom.IsLexeme → atom.EndsAt text → Laid (position + atom.text.length) text tokens →
    Laid position (atom.text ++ text) (⟨atom, position⟩ :: tokens)

section Laid

variable {position : ℕ} {text : List Char} {tokens : List Token}

/-- A mark may come before everything. -/
theorem Laid.mark (m : Mark) (h : Laid (position + 1) text tokens) :
    Laid position (m.toChar :: text) (⟨.mark m, position⟩ :: tokens) :=
  .token (show (Atom.mark m).IsLexeme from trivial) (Atom.endsAt_mark m text) h

/-- Blanks in front only shift the positions of tokens. -/
theorem Laid.behind_blanks {before : List Char} (hb : ∀ c ∈ before, isBlank c = true)
    (h : Laid (position + before.length) text tokens) :
    Laid position (before ++ text) tokens := by
  induction before generalizing position with
  | nil => exact h
  | cons c before ih =>
    obtain ⟨hc, hb⟩ := List.forall_mem_cons.mp hb
    refine .blank hc (ih hb ?_)
    rwa [Nat.add_assoc, Nat.add_comm 1]

/-- There are no tokens in blanks. -/
theorem laid_blanks {blanks : List Char} (hb : ∀ c ∈ blanks, isBlank c = true) (position : ℕ) :
    Laid position blanks [] := by
  rw [← List.append_nil blanks]
  exact Laid.nil.behind_blanks hb

/-- A lexeme with blanks behind it is one token. -/
theorem Atom.IsLexeme.laid {atom : Atom} (h : atom.IsLexeme) {behind : List Char}
    (hb : ∀ c ∈ behind, isBlank c = true) (position : ℕ) :
    Laid position (atom.text ++ behind) [⟨atom, position⟩] :=
  .token h (atom.endsAt_blanks hb) (laid_blanks hb _)

end Laid

/-- What comes of a text that starts at a position: a layout, or the first character that belongs
to no expression. -/
def Scanned (position : ℕ) (text : List Char) : Except Fault (List Token) → Prop
  | .ok tokens => Laid position text tokens
  | .error fault => ∃ before c behind, text = before ++ c :: behind ∧
      (∀ d ∈ before, IsLexical d) ∧ ¬ IsLexical c ∧
      fault = .invalidCharacter c (position + before.length)

section Scanning

variable {position : ℕ} {text : List Char}

/-- A part whose characters all belong to expressions may come before what is scanned. -/
theorem Scanned.behind (front : List Char) {fault : Fault} (hf : ∀ d ∈ front, IsLexical d)
    (h : Scanned (position + front.length) text (.error fault)) :
    Scanned position (front ++ text) (.error fault) := by
  obtain ⟨before, c, behind, rfl, hbefore, hc, rfl⟩ := h
  refine ⟨front ++ before, c, behind, (List.append_assoc _ _ _).symm,
    List.forall_mem_append.mpr ⟨hf, hbefore⟩, hc, ?_⟩
  rw [List.length_append, Nat.add_assoc]

theorem Scanned.token {atom : Atom} {scanned : Except Fault (List Token)} (ha : atom.IsLexeme)
    (he : atom.EndsAt text) (h : Scanned (position + atom.text.length) text scanned) :
    Scanned position (atom.text ++ text) (do return ⟨atom, position⟩ :: (← scanned)) := by
  cases scanned with
  | ok tokens => exact Laid.token ha he h
  | error fault => exact h.behind _ ha.isLexical

/-- A run of characters that go on with a token ends where they do not. -/
theorem endsAt_dropWhile {first : Char} {rest : List Char} {atom : Atom} {p : Char → Bool}
    (ht : atom.text = first :: rest) (hp : continues first = p) (s : List Char) :
    atom.EndsAt (s.dropWhile p) := by
  intro first' c hf hc
  rw [ht] at hf
  cases hf
  have h := List.head?_dropWhile_not p s
  rw [hc] at h
  rw [hp]
  simpa using h

/-- Splitting a text into tokens scans it. -/
theorem scanned_tokenizeFrom (position : ℕ) (text : List Char) :
    Scanned position text (tokenizeFrom position text) := by
  induction position, text using tokenizeFrom.induct with
  | case1 position =>
    rw [tokenizeFrom]
    exact Laid.nil
  | case2 position c rest hb ih =>
    rw [tokenizeFrom, if_pos hb]
    cases hr : tokenizeFrom (position + 1) rest with
    | ok tokens =>
      rw [hr] at ih
      exact Laid.blank hb ih
    | error fault =>
      rw [hr] at ih
      exact Scanned.behind [c]
        (List.forall_mem_singleton.mpr (isLexical_iff.mpr (.inl hb))) ih
  | case3 position c rest hb hd digits ih =>
    have hl : (Atom.number digits).IsLexeme :=
      ⟨List.cons_ne_nil _ _, List.forall_mem_cons.mpr ⟨hd, List.all_eq_true.mp List.all_takeWhile⟩⟩
    have ht : c :: rest = (Atom.number digits).text ++ rest.dropWhile Text.isDigit :=
      congrArg (c :: ·) List.takeWhile_append_dropWhile.symm
    rw [tokenizeFrom, if_neg hb, if_pos hd, ht]
    exact .token hl (endsAt_dropWhile rfl (continues_digit hd) rest) ih
  | case4 position c rest hb hd hn letters ih =>
    have hl : (Atom.name letters).IsLexeme :=
      ⟨c, _, rfl, hn, List.all_eq_true.mp List.all_takeWhile⟩
    have ht : c :: rest = (Atom.name letters).text ++ rest.dropWhile isNamePart :=
      congrArg (c :: ·) List.takeWhile_append_dropWhile.symm
    rw [tokenizeFrom, if_neg hb, if_neg hd, if_pos hn, ht]
    exact .token hl (endsAt_dropWhile rfl (continues_nameStart hn) rest) ih
  | case5 position c rest hb hd hn m hm ih =>
    rw [tokenizeFrom, if_neg hb, if_neg hd, if_neg hn, hm, Mark.ofChar?_eq_some.mp hm]
    exact Scanned.token (show (Atom.mark m).IsLexeme from trivial) (Atom.endsAt_mark m rest) ih
  | case6 position c rest hb hd hn hm =>
    rw [tokenizeFrom, if_neg hb, if_neg hd, if_neg hn, hm]
    refine ⟨[], c, rest, rfl, List.forall_mem_nil _, fun hc => ?_, rfl⟩
    obtain h | h | h | ⟨m, h⟩ := isLexical_iff.mp hc
    · exact hb h
    · exact hd h
    · exact hn h
    · rw [hm] at h
      cases h

/-- **The tokens of a text are those of its layout.** -/
theorem tokenizeFrom_of_laid {tokens : List Token} (h : Laid position text tokens) :
    tokenizeFrom position text = .ok tokens := by
  induction h with
  | nil => rw [tokenizeFrom]
  | blank hb _ ih => rw [tokenizeFrom, if_pos hb, ih]
  | @token position atom text tokens ha he _ ih =>
    cases atom with
    | number digits =>
      obtain ⟨hne, hd⟩ := ha
      obtain ⟨c, rest, rfl⟩ := List.exists_cons_of_ne_nil hne
      obtain ⟨hc, hrest⟩ := List.forall_mem_cons.mp hd
      have hstop : ∀ d, text.head? = some d → Text.isDigit d = false := fun d hd =>
        continues_digit hc ▸ he c d rfl hd
      obtain ⟨htake, hdrop⟩ := span_append hrest hstop
      show tokenizeFrom position (c :: (rest ++ text)) = _
      rw [tokenizeFrom, if_neg (by simp [isBlank_of_isDigit hc]), if_pos hc, htake, hdrop]
      dsimp only
      rw [show position + (c :: rest).length = position + (Atom.number (c :: rest)).text.length
        from rfl, ih]
      rfl
    | name letters =>
      obtain ⟨c, rest, rfl, hc, hrest⟩ := ha
      have hstop : ∀ d, text.head? = some d → isNamePart d = false := fun d hd =>
        continues_nameStart hc ▸ he c d rfl hd
      obtain ⟨htake, hdrop⟩ := span_append hrest hstop
      show tokenizeFrom position (c :: (rest ++ text)) = _
      rw [tokenizeFrom, if_neg (by simp [isBlank_of_isNameStart hc]),
        if_neg (by simp [isDigit_of_isNameStart hc]), if_pos hc, htake, hdrop]
      dsimp only
      rw [show position + (c :: rest).length = position + (Atom.name (c :: rest)).text.length
        from rfl, ih]
      rfl
    | mark m =>
      show tokenizeFrom position (m.toChar :: text) = _
      rw [tokenizeFrom, if_neg (by cases m <;> decide), if_neg (by cases m <;> decide),
        if_neg (by cases m <;> decide), Mark.ofChar?_eq_some.mpr rfl]
      dsimp only
      rw [show position + 1 = position + (Atom.mark m).text.length from rfl, ih]
      rfl

theorem tokenizeFrom_iff {tokens : List Token} :
    tokenizeFrom position text = .ok tokens ↔ Laid position text tokens := by
  refine ⟨fun h => ?_, tokenizeFrom_of_laid⟩
  have hs := scanned_tokenizeFrom position text
  rwa [h] at hs

/-- All characters of a text that is laid out belong to expressions. -/
theorem Laid.isLexical {tokens : List Token} (h : Laid position text tokens) :
    ∀ c ∈ text, IsLexical c := by
  induction h with
  | nil => exact List.forall_mem_nil _
  | blank hb _ ih => exact List.forall_mem_cons.mpr ⟨isLexical_iff.mpr (.inl hb), ih⟩
  | token ha _ _ ih => exact List.forall_mem_append.mpr ⟨ha.isLexical, ih⟩

/-- A text has tokens just if all its characters belong to expressions. -/
theorem exists_tokenizeFrom_iff :
    (∃ tokens, tokenizeFrom position text = .ok tokens) ↔ ∀ c ∈ text, IsLexical c := by
  constructor
  · rintro ⟨tokens, h⟩
    exact (tokenizeFrom_iff.mp h).isLexical
  · intro h
    have hs := scanned_tokenizeFrom position text
    cases ht : tokenizeFrom position text with
    | ok tokens => exact ⟨tokens, rfl⟩
    | error fault =>
      rw [ht] at hs
      obtain ⟨before, c, behind, rfl, -, hc, -⟩ := hs
      exact absurd (h c (List.mem_append_right _ List.mem_cons_self)) hc

/-- The first item of a list that does not have a property stands at one place. -/
theorem first_unique {α : Type} {P : α → Prop} {c d : α} {s t : List α} :
    ∀ {before front : List α}, before ++ c :: s = front ++ d :: t → (∀ x ∈ before, P x) →
      (∀ x ∈ front, P x) → ¬ P c → ¬ P d → before = front ∧ c = d
  | [], [], h, _, _, _, _ => ⟨rfl, (List.cons.inj h).1⟩
  | [], x :: front, h, _, hf, hc, _ =>
    absurd ((List.cons.inj h).1 ▸ hf x List.mem_cons_self) hc
  | x :: before, [], h, hb, _, _, hd =>
    absurd ((List.cons.inj h).1 ▸ hb x List.mem_cons_self) hd
  | x :: before, y :: front, h, hb, hf, hc, hd => by
    obtain ⟨rfl, htail⟩ := List.cons.inj h
    obtain ⟨rfl, rfl⟩ := first_unique htail (List.forall_mem_cons.mp hb).2
      (List.forall_mem_cons.mp hf).2 hc hd
    exact ⟨rfl, rfl⟩

/-- **The fault of a text without tokens is its first character that belongs to no
expression.** -/
theorem tokenizeFrom_error_iff {fault : Fault} : tokenizeFrom position text = .error fault ↔
    ∃ before c behind, text = before ++ c :: behind ∧ (∀ d ∈ before, IsLexical d) ∧
      ¬ IsLexical c ∧ fault = .invalidCharacter c (position + before.length) := by
  constructor
  · intro h
    have hs := scanned_tokenizeFrom position text
    rwa [h] at hs
  · rintro ⟨before, c, behind, rfl, hbefore, hc, rfl⟩
    have hs := scanned_tokenizeFrom position (before ++ c :: behind)
    cases ht : tokenizeFrom position (before ++ c :: behind) with
    | ok tokens =>
      have hall := exists_tokenizeFrom_iff.mp ⟨tokens, ht⟩
      exact absurd (hall c (List.mem_append_right _ List.mem_cons_self)) hc
    | error fault =>
      rw [ht] at hs
      obtain ⟨front, d, rest, htext, hfront, hd, rfl⟩ := hs
      obtain ⟨rfl, rfl⟩ := first_unique htext hbefore hfront hc hd
      rfl

end Scanning

end Expression
end VoxelBlueprint
