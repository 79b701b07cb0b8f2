/-
# Line ends that count as line feeds

Once every line end is a line feed, a text is in the same parts as before: what has no line end
in it stays as it is, and only blanks become blanks. Whether a part starts with a line feed that
belongs to a line end before it is all that has to be known of what comes before the part.

Key definitions: `Text.Unbroken`, `Text.endsInReturn`.
Key theorems: `Text.unifyNewlinesAfter_append`, `Text.unifyNewlinesAfter_eq_append`,
`Text.strip_unifyNewlines`.
-/
import VoxelBlueprint.Proofs.Text.Strip
import VoxelBlueprint.Text.Utf8

namespace VoxelBlueprint
namespace Text

/-- Whether a text has no line end in it. -/
def Unbroken (s : List Char) : Prop :=
  ∀ c ∈ s, c ≠ '\n' ∧ c ≠ '\r'

instance (s : List Char) : Decidable (Unbroken s) :=
  List.decidableBAll _ s

/-- Whether a carriage return is the last character before what follows a text, which itself
follows one if `before` is true. -/
def endsInReturn (before : Bool) : List Char → Bool
  | [] => before
  | c :: s => endsInReturn (c = '\r') s

variable {after : Bool} {c : Char} {s t : List Char}

@[simp]
theorem unifyNewlinesAfter_nil : unifyNewlinesAfter after [] = [] := by
  cases after <;> rfl

/-- A character is left out if it is the line feed of a line end before it. Every other one
becomes a line feed or, if it ends no line, stays. -/
theorem unifyNewlinesAfter_cons (after : Bool) (c : Char) :
    after = true ∧ c = '\n' ∧
        (∀ s, unifyNewlinesAfter after (c :: s) = unifyNewlinesAfter (c = '\r') s) ∨
      ∃ d, (d = '\n' ∨ d = c ∧ c ≠ '\n' ∧ c ≠ '\r') ∧
        ∀ s, unifyNewlinesAfter after (c :: s) = d :: unifyNewlinesAfter (c = '\r') s := by
  by_cases hr : c = '\r'
  · refine .inr ⟨'\n', .inl rfl, fun s => ?_⟩
    rw [hr]
    rfl
  · by_cases hn : c = '\n'
    · cases after with
      | true => exact .inl ⟨rfl, hn, fun s => by rw [hn]; rfl⟩
      | false => exact .inr ⟨'\n', .inl rfl, fun s => by rw [hn]; rfl⟩
    · refine .inr ⟨c, .inr ⟨rfl, hn, hr⟩, fun s => ?_⟩
      rw [unifyNewlinesAfter, decide_eq_false hr]
      · exact hr
      · exact hn

/-- A character that ends no line stays, and what comes before it no longer matters. -/
theorem unifyNewlinesAfter_plain (hn : c ≠ '\n') (hr : c ≠ '\r') :
    unifyNewlinesAfter after (c :: s) = c :: unifyNewlinesAfter false s := by
  rw [unifyNewlinesAfter]
  · exact hr
  · exact hn

/-- A text is unified part by part. -/
theorem unifyNewlinesAfter_append (after : Bool) (s t : List Char) :
    unifyNewlinesAfter after (s ++ t) =
      unifyNewlinesAfter after s ++ unifyNewlinesAfter (endsInReturn after s) t := by
  induction s generalizing after with
  | nil => rw [unifyNewlinesAfter_nil, endsInReturn, List.nil_append, List.nil_append]
  | cons c s ih =>
    rcases unifyNewlinesAfter_cons after c with ⟨-, -, h⟩ | ⟨d, -, h⟩
    · rw [List.cons_append, h, h, ih, endsInReturn]
    · rw [List.cons_append, h, h, ih, endsInReturn, List.cons_append]

/-- The parts of a unified text come from parts of the text. -/
theorem unifyNewlinesAfter_eq_append {x y : List Char}
    (h : unifyNewlinesAfter after s = x ++ y) :
    ∃ before behind, s = before ++ behind ∧ unifyNewlinesAfter after before = x ∧
      unifyNewlinesAfter (endsInReturn after before) behind = y := by
  induction s generalizing after x with
  | nil =>
    rw [unifyNewlinesAfter_nil] at h
    obtain ⟨rfl, rfl⟩ := List.append_eq_nil_iff.mp h.symm
    exact ⟨[], [], rfl, unifyNewlinesAfter_nil, unifyNewlinesAfter_nil⟩
  | cons c s ih =>
    rcases unifyNewlinesAfter_cons after c with ⟨-, -, hc⟩ | ⟨d, -, hc⟩
    · rw [hc] at h
      obtain ⟨before, behind, rfl, hx, hy⟩ := ih h
      exact ⟨c :: before, behind, rfl, (hc before).trans hx, hy⟩
    · rw [hc] at h
      cases x with
      | nil => exact ⟨[], c :: s, rfl, unifyNewlinesAfter_nil, (hc s).trans h⟩
      | cons e x =>
        obtain ⟨rfl, ht⟩ := List.cons.inj h
        obtain ⟨before, behind, rfl, hx, hy⟩ := ih ht
        exact ⟨c :: before, behind, rfl, (hc before).trans (congrArg _ hx), hy⟩

/-- A part without a line end stays as it is. -/
theorem unifyNewlinesAfter_unbroken (h : Unbroken s) : unifyNewlinesAfter after s = s := by
  induction s generalizing after with
  | nil => exact unifyNewlinesAfter_nil
  | cons c s ih =>
    obtain ⟨hn, hr⟩ := h c List.mem_cons_self
    rw [unifyNewlinesAfter_plain hn hr, ih fun d hd => h d (List.mem_cons_of_mem c hd)]

theorem endsInReturn_unbroken (h : Unbroken s) (hs : s ≠ []) : endsInReturn after s = false := by
  induction s generalizing after with
  | nil => exact absurd rfl hs
  | cons c s ih =>
    have hr : (decide (c = '\r')) = false := decide_eq_false (h c List.mem_cons_self).2
    rw [endsInReturn, hr]
    by_cases he : s = []
    · rw [he, endsInReturn]
    · exact ih (fun d hd => h d (List.mem_cons_of_mem c hd)) he

/-- A part without a line end at the start of a text is left alone. -/
theorem unifyNewlines_unbroken_append (h : Unbroken s) (t : List Char) :
    unifyNewlines (s ++ t) = s ++ unifyNewlines t := by
  rw [unifyNewlines, unifyNewlinesAfter_append, unifyNewlinesAfter_unbroken h]
  by_cases hs : s = []
  · rw [hs, endsInReturn, unifyNewlines]
  · rw [endsInReturn_unbroken h hs, unifyNewlines]

/-- A text is its first line, without what ends it, and the rest. -/
theorem exists_unbroken_append (s : List Char) :
    ∃ line rest, s = line ++ rest ∧ Unbroken line ∧
      ∀ c, rest.head? = some c → c = '\n' ∨ c = '\r' := by
  induction s with
  | nil => exact ⟨[], [], rfl, nofun, nofun⟩
  | cons c s ih =>
    by_cases hc : c = '\n' ∨ c = '\r'
    · refine ⟨[], c :: s, rfl, nofun, fun d hd => ?_⟩
      rw [List.head?_cons, Option.some.injEq] at hd
      exact hd ▸ hc
    · obtain ⟨line, rest, rfl, hline, hrest⟩ := ih
      exact ⟨c :: line, rest, rfl, List.forall_mem_cons.mpr ⟨not_or.mp hc, hline⟩, hrest⟩

/-- What is unified to a part without a line end is this part, behind no more than a line feed
that belongs to the line end before it. -/
theorem eq_of_unifyNewlinesAfter {x : List Char} (hx : Unbroken x)
    (h : unifyNewlinesAfter after s = x) : s = x ∨ after = true ∧ s = '\n' :: x := by
  induction s generalizing after x with
  | nil => exact .inl (h ▸ unifyNewlinesAfter_nil.symm)
  | cons c s ih =>
    rcases unifyNewlinesAfter_cons after c with ⟨ha, rfl, hc⟩ | ⟨d, hd, hc⟩
    · rw [hc] at h
      rcases ih hx h with rfl | ⟨hf, -⟩
      · exact .inr ⟨ha, rfl⟩
      · cases hf
    · rw [hc] at h
      rcases hd with rfl | ⟨rfl, -, hr⟩
      · exact absurd rfl (hx '\n' (h ▸ List.mem_cons_self)).1
      · rw [decide_eq_false hr] at h
        rw [← h] at hx ⊢
        rcases ih (fun e he => hx e (List.mem_cons_of_mem _ he)) rfl with hs | ⟨hf, -⟩
        · exact .inl (congrArg _ hs)
        · cases hf

/-- A part without a line end that a unified text starts with, the text starts with as well. -/
theorem prefix_of_unifyNewlines {x y : List Char} (hx : Unbroken x)
    (h : unifyNewlines s = x ++ y) : ∃ behind, s = x ++ behind ∧ unifyNewlines behind = y := by
  obtain ⟨before, behind, rfl, hbefore, hbehind⟩ := unifyNewlinesAfter_eq_append h
  rcases eq_of_unifyNewlinesAfter hx hbefore with rfl | ⟨hf, -⟩
  · refine ⟨behind, rfl, ?_⟩
    have := unifyNewlines_unbroken_append hx behind
    rw [h] at this
    exact (List.append_cancel_left this).symm
  · cases hf

/-- A text ends with a part that has no line end just if the unified text does. -/
theorem suffix_unifyNewlinesAfter {x : List Char} (hx : Unbroken x) :
    x <:+ unifyNewlinesAfter after s ↔ x <:+ s := by
  constructor
  · rintro ⟨y, h⟩
    obtain ⟨before, behind, rfl, -, hbehind⟩ := unifyNewlinesAfter_eq_append h.symm
    rcases eq_of_unifyNewlinesAfter hx hbehind with rfl | ⟨-, rfl⟩
    · exact List.suffix_append _ _
    · exact (List.suffix_cons _ _).trans (List.suffix_append _ _)
  · rintro ⟨y, rfl⟩
    rw [unifyNewlinesAfter_append, unifyNewlinesAfter_unbroken hx]
    exact List.suffix_append _ _

/-! ### Blanks -/

theorem mem_unifyNewlinesAfter (h : c ∈ unifyNewlinesAfter after s) : c = '\n' ∨ c ∈ s := by
  induction s generalizing after with
  | nil =>
    rw [unifyNewlinesAfter_nil] at h
    exact .inr h
  | cons d s ih =>
    rcases unifyNewlinesAfter_cons after d with ⟨-, -, hd⟩ | ⟨e, he, hd⟩
    · rw [hd] at h
      exact (ih h).imp_right (List.mem_cons_of_mem d)
    · rw [hd, List.mem_cons] at h
      rcases h with rfl | h
      · rcases he with he | ⟨rfl, -, -⟩
        · exact .inl he
        · exact .inr List.mem_cons_self
      · exact (ih h).imp_right (List.mem_cons_of_mem d)

theorem blank_unifyNewlinesAfter (h : ∀ c ∈ s, isBlank c = true) :
    ∀ c ∈ unifyNewlinesAfter after s, isBlank c = true := by
  intro c hc
  rcases mem_unifyNewlinesAfter hc with rfl | hc
  · decide
  · exact h c hc

/-- Only a blank ends a line. -/
theorem unbroken_of_not_blank (h : isBlank c = false) : c ≠ '\n' ∧ c ≠ '\r' := by
  constructor
  · rintro rfl
    revert h
    decide
  · rintro rfl
    revert h
    decide

/-- A text without blanks at its ends starts and ends with the same characters when it is
unified, so what stands before it does not matter. -/
theorem Trimmed.unifyNewlines (h : Trimmed s) (hs : s ≠ []) (after : Bool) :
    unifyNewlinesAfter after s = Text.unifyNewlines s ∧ Trimmed (Text.unifyNewlines s) := by
  obtain ⟨c, rest, rfl⟩ := List.exists_cons_of_ne_nil hs
  have hc := h.head c rfl
  obtain ⟨hn, hr⟩ := unbroken_of_not_blank hc
  have hcons (b : Bool) : unifyNewlinesAfter b (c :: rest) = c :: unifyNewlinesAfter false rest :=
    unifyNewlinesAfter_plain hn hr
  refine ⟨(hcons after).trans (hcons false).symm, ?_, ?_⟩
  · intro d hd
    rw [Text.unifyNewlines, hcons false, List.head?_cons, Option.some.injEq] at hd
    exact hd ▸ hc
  · intro d hd
    obtain ⟨before, e, he⟩ := List.eq_nil_or_concat (c :: rest) |>.resolve_left hs
    have hb := h.last e (by rw [he]; simp)
    have hu : Unbroken [e] := by
      intro x hx
      rw [List.mem_singleton.mp hx]
      exact unbroken_of_not_blank hb
    rw [Text.unifyNewlines, he, List.concat_eq_append, unifyNewlinesAfter_append,
      unifyNewlinesAfter_unbroken hu, List.getLast?_concat, Option.some.injEq] at hd
    exact hd ▸ hb

/-- **Blanks are taken off the ends before or after line ends are unified.** -/
theorem strip_unifyNewlines (after : Bool) (s : List Char) :
    strip (unifyNewlinesAfter after s) = unifyNewlines (strip s) := by
  obtain ⟨before, behind, hs, hb, hb', ht⟩ := strip_spec s
  by_cases he : strip s = []
  · have hall : ∀ c ∈ s, isBlank c = true := List.all_eq_true.mp (strip_eq_nil.mp he)
    rw [he, strip_eq_nil.mpr (List.all_eq_true.mpr (blank_unifyNewlinesAfter hall))]
    rfl
  · obtain ⟨hu, htrim⟩ := ht.unifyNewlines he (endsInReturn after before)
    conv => lhs; rw [hs]
    rw [unifyNewlinesAfter_append, unifyNewlinesAfter_append, hu]
    exact strip_eq htrim (blank_unifyNewlinesAfter hb) (blank_unifyNewlinesAfter hb')

/-- Only a blank text is unified to a blank one. -/
theorem all_isBlank_unifyNewlines (s : List Char) :
    (unifyNewlines s).all isBlank = s.all isBlank := by
  rw [Bool.eq_iff_iff, ← strip_eq_nil, ← strip_eq_nil, unifyNewlines, strip_unifyNewlines]
  constructor
  · intro h
    have hnil : Unbroken [] := nofun
    rcases eq_of_unifyNewlinesAfter hnil h with h | ⟨hf, -⟩
    · exact h
    · cases hf
  · intro h
    rw [h]
    rfl

end Text
end VoxelBlueprint
