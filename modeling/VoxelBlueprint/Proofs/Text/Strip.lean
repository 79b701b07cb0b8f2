/-
# Texts without blanks at their ends

What is left of a text without the blanks at its ends is the one part of it that has a blank at
neither end and only blanks around it. As with blanks, a run of characters of any kind ends where
none of the kind follows.

Key definition: `Text.Trimmed`.
Key theorems: `Text.span_append`, `Text.strip_spec`, `Text.strip_eq`, `Text.strip_surrounded`,
`Text.strip_eq_nil`.
-/
import Mathlib.Data.List.Basic
import Mathlib.Data.List.TakeWhile
import VoxelBlueprint.Text.Blank

namespace VoxelBlueprint
namespace Text

/-- A run of characters of a kind ends where none of the kind follows. -/
theorem span_append {p : Char → Bool} {run rest : List Char} (hrun : ∀ c ∈ run, p c = true)
    (hrest : ∀ c, rest.head? = some c → p c = false) :
    (run ++ rest).takeWhile p = run ∧ (run ++ rest).dropWhile p = rest := by
  rw [List.takeWhile_append_of_pos hrun, List.dropWhile_append_of_pos hrun]
  cases rest with
  | nil => simp
  | cons c rest =>
    have hc : ¬ p c = true := by simp [hrest c rfl]
    rw [List.takeWhile_cons_of_neg hc, List.dropWhile_cons_of_neg hc, List.append_nil]
    exact ⟨rfl, rfl⟩

/-- Whether a text neither starts nor ends with a blank. -/
structure Trimmed (s : List Char) : Prop where
  head : ∀ c, s.head? = some c → isBlank c = false
  last : ∀ c, s.getLast? = some c → isBlank c = false

/-- A text without blanks is trimmed. -/
theorem Trimmed.of_forall (h : ∀ c ∈ s, isBlank c = false) : Trimmed s :=
  ⟨fun c hc => h c (List.mem_of_head? hc), fun c hc => h c (List.mem_of_getLast? hc)⟩

variable {s t before behind : List Char}

theorem Trimmed.nil : Trimmed [] :=
  ⟨nofun, nofun⟩

/-- What starts like one trimmed text and ends like another is trimmed. -/
theorem Trimmed.append (hs : Trimmed s) (ht : Trimmed t) : Trimmed (s ++ t) where
  head c hc := by
    rw [List.head?_append, Option.or_eq_some_iff] at hc
    rcases hc with hc | ⟨-, hc⟩
    · exact hs.head c hc
    · exact ht.head c hc
  last c hc := by
    rw [List.getLast?_append, Option.or_eq_some_iff] at hc
    rcases hc with hc | ⟨-, hc⟩
    · exact ht.last c hc
    · exact hs.last c hc

/-- What is left without the blanks at the ends is trimmed, and has only blanks around it. -/
theorem strip_spec (s : List Char) : ∃ before behind, s = before ++ strip s ++ behind ∧
    (∀ c ∈ before, isBlank c = true) ∧ (∀ c ∈ behind, isBlank c = true) ∧ Trimmed (strip s) := by
  have hleft := List.takeWhile_append_dropWhile (p := isBlank) (l := s)
  have hright := List.takeWhile_append_dropWhile (p := isBlank) (l := (stripLeft s).reverse)
  have hu : stripLeft s =
      strip s ++ ((stripLeft s).reverse.takeWhile isBlank).reverse := by
    have h := congrArg List.reverse hright
    rw [List.reverse_append, List.reverse_reverse] at h
    exact h.symm
  refine ⟨s.takeWhile isBlank, ((stripLeft s).reverse.takeWhile isBlank).reverse, ?_,
    fun c hc => List.mem_takeWhile_imp hc,
    fun c hc => List.mem_takeWhile_imp (List.mem_reverse.mp hc), ?_, ?_⟩
  · rw [List.append_assoc, ← hu]
    exact hleft.symm
  · intro c hc
    have hd : (stripLeft s).head? = some c := by
      rw [hu, List.head?_append, hc]
      rfl
    have := List.head?_dropWhile_not isBlank s
    rw [stripLeft] at hd
    rw [hd] at this
    simpa using this
  · intro c hc
    have hd : ((stripLeft s).reverse.dropWhile isBlank).head? = some c := by
      rwa [strip, stripRight, List.getLast?_reverse] at hc
    have := List.head?_dropWhile_not isBlank (stripLeft s).reverse
    rw [hd] at this
    simpa using this

theorem trimmed_strip (s : List Char) : Trimmed (strip s) := by
  obtain ⟨-, -, -, -, -, h⟩ := strip_spec s
  exact h

/-- A trimmed part of a text with only blanks around it is what is left of the text. -/
theorem strip_eq (ht : Trimmed t) (hb : ∀ c ∈ before, isBlank c = true)
    (hb' : ∀ c ∈ behind, isBlank c = true) : strip (before ++ t ++ behind) = t := by
  by_cases he : t = []
  · have hblank : ∀ c ∈ before ++ behind, isBlank c = true := List.forall_mem_append.mpr ⟨hb, hb'⟩
    rw [he, List.append_nil, strip, stripLeft, List.dropWhile_eq_nil_iff.mpr hblank]
    rfl
  · have hhead : ∀ c, (t ++ behind).head? = some c → isBlank c = false := by
      intro c hc
      rw [List.head?_append_of_ne_nil _ he] at hc
      exact ht.head c hc
    have hlast : ∀ c, t.reverse.head? = some c → isBlank c = false := by
      intro c hc
      rw [List.head?_reverse] at hc
      exact ht.last c hc
    rw [List.append_assoc, strip, stripLeft, (span_append hb hhead).2, stripRight,
      List.reverse_append, (span_append (fun c hc => hb' c (List.mem_reverse.mp hc)) hlast).2,
      List.reverse_reverse]

/-- Blanks around a text do not matter. -/
theorem strip_surrounded (hb : ∀ c ∈ before, isBlank c = true)
    (hb' : ∀ c ∈ behind, isBlank c = true) (s : List Char) :
    strip (before ++ s ++ behind) = strip s := by
  obtain ⟨before', behind', hs, hb₁, hb₁', ht⟩ := strip_spec s
  have hjoin : before ++ s ++ behind = (before ++ before') ++ strip s ++ (behind' ++ behind) := by
    nth_rewrite 1 [hs]
    simp only [List.append_assoc]
  rw [hjoin]
  exact strip_eq ht (List.forall_mem_append.mpr ⟨hb, hb₁⟩)
    (List.forall_mem_append.mpr ⟨hb₁', hb'⟩)

/-- A trimmed text stays as it is. -/
theorem strip_of_trimmed (h : Trimmed s) : strip s = s := by
  have hnil : ∀ c ∈ ([] : List Char), isBlank c = true := nofun
  have := strip_eq h hnil hnil
  rwa [List.nil_append, List.append_nil] at this

theorem strip_eq_nil : strip s = [] ↔ s.all isBlank = true := by
  rw [List.all_eq_true]
  constructor
  · intro h
    obtain ⟨before, behind, hs, hb, hb', -⟩ := strip_spec s
    rw [hs, h, List.append_nil]
    exact List.forall_mem_append.mpr ⟨hb, hb'⟩
  · intro h
    have hnil : ∀ c ∈ ([] : List Char), isBlank c = true := nofun
    have := strip_eq .nil h hnil
    rwa [List.append_nil, List.append_nil] at this

end Text
end VoxelBlueprint
