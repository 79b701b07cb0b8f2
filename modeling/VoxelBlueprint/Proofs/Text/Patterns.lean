/-
# Patterns

A pattern is a list of pieces that stand one behind the other. Where a piece can match in more
than one way, it says which way it prefers, and the ways in which a pattern matches a text are
listed in this order: what an earlier piece prefers comes before what a later one prefers. A
pattern matches up to the end of the text; a line feed may follow it there.

Which ways there are does not depend on the preferences (`mem_ways_iff`). Which one is the first
does; it is found piece by piece, as long as the rest of the pattern matches behind what a piece
prefers (`head?_ways_cons`).

Key definitions: `Text.Piece`, `Text.Piece.splits`, `Text.ways`.
Key theorems: `Text.mem_ways_iff`, `Text.head?_ways_cons`.
-/
import Mathlib.Data.List.Forall2
import Mathlib.Data.List.TakeWhile

namespace VoxelBlueprint
namespace Text

/-- A piece of a pattern. -/
inductive Piece where
  /-- The very text. -/
  | literal (text : List Char)
  /-- A run of characters of a class. The longest one is preferred. -/
  | longest (isMember : Char → Bool)
  /-- A run of characters of a class. The shortest one is preferred. -/
  | shortest (isMember : Char → Bool)
  /-- A character that may be missing. It is preferred that it is there. -/
  | optional (c : Char)

/-- The runs of characters of a class at the start of a text, each with what is behind it. The
shortest one comes first. -/
def runs (isMember : Char → Bool) : List Char → List (List Char × List Char)
  | [] => [([], [])]
  | c :: s =>
    ([], c :: s) ::
      if isMember c then (runs isMember s).map fun r => (c :: r.1, r.2) else []

namespace Piece

/-- Whether a piece matches a text. -/
def Matches : Piece → List Char → Prop
  | literal text, s => s = text
  | longest isMember, s => ∀ c ∈ s, isMember c = true
  | shortest isMember, s => ∀ c ∈ s, isMember c = true
  | optional c, s => s = [] ∨ s = [c]

/-- What a piece can match at the start of a text, each with what is behind it, in the order in
which it is preferred. -/
def splits : Piece → List Char → List (List Char × List Char)
  | literal text, s => if text <+: s then [(text, s.drop text.length)] else []
  | longest isMember, s => (runs isMember s).reverse
  | shortest isMember, s => runs isMember s
  | optional c, s => (if s.head? = some c then [([c], s.tail)] else []) ++ [([], s)]

end Piece

/-- The ways in which a pattern matches a text: what each of its pieces matches. -/
def ways : List Piece → List Char → List (List (List Char))
  | [], s => if s = [] ∨ s = ['\n'] then [[]] else []
  | piece :: pieces, s =>
    (piece.splits s).flatMap fun split => (ways pieces split.2).map (split.1 :: ·)

/-! ### Which ways there are -/

section Ways

variable {isMember : Char → Bool} {s front rest : List Char} {piece : Piece}

theorem mem_runs_iff : ∀ {s front : List Char},
    (front, rest) ∈ runs isMember s ↔ s = front ++ rest ∧ ∀ c ∈ front, isMember c = true
  | [], front => by
    rw [runs, List.mem_singleton, Prod.mk.injEq, List.nil_eq_append_iff]
    exact ⟨fun h => ⟨h, h.1 ▸ List.forall_mem_nil _⟩, fun h => h.1⟩
  | c :: s, [] => by
    rw [runs, List.mem_cons, Prod.mk.injEq, List.nil_append]
    refine ⟨fun h => ⟨?_, List.forall_mem_nil _⟩, fun h => .inl ⟨rfl, h.1.symm⟩⟩
    rcases h with h | h
    · exact h.2.symm
    · split at h
      · obtain ⟨r, -, hr⟩ := List.mem_map.mp h
        cases hr
      · cases h
  | c :: s, d :: front => by
    have ih : (front, rest) ∈ runs isMember s ↔
        s = front ++ rest ∧ ∀ c ∈ front, isMember c = true :=
      mem_runs_iff
    rw [runs, List.mem_cons, Prod.mk.injEq, List.cons_append, List.cons.injEq, List.forall_mem_cons]
    constructor
    · rintro (⟨h, -⟩ | h)
      · cases h
      · split at h
        · rename_i hc
          obtain ⟨r, hr, he⟩ := List.mem_map.mp h
          cases he
          obtain ⟨hs, hm⟩ := ih.mp hr
          exact ⟨⟨rfl, hs⟩, hc, hm⟩
        · cases h
    · rintro ⟨⟨rfl, hs⟩, hc, hm⟩
      rw [if_pos hc]
      exact .inr (List.mem_map_of_mem (f := fun r => (c :: r.1, r.2)) (ih.mpr ⟨hs, hm⟩))

theorem mem_splits_iff :
    (front, rest) ∈ piece.splits s ↔ s = front ++ rest ∧ piece.Matches front := by
  cases piece with
  | literal text =>
    rw [Piece.splits, Piece.Matches]
    constructor
    · intro h
      split at h
      · rename_i hp
        obtain ⟨r, rfl⟩ := hp
        rw [List.drop_left, List.mem_singleton] at h
        cases h
        exact ⟨rfl, rfl⟩
      · cases h
    · rintro ⟨rfl, rfl⟩
      rw [if_pos (List.prefix_append _ _), List.drop_left, List.mem_singleton]
  | longest isMember =>
    rw [Piece.splits, List.mem_reverse]
    exact mem_runs_iff
  | shortest isMember => exact mem_runs_iff
  | optional c =>
    rw [Piece.splits, Piece.Matches, List.mem_append, List.mem_singleton, Prod.mk.injEq]
    constructor
    · rintro (h | ⟨rfl, rfl⟩)
      · split at h
        · rename_i hc
          obtain ⟨r, rfl⟩ := List.head?_eq_some_iff.mp hc
          rw [List.mem_singleton] at h
          cases h
          exact ⟨rfl, .inr rfl⟩
        · cases h
      · exact ⟨rfl, .inl rfl⟩
    · rintro ⟨rfl, rfl | rfl⟩
      · exact .inr ⟨rfl, rfl⟩
      · exact .inl (by simp)

/-- **A pattern matches a text in the ways in which its pieces match parts of it**, which make up
the text but for a line feed at its end. -/
theorem mem_ways_iff : ∀ {pieces : List Piece} {s : List Char} {parts : List (List Char)},
    parts ∈ ways pieces s ↔ List.Forall₂ Piece.Matches pieces parts ∧
      (s = parts.flatten ∨ s = parts.flatten ++ ['\n'])
  | [], s, parts => by
    rw [ways, List.forall₂_nil_left_iff]
    split
    · rename_i h
      rw [List.mem_singleton]
      refine ⟨fun hp => ?_, fun hp => hp.1⟩
      subst hp
      exact ⟨rfl, h⟩
    · rename_i h
      refine ⟨fun hp => absurd hp List.not_mem_nil, fun ⟨hp, hs⟩ => absurd ?_ h⟩
      subst hp
      exact hs
  | piece :: pieces, s, parts => by
    rw [ways, List.mem_flatMap]
    constructor
    · rintro ⟨⟨front, rest⟩, hsplit, hparts⟩
      obtain ⟨parts, hways, rfl⟩ := List.mem_map.mp hparts
      obtain ⟨rfl, hfront⟩ := mem_splits_iff.mp hsplit
      obtain ⟨hmatch, hs⟩ := mem_ways_iff.mp hways
      refine ⟨.cons hfront hmatch, ?_⟩
      rw [List.flatten_cons, List.append_assoc, List.append_cancel_left_eq,
        List.append_cancel_left_eq]
      exact hs
    · rintro ⟨hparts, hs⟩
      obtain ⟨front, parts, hfront, hmatch, rfl⟩ := List.forall₂_cons_left_iff.mp hparts
      obtain ⟨rest, rfl⟩ : ∃ rest, s = front ++ rest := by
        rcases hs with rfl | rfl
        · exact ⟨_, rfl⟩
        · exact ⟨_, List.append_assoc _ _ _⟩
      rw [List.flatten_cons, List.append_assoc, List.append_cancel_left_eq,
        List.append_cancel_left_eq] at hs
      exact ⟨(front, rest), mem_splits_iff.mpr ⟨rfl, hfront⟩,
        List.mem_map_of_mem (mem_ways_iff.mpr ⟨hmatch, hs⟩)⟩

end Ways

/-! ### The first way -/

section First

variable {s front rest : List Char} {piece : Piece} {pieces : List Piece}
  {parts : List (List Char)}

/-- The longest run of a class ends where a character is not of the class. -/
theorem head?_reverse_runs (isMember : Char → Bool) : ∀ s : List Char,
    (runs isMember s).reverse.head? = some (s.takeWhile isMember, s.dropWhile isMember)
  | [] => rfl
  | c :: s => by
    have ih := head?_reverse_runs isMember s
    rw [List.head?_reverse] at ih ⊢
    by_cases hc : isMember c = true
    · rw [runs, if_pos hc, List.takeWhile_cons_of_pos hc, List.dropWhile_cons_of_pos hc,
        List.getLast?_cons, List.getLast?_map, ih]
      rfl
    · rw [runs, if_neg hc, List.takeWhile_cons_of_neg hc, List.dropWhile_cons_of_neg hc]
      rfl

/-- **The first way starts with what the first piece prefers**, if the rest of the pattern matches
behind it. -/
theorem head?_ways_cons (hsplit : (piece.splits s).head? = some (front, rest))
    (hways : (ways pieces rest).head? = some parts) :
    (ways (piece :: pieces) s).head? = some (front :: parts) := by
  obtain ⟨splits, hsplits⟩ := List.head?_eq_some_iff.mp hsplit
  obtain ⟨others, hothers⟩ := List.head?_eq_some_iff.mp hways
  rw [ways, hsplits, List.flatMap_cons, hothers]
  rfl

end First

end Text
end VoxelBlueprint
