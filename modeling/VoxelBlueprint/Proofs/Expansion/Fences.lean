/-
# Fences are not seen

What `Document.fenced?` cuts out of a text is what the pattern of a fence captures: three
backticks, a tag, blanks, a body that is as short as it can be, and three backticks at the end,
with a line feed before or behind the body if there is one. The tag and the blanks are as long as
they can be, and since neither of them can run into the closing backticks, the pattern always
matches behind them: no other way is ever tried, whatever backticks are in the body.

So a text that starts like an object says the same inside a fence, to every reader of JSON.

Key definitions: `Document.fencePattern`, `Document.enclosed?`, `Document.decodeBy`.
Key theorems: `Document.fenced?_eq_strip_enclosed?`, `Document.decode_eq_decodeBy`,
`Document.fences_transparent`.
-/
import VoxelBlueprint.Proofs.Expansion.LineEnds
import VoxelBlueprint.Proofs.Expression.Lexemes
import VoxelBlueprint.Proofs.Text.Patterns

namespace VoxelBlueprint
namespace Document

open Text

/-- The pattern of a fence. Its body is the fifth piece. -/
def fencePattern : List Piece :=
  [.literal fence, .longest isTagChar, .longest isBlank, .optional '\n', .shortest fun _ => true,
    .optional '\n', .literal fence]

/-- The body of the fence that a text is, as the pattern has it. -/
def enclosed? (text : List Char) : Option (List Char) :=
  (ways fencePattern text).head?.bind (·[4]?)

/-- The document that a text holds for a reader of JSON. -/
def decodeBy (read : List Char → Except Json.Fault Json) (text : List Char) :
    Except DecodeFault Json :=
  if text.all isBlank then .error .emptyText
  else
    match read (((enclosed? (strip text)).map strip).getD (strip text)) with
    | .error fault => .error (.invalidJson fault)
    | .ok value => if value.isObject then .ok value else .error .notObject

/-! ### The body of a fence -/

section Bodies

variable {text : List Char}

/-- A text that ends in a fence has no line feed behind it. -/
theorem append_fence_ne (s parts : List Char) : s ++ fence ≠ parts ++ ['\n'] := fun h => by
  have hlast := congrArg List.getLast? h
  rw [List.getLast?_concat, List.getLast?_append_of_ne_nil _ (by decide)] at hlast
  exact absurd hlast (by decide)

/-- In whatever way a body is found in front of a fence, it is the same but for blanks. -/
theorem exists_body (body : List Char) : ∃ inner newline,
    (ways [.shortest fun _ => true, .optional '\n', .literal fence] (body ++ fence)).head? =
      some [inner, newline, fence] ∧ strip inner = strip body := by
  have hmem : [body, [], fence] ∈
      ways [.shortest fun _ => true, .optional '\n', .literal fence] (body ++ fence) :=
    mem_ways_iff.mpr ⟨.cons (fun _ _ => rfl) (.cons (.inl rfl) (.cons rfl .nil)), .inl (by simp)⟩
  obtain ⟨parts, others, hways⟩ := List.exists_cons_of_ne_nil (List.ne_nil_of_mem hmem)
  have hfirst : parts ∈ parts :: others := List.mem_cons_self
  rw [← hways] at hfirst
  obtain ⟨hmatch, hs⟩ := mem_ways_iff.mp hfirst
  match parts, hmatch with
  | [inner, newline, _], .cons _ (.cons hnewline (.cons hclosing .nil)) =>
    obtain rfl : _ = fence := hclosing
    have hbody : body = inner ++ newline := by
      rcases hs with hs | hs
      · simpa [← List.append_assoc] using hs
      · exact absurd hs (append_fence_ne _ _)
    have hblank : ∀ c ∈ newline, isBlank c = true := by
      rcases hnewline with rfl | rfl <;> exact List.all_eq_true.mp (by decide)
    refine ⟨inner, newline, by rw [hways]; rfl, ?_⟩
    rw [hbody]
    exact (strip_surrounded (List.forall_mem_nil _) hblank inner).symm

/-- **What the pattern captures of a fenced text** is what stands between the tag and the closing
backticks, but for blanks. -/
theorem strip_enclosed?_fence (s : List Char) :
    (enclosed? (fence ++ (s ++ fence))).map strip = some (strip (s.dropWhile isTagChar)) := by
  have htag : (Piece.splits (.longest isTagChar) (s ++ fence)).head? =
      some ((s ++ fence).takeWhile isTagChar, s.dropWhile isTagChar ++ fence) := by
    rw [← dropWhile_append_fence (by decide)]
    exact head?_reverse_runs _ _
  generalize s.dropWhile isTagChar = inside at htag ⊢
  have hblanks : (Piece.splits (.longest isBlank) (inside ++ fence)).head? =
      some ((inside ++ fence).takeWhile isBlank, inside.dropWhile isBlank ++ fence) := by
    rw [← dropWhile_append_fence (by decide)]
    exact head?_reverse_runs _ _
  have hstrip : strip (inside.dropWhile isBlank) = strip inside := by
    have hb : ∀ c ∈ inside.takeWhile isBlank, isBlank c = true := fun c => List.mem_takeWhile_imp
    have := strip_surrounded hb (List.forall_mem_nil _) (inside.dropWhile isBlank)
    rwa [List.append_nil, List.takeWhile_append_dropWhile, eq_comm] at this
  have hnewline : (Piece.splits (.optional '\n') (inside.dropWhile isBlank ++ fence)).head? =
      some ([], inside.dropWhile isBlank ++ fence) := by
    have hne : (inside.dropWhile isBlank ++ fence).head? ≠ some '\n' := by
      rw [← dropWhile_append_fence (by decide)]
      intro h
      have := List.head?_dropWhile_not isBlank (inside ++ fence)
      rw [h] at this
      exact absurd this (by decide)
    rw [Piece.splits, if_neg hne]
    rfl
  have hopening : (Piece.splits (.literal fence) (fence ++ (s ++ fence))).head? =
      some (fence, s ++ fence) := by
    rw [Piece.splits, if_pos (List.prefix_append _ _), List.drop_left]
    rfl
  obtain ⟨body, newline, hbody, hsame⟩ := exists_body (inside.dropWhile isBlank)
  have hfirst := head?_ways_cons hopening
    (head?_ways_cons htag (head?_ways_cons hblanks (head?_ways_cons hnewline hbody)))
  rw [enclosed?, fencePattern, hfirst, ← hstrip, ← hsame]
  rfl

/-- A text that neither starts nor ends with a blank matches the pattern only between two
fences. -/
theorem enclosed?_eq_none (ht : Trimmed text) (h : ∀ s, text ≠ fence ++ (s ++ fence)) :
    enclosed? text = none := by
  have hways : ways fencePattern text = [] := by
    refine List.eq_nil_iff_forall_not_mem.mpr fun parts hparts => ?_
    obtain ⟨hmatch, hs⟩ := mem_ways_iff.mp hparts
    match parts, hmatch with
    | [_, tag, blanks, before, body, behind, _],
      .cons hopening (.cons _ (.cons _ (.cons _ (.cons _ (.cons _ (.cons hclosing .nil)))))) =>
      obtain rfl : _ = fence := hopening
      obtain rfl : _ = fence := hclosing
      rcases hs with hs | hs
      · exact h (tag ++ (blanks ++ (before ++ (body ++ behind)))) (by rw [hs]; simp)
      · have := ht.last '\n' (by rw [hs, List.getLast?_concat])
        exact absurd this (by decide)
  rw [enclosed?, hways]
  rfl

/-- **A fence is cut out as its pattern says.** -/
theorem fenced?_eq_strip_enclosed? (ht : Trimmed text) :
    fenced? text = (enclosed? text).map strip := by
  by_cases h : ∃ s, text = fence ++ (s ++ fence)
  · obtain ⟨s, rfl⟩ := h
    rw [strip_enclosed?_fence, fenced?_fence]
  · rw [enclosed?_eq_none ht (not_exists.mp h), fenced?_eq_none (not_exists.mp h)]
    rfl

end Bodies

/-! ### Documents inside fences -/

/-- The document that a text holds is the one for the reader of JSON. -/
theorem decode_eq_decodeBy (text : List Char) : decode text = decodeBy Json.read text := by
  have hbody : ((enclosed? (strip text)).map strip).getD (strip text) = unfenced text := by
    rw [← fenced?_eq_strip_enclosed? (trimmed_strip text)]
    rfl
  unfold decodeBy
  exact hbody ▸ rfl

section Fencing

variable {text tag before between behind : List Char}

/-- A tag has no blanks in it. -/
theorem isTagChar_of_isBlank {c : Char} (h : isBlank c = true) : isTagChar c = false := by
  refine Bool.eq_false_iff.mpr fun htag => ?_
  have hpart : Expression.isNamePart c = true ∨ c = '-' := by
    simp only [isTagChar, Char.isAlphanum, Bool.or_eq_true, decide_eq_true_eq] at htag
    simp only [Expression.isNamePart, Expression.isNameStart, Bool.or_eq_true, decide_eq_true_eq]
    tauto
  rcases hpart with hpart | rfl
  · rw [Expression.isBlank_of_isNamePart hpart] at h
    cases h
  · exact absurd h (by decide)

/-- A text inside a fence, on lines of its own: the fence may have a tag, and there may be blanks
behind the tag and around the whole. -/
def fencing (before tag between text behind : List Char) : List Char :=
  before ++ (fence ++ (tag ++ (between ++ '\n' :: text ++ ['\n']) ++ fence)) ++ behind

/-- Without the blanks around it, a text inside a fence starts and ends with the fence. -/
theorem strip_fencing (hbefore : ∀ c ∈ before, isBlank c = true)
    (hbehind : ∀ c ∈ behind, isBlank c = true) :
    strip (fencing before tag between text behind) =
      fence ++ (tag ++ (between ++ '\n' :: text ++ ['\n']) ++ fence) := by
  refine strip_eq ⟨fun c hc => ?_, fun c hc => ?_⟩ hbefore hbehind
  · cases hc
    decide
  · rw [← List.append_assoc, List.getLast?_append_of_ne_nil _ (by decide)] at hc
    cases hc
    decide

/-- What is enclosed by a fence is the text in it, but for blanks. -/
theorem strip_enclosed?_fencing (htag : ∀ c ∈ tag, isTagChar c = true)
    (hbefore : ∀ c ∈ before, isBlank c = true) (hbetween : ∀ c ∈ between, isBlank c = true)
    (hbehind : ∀ c ∈ behind, isBlank c = true) :
    (enclosed? (strip (fencing before tag between text behind))).map strip =
      some (strip text) := by
  have hnewline : ∀ c ∈ between ++ ['\n'], isBlank c = true :=
    List.forall_mem_append.mpr ⟨hbetween, List.all_eq_true.mp (by decide)⟩
  have hdrop : (tag ++ (between ++ '\n' :: text ++ ['\n'])).dropWhile isTagChar =
      between ++ ['\n'] ++ text ++ ['\n'] := by
    rw [List.dropWhile_append_of_pos htag, List.append_cons between]
    cases hb : between ++ ['\n'] with
    | nil => simp at hb
    | cons c rest =>
      have hc := isTagChar_of_isBlank (hnewline c (hb ▸ List.mem_cons_self))
      exact List.dropWhile_cons_of_neg (by simp [hc])
  rw [strip_fencing hbefore hbehind, strip_enclosed?_fence, hdrop,
    strip_surrounded hnewline (List.all_eq_true.mp (by decide))]

/-- **Fences are not seen.** A text that starts like an object holds the same document inside a
fence, or is refused for the same reason, whatever reads JSON. -/
theorem fences_transparent (hstart : (strip text).head? = some '{')
    (htag : ∀ c ∈ tag, isTagChar c = true) (hbefore : ∀ c ∈ before, isBlank c = true)
    (hbetween : ∀ c ∈ between, isBlank c = true) (hbehind : ∀ c ∈ behind, isBlank c = true) :
    (∀ read, decodeBy read (fencing before tag between text behind) = decodeBy read text) ∧
      decode (fencing before tag between text behind) = decode text := by
  have hread (read) :
      decodeBy read (fencing before tag between text behind) = decodeBy read text := by
    have hbare : enclosed? (strip text) = none := by
      refine enclosed?_eq_none (trimmed_strip text) fun s hs => ?_
      rw [hs] at hstart
      exact absurd (Option.some.inj hstart) (by decide)
    have hfull : text.all isBlank = false := by
      refine Bool.eq_false_iff.mpr fun hall => ?_
      rw [strip_eq_nil.mpr hall] at hstart
      cases hstart
    have hfull' : (fencing before tag between text behind).all isBlank = false := by
      refine Bool.eq_false_iff.mpr fun hall => ?_
      have hnil := strip_eq_nil.mpr hall
      rw [strip_fencing hbefore hbehind] at hnil
      cases hnil
    rw [decodeBy, decodeBy, hfull, hfull', hbare,
      strip_enclosed?_fencing htag hbefore hbetween hbehind]
    rfl
  refine ⟨hread, ?_⟩
  rw [decode_eq_decodeBy, decode_eq_decodeBy]
  exact hread Json.read

/-- An object that is cut short in the middle of a fence of its own. -/
def cutShort : List Char := " \x7b\"note\": \"\x60\x60\x60json\n\x60\x60\x60".toList

theorem fences_transparent_cut : (strip cutShort).head? = some '{' ∧
    decode (fencing " ".toList "json".toList "\t".toList cutShort "\n\n".toList) =
      decode cutShort := by
  have hstart : (strip cutShort).head? = some '{' := by decide
  have htag : ∀ c ∈ "json".toList, isTagChar c = true := List.all_eq_true.mp (by decide)
  have hbefore : ∀ c ∈ " ".toList, isBlank c = true := List.all_eq_true.mp (by decide)
  have hbetween : ∀ c ∈ "\t".toList, isBlank c = true := List.all_eq_true.mp (by decide)
  have hbehind : ∀ c ∈ "\n\n".toList, isBlank c = true := List.all_eq_true.mp (by decide)
  exact ⟨hstart, (fences_transparent hstart htag hbefore hbetween hbehind).2⟩

end Fencing

end Document
end VoxelBlueprint
