/-
# Places read from their texts

A place in a document is written as a text: the names of fields stand behind points, the first one
without its point, and indices stand in brackets. Such a text is an address. It can be read back,
and gives the place that was written, if no name in it is empty or has a point or an opening
bracket. So no two such places are written alike.

Key definitions: `Path.ofText?`, `Segment.IsPlain`.
Key theorems: `Path.readSegments_suffixes`, `Path.ofText?_text`.
-/
import VoxelBlueprint.Path
import VoxelBlueprint.Proofs.Json.Scalars

namespace VoxelBlueprint

/-- Whether the character may stand in the name of a field that is a part of an address. -/
def isFieldChar (c : Char) : Bool :=
  c ≠ '.' && c ≠ '['

/-- Whether a step of a path can be told from what stands around it in an address. -/
def Segment.IsPlain : Segment → Prop
  | .field name => name ≠ "" ∧ ∀ c ∈ name.toList, isFieldChar c = true
  | .index _ => True

namespace Path

/-- The steps that are written one behind the other. -/
def readSegments : List Char → Option Path
  | [] => some []
  | '.' :: rest =>
    if (rest.takeWhile isFieldChar).isEmpty then none
    else
      (readSegments (rest.dropWhile isFieldChar)).map
        (.field (String.ofList (rest.takeWhile isFieldChar)) :: ·)
  | '[' :: rest =>
    if (rest.takeWhile Char.isDigit).isEmpty ∨ (rest.dropWhile Char.isDigit).head? ≠ some ']' then
      none
    else
      (readSegments (rest.dropWhile Char.isDigit).tail).map
        (.index (Json.digitsValue (rest.takeWhile Char.isDigit)) :: ·)
  | _ => none
termination_by text => text.length
decreasing_by
  · have := (List.dropWhile_sublist isFieldChar (l := rest)).length_le
    simp only [List.length_cons]
    omega
  · have := (List.dropWhile_sublist Char.isDigit (l := rest)).length_le
    simp only [List.length_cons, List.length_tail]
    omega

/-- The place that a text is the address of, if it is an address. -/
def ofText? (text : String) : Option Path :=
  match text.toList with
  | [] => some []
  | c :: rest => readSegments (if c = '[' then c :: rest else '.' :: c :: rest)

/-! ### Reading what is written -/

/-- What is written behind a step does not start with a character that could belong to it. -/
theorem head_suffixes (path : Path) (c : Char)
    (h : (path.flatMap (·.suffix.toList)).head? = some c) : isFieldChar c = false := by
  cases path with
  | nil => simp at h
  | cons segment path =>
    cases segment with
    | field name =>
      simp [Segment.suffix] at h
      subst h
      decide
    | index n =>
      simp [Segment.suffix, toString] at h
      subst h
      decide

theorem toList_suffix_field (name : String) :
    (Segment.field name).suffix.toList = '.' :: name.toList := by
  rw [Segment.suffix, String.toList_append]
  rfl

theorem toList_suffix_index (n : Nat) :
    (Segment.index n).suffix.toList = '[' :: (Nat.toDigits 10 n ++ [']']) := by
  have hn : (toString n).toList = Nat.toDigits 10 n := by
    rw [Nat.toString_eq_repr, Nat.repr_eq_ofList_toDigits, String.toList_ofList]
  have hopening : (toString "[").toList = ['['] := rfl
  have hclosing : (toString "]").toList = [']'] := rfl
  rw [Segment.suffix, String.toList_append, String.toList_append, hn, hopening, hclosing]
  rfl

theorem readSegments_field {name : String} (hname : (Segment.field name).IsPlain)
    {rest : List Char} (hrest : ∀ c, rest.head? = some c → isFieldChar c = false) :
    readSegments ('.' :: (name.toList ++ rest)) = (readSegments rest).map (.field name :: ·) := by
  obtain ⟨htake, hdrop⟩ := Text.span_append hname.2 hrest
  have hne : name.toList.isEmpty = false := by
    simpa [List.isEmpty_eq_false_iff] using hname.1
  rw [readSegments, htake, hdrop, hne, String.ofList_toList]
  rfl

theorem readSegments_index (n : Nat) (rest : List Char) :
    readSegments ('[' :: (Nat.toDigits 10 n ++ ']' :: rest)) =
      (readSegments rest).map (.index n :: ·) := by
  have hdigits : ∀ c ∈ Nat.toDigits 10 n, c.isDigit = true := fun c hc =>
    Nat.isDigit_of_mem_toDigits (by decide) (by decide) hc
  have hbracket : ∀ c, (']' :: rest).head? = some c → c.isDigit = false := fun c hc => by
    cases hc
    decide
  obtain ⟨htake, hdrop⟩ := Text.span_append hdigits hbracket
  have hne : (Nat.toDigits 10 n).isEmpty = false := by
    simp [Nat.toDigits_ne_nil]
  rw [readSegments, htake, hdrop, hne, Json.digitsValue_toDigits]
  simp

/-- The steps that are written are read. -/
theorem readSegments_suffixes (path : Path) (hplain : ∀ segment ∈ path, segment.IsPlain) :
    readSegments (path.flatMap (·.suffix.toList)) = some path := by
  induction path with
  | nil => rw [List.flatMap_nil, readSegments]
  | cons segment path ih =>
    obtain ⟨hsegment, hpath⟩ := List.forall_mem_cons.mp hplain
    have ih := ih hpath
    rw [List.flatMap_cons]
    cases segment with
    | field name =>
      rw [toList_suffix_field, List.cons_append, readSegments_field hsegment (head_suffixes path),
        ih]
      rfl
    | index n =>
      rw [toList_suffix_index, List.cons_append, List.append_assoc, List.singleton_append,
        readSegments_index, ih]
      rfl

/-- **The text of a place is its address.** -/
theorem ofText?_text {path : Path} (hplain : ∀ segment ∈ path, segment.IsPlain) :
    ofText? path.text = some path := by
  have hread := readSegments_suffixes path hplain
  cases path with
  | nil => rfl
  | cons segment path =>
    have hjoin : (String.join (path.map Segment.suffix)).toList =
        path.flatMap (·.suffix.toList) := by
      rw [String.toList_join, List.flatMap_map]
    rw [List.flatMap_cons] at hread
    unfold ofText?
    cases segment with
    | field name =>
      -- the first name is written without a point in front
      obtain ⟨⟨hne, hchars⟩, -⟩ := List.forall_mem_cons.mp hplain
      obtain ⟨c, rest, hname⟩ : ∃ c rest, name.toList = c :: rest :=
        List.exists_cons_of_ne_nil (by simpa using hne)
      have hc : c ≠ '[' := by
        have := hchars c (by simp [hname])
        simp [isFieldChar] at this
        exact this.2
      rw [toList_suffix_field, hname] at hread
      rw [text, String.toList_append, hjoin, hname, List.cons_append]
      simp only [if_neg hc]
      exact hread
    | index n =>
      have htext : (text (.index n :: path)).toList =
          (Segment.index n).suffix.toList ++ path.flatMap (·.suffix.toList) := by
        show (String.join ((Segment.index n :: path).map Segment.suffix)).toList = _
        rw [String.toList_join, List.map_cons, List.flatMap_cons, List.flatMap_map]
      rw [htext]
      rw [toList_suffix_index] at hread ⊢
      exact hread

end Path

end VoxelBlueprint
