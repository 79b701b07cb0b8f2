/-
# A list of blocks stands in for a program as a whole

A document may have a program and a list of blocks as well. If the program comes to its
blocks, the list may as well not be there. If it is rejected, at whatever point and after
whatever it had placed and counted, the program may as well not be there: nothing of it is
left but what was recorded, and reported of the current snapshot.

Key definitions: `Json.without`.
Key theorems: `field_without`, `expandProgram_congr`, `expandBlockList_congr`,
`expandDocument_all_or_nothing`.
-/
import VoxelBlueprint.Proofs.Expansion.Demands

namespace VoxelBlueprint

open Effects

/-! ### Documents without some of their fields -/

/-- An object without the fields of the given names. -/
def Json.without (names : List String) : Json → Json
  | obj fields => obj (fields.filter fun field => field.1 ∉ names)
  | value => value

theorem isObject_without (names : List String) (document : Json) :
    (document.without names).isObject = document.isObject := by
  cases document <;> rfl

theorem lookup_filter_not_mem (names : List String) (name : String) :
    ∀ fields : List (String × Json),
      (fields.filter fun field => field.1 ∉ names).lookup name =
        if name ∈ names then none else fields.lookup name
  | [] => by simp
  | (n, value) :: fields => by
    have ih := lookup_filter_not_mem names name fields
    by_cases hn : n ∈ names
    · rw [List.filter_cons_of_neg (by simpa using hn), ih]
      by_cases h : name ∈ names
      · rw [if_pos h, if_pos h]
      · have hne : (name == n) = false := by
          rw [beq_eq_false_iff_ne]
          exact fun he => h (he ▸ hn)
        rw [if_neg h, if_neg h, List.lookup_cons, hne]
    · rw [List.filter_cons_of_pos (by simpa using hn), List.lookup_cons, List.lookup_cons]
      by_cases h : name = n
      · rw [h, beq_self_eq_true, if_neg hn]
      · rw [beq_eq_false_iff_ne.mpr h]
        exact ih

/-- The fields that are left are those with other names. -/
theorem field_without (names : List String) (document : Json) (name : String) :
    (document.without names).field name =
      if name ∈ names then .null else document.field name := by
  cases document with
  | obj fields =>
    have h := lookup_filter_not_mem names name fields
    simp only [Json.field, Json.field?, Json.without, h]
    split <;> rfl
  | _ => exact (ite_self _).symm

/-! ### The fields that matter -/

variable {limits : Limits} {document document' : Json}

/-- The program is read from two fields. -/
theorem expandProgram_congr (ho : document'.isObject = document.isObject)
    (hd : document'.field "defs" = document.field "defs")
    (hs : document'.field "steps" = document.field "steps") :
    expandProgram limits document' = expandProgram limits document := by
  have h : Program.read document' = Program.read document := by
    unfold Program.read Program.readWithin
    rw [ho, hd, hs]
  unfold expandProgram readProgram
  rw [h]

/-- The list of blocks is read from one. -/
theorem expandBlockList_congr (hb : document'.field "blocks" = document.field "blocks") :
    expandBlockList limits document' = expandBlockList limits document := by
  unfold expandBlockList
  rw [hb]

/-! ### Programs with and without a list of blocks -/

/-- **The list of blocks stands in for the program as a whole.** Of a document with both, if it
is expanded without the list, the whole document comes to the same blueprint. If it is rejected
without the list, the whole document ends as it does without the program: it comes to the same
blueprint, or is rejected for the same reason, and leaves a ledger that differs in nothing but
what was recorded, and reported of the current snapshot. -/
theorem expandDocument_all_or_nothing {document : Json}
    (hp : Document.hasProgram document = true) (hb : Document.hasBlockList document = true)
    (limits : Limits) (ledger : Ledger) :
    (∀ b l, expandDocument limits (document.without ["blocks"]) ledger = .ok b l →
      b.layout = some .program ∧ expandDocument limits document ledger = .ok b l) ∧
    (∀ r l, expandDocument limits (document.without ["blocks"]) ledger = .error r l →
      Expansion.SameEnd (expandDocument limits document ledger)
        (expandDocument limits (document.without ["steps", "defs"]) ledger) ∧
      ∀ b l', expandDocument limits document ledger = .ok b l' → b.layout = some .blockList) := by
  have ho := isObject_of_hasProgram hp
  -- without the list of blocks
  have hp' : Document.hasProgram (document.without ["blocks"]) = true := by
    simpa [Document.hasProgram, field_without] using hp
  have hb' : Document.hasBlockList (document.without ["blocks"]) = false := by
    simp [Document.hasBlockList, field_without, Json.isArray]
  have he' : expandProgram limits (document.without ["blocks"]) = expandProgram limits document :=
    expandProgram_congr (isObject_without _ _) (by simp [field_without]) (by simp [field_without])
  -- without the program
  have hp'' : Document.hasProgram (document.without ["steps", "defs"]) = false := by
    simp [Document.hasProgram, field_without, Json.isArray]
  have hb'' : Document.hasBlockList (document.without ["steps", "defs"]) = true := by
    simpa [Document.hasBlockList, field_without] using hb
  have he'' : expandBlockList limits (document.without ["steps", "defs"]) =
      expandBlockList limits document := expandBlockList_congr (by simp [field_without])
  cases hx : expandProgram limits document ledger with
  | ok blocks l =>
    rw [expandDocument_of_program hp hx, expandDocument_of_program hp' (he' ▸ hx)]
    refine ⟨fun b l' h => ?_, nofun⟩
    cases h
    exact ⟨layout_assemble .., rfl⟩
  | error r l =>
    have hl : (l.record (.fellBack r)).Resembles ledger :=
      ((expandProgram_oblivious limits document).resembles_of_error hx).record _
    rw [expandDocument_of_rejected hp' hb' (he' ▸ hx), expandDocument_of_fallBack hp hb hx,
      expandDocument_of_blockList hp'' hb'' (by rw [isObject_without]; exact ho), he'']
    refine ⟨nofun, fun r' l' _ => ?_⟩
    have hs := (expandBlockList_oblivious limits document).sameEnd hl
    generalize expandBlockList limits document (l.record (.fellBack r)) = ended at hs
    generalize expandBlockList limits document ledger = ended' at hs
    cases hs with
    | ok hl =>
      refine ⟨.ok hl, fun b l' h => ?_⟩
      cases h
      exact layout_assemble ..
    | error hl => exact ⟨.error hl, nofun⟩

/-- A ruin: the program breaks off after its first block, and a list has another one. -/
def ruin : Json :=
  .obj
    [("steps", .arr
      [.obj [("op", .str "place"), ("x", .int 0), ("y", .int 0), ("z", .int 0),
        ("blockType", .str "a")], .null]),
     ("blocks", .arr
      [.obj [("x", .int 7), ("y", .int 0), ("z", .int 0), ("blockType", .str "a")]])]

/-- With room for one block the ruin is what its program comes to. With more room it is what its
list comes to, and nothing is left of the block that the program has placed. -/
theorem expandDocument_all_or_nothing_ruin :
    Document.hasProgram ruin = true ∧ Document.hasBlockList ruin = true ∧
    (∃ l, expandDocument { maxBlocks := 1 } ruin quarry =
      .ok ⟨[⟨0, 0, 0, "minecraft:a"⟩], none, some .program⟩ l) ∧
    expandDocument {} (ruin.without ["steps", "defs"]) quarry =
      .ok ⟨[⟨7, 0, 0, "minecraft:a"⟩], none, some .blockList⟩ quarry ∧
    Expansion.SameEnd (expandDocument {} ruin quarry)
      (expandDocument {} (ruin.without ["steps", "defs"]) quarry) := by
  have hp : Document.hasProgram ruin = true := by decide
  have hb : Document.hasBlockList ruin = true := by decide
  have placed : expandDocument { maxBlocks := 1 } (ruin.without ["blocks"]) quarry =
      .ok ⟨[⟨0, 0, 0, "minecraft:a"⟩], none, some .program⟩
        (quarry.record (.programRun 1 1 0)) := by
    decide +kernel
  have broken : expandDocument {} (ruin.without ["blocks"]) quarry =
      .error (.malformed ⟨.stepNotObject, [.field "steps", .index 1]⟩) quarry := by
    decide +kernel
  have listed : expandDocument {} (ruin.without ["steps", "defs"]) quarry =
      .ok ⟨[⟨7, 0, 0, "minecraft:a"⟩], none, some .blockList⟩ quarry := by
    decide +kernel
  have one := (expandDocument_all_or_nothing hp hb { maxBlocks := 1 } quarry).1 _ _ placed
  have more := (expandDocument_all_or_nothing hp hb {} quarry).2 _ _ broken
  exact ⟨hp, hb, ⟨_, one.2⟩, listed, more.1⟩

end VoxelBlueprint
