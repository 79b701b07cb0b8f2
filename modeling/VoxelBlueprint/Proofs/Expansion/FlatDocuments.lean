/-
# Lists of blocks as programs

A list of blocks can be written as a program that has a placement for each entry. The two are
read and carried out in different ways: the list is cut off at the ceiling on blocks and read
entry by entry, while of the program all steps are read first and then executed until the
output is full. They come to the same blocks and the same reports, or they are rejected for the
same reason, each at its own place in its document.

Key definitions: `Json.asPlacement`, `placements`, `Rejection.inProgram`, `RunState.Enacts`.
Key theorems: `readSteps_asPlacement`, `runStep_placement`, `runSteps_placements`,
`Program.expand_placements`, `expandDocument_placements`, `expandDocument_flat`.
-/
import VoxelBlueprint.Proofs.Execution.Runs
import VoxelBlueprint.Proofs.Expansion.Documents
import VoxelBlueprint.Proofs.Json.Updates

namespace VoxelBlueprint

open Effects

/-! ### Placements -/

/-- An entry of a list of blocks as a placement: an object gets this kind of step, whatever kind
it named before. -/
def Json.asPlacement : Json → Json
  | obj fields => obj (setField "op" (.str "place") fields)
  | value => value

/-- The step that is read from an entry at an index. -/
def placement (index : Nat) (entry : Json) : Step :=
  if entry.isObject then
    .place (entry.field "x") (entry.field "y") (entry.field "z") (entry.field "blockType")
  else .invalid ⟨.stepNotObject, [.field "steps", .index index]⟩

/-- The steps that are read from entries, the first of which has the given index. -/
def placements : Nat → List Json → List Step
  | _, [] => []
  | index, entry :: rest => placement index entry :: placements (index + 1) rest

/-- All fields of an entry but one are those of its placement. -/
theorem field_asPlacement {name : String} (h : name ≠ "op") (entry : Json) :
    entry.asPlacement.field name = entry.field name := by
  cases entry with
  | obj fields =>
    have hf := lookup_setField "op" (.str "place") name fields
    rw [if_neg h] at hf
    simp only [Json.field, Json.field?, Json.asPlacement, hf]
  | _ => rfl

theorem field_op_asPlacement (fields : List (String × Json)) :
    (Json.obj fields).asPlacement.field "op" = .str "place" := by
  have hf := lookup_setField "op" (.str "place") "op" fields
  rw [if_pos rfl] at hf
  simp only [Json.field, Json.field?, Json.asPlacement, hf, Option.getD_some]

/-- What is read from the placement of an entry. -/
theorem ofJson_asPlacement (readBody : StepsReader) (index : Nat) (entry : Json) :
    Step.ofJson readBody [.field "steps", .index index] entry.asPlacement =
      placement index entry := by
  cases entry with
  | obj fields =>
    have ho : Op.ofJson? ((Json.obj fields).asPlacement.field "op") = some .place := by
      rw [field_op_asPlacement]
      decide
    have hr : Step.ofJson readBody [.field "steps", .index index] (Json.obj fields).asPlacement =
        .place ((Json.obj fields).asPlacement.field "x") ((Json.obj fields).asPlacement.field "y")
          ((Json.obj fields).asPlacement.field "z")
          ((Json.obj fields).asPlacement.field "blockType") := by
      unfold Step.ofJson
      rw [ho]
      rfl
    rw [hr, field_asPlacement (by decide), field_asPlacement (by decide),
      field_asPlacement (by decide), field_asPlacement (by decide)]
    rfl
  | _ => rfl

theorem mapIdx_asPlacement (readBody : StepsReader) :
    ∀ (entries : List Json) (index : Nat),
      (entries.map Json.asPlacement).mapIdx (fun i raw =>
        Step.ofJson readBody [.field "steps", .index (index + i)] raw) = placements index entries
  | [], _ => rfl
  | entry :: entries, index => by
    have htail := mapIdx_asPlacement readBody entries (index + 1)
    simp only [Nat.add_assoc, Nat.add_comm 1] at htail
    rw [List.map_cons, List.mapIdx_cons, placements]
    exact congrArg₂ List.cons (ofJson_asPlacement readBody index entry) htail

/-- The steps that are read from the placements of entries. -/
theorem readSteps_asPlacement (levels : Nat) (entries : List Json) :
    readSteps (levels + 1) [.field "steps"] (entries.map Json.asPlacement) =
      placements 0 entries := by
  have h := mapIdx_asPlacement (readSteps levels) entries 0
  simp only [Nat.zero_add] at h
  exact h

theorem read_asPlacement (entries : List Json) :
    Program.read (.obj [("steps", .arr (entries.map Json.asPlacement))]) =
      .ok { steps := placements 0 entries } := by
  have hr : Program.read (.obj [("steps", .arr (entries.map Json.asPlacement))]) =
      .ok { steps := readSteps (maxStepNesting + 1) [.field "steps"]
              (entries.map Json.asPlacement) } := rfl
  rw [hr, readSteps_asPlacement]

/-! ### Rejections -/

/-- What a rejection of a list of blocks is in the program: an entry is a step, and coordinates
are those of a placement. -/
def Rejection.inProgram : Rejection → Rejection
  | malformed ⟨.blockNotObject, [_, index]⟩ => malformed ⟨.stepNotObject, [.field "steps", index]⟩
  | unevaluable fault (_ :: _ :: axis) expression =>
    unevaluable fault (.field "place" :: axis) expression
  | r => r

/-- Two rejections are alike if they are of one kind and if, where this is the kind for
expressions, they say the same of the same expression. -/
structure Rejection.Alike (r r' : Rejection) : Prop where
  kindName : r'.kindName = r.kindName
  message : r.kindName = "EvaluationError" → r'.message = r.message
  expression : r.kindName = "EvaluationError" → r'.expression? = r.expression?

theorem Rejection.alike_inProgram (r : Rejection) : r.Alike r.inProgram := by
  unfold inProgram
  split
  · have h : "StructuralError" ≠ "EvaluationError" := by decide
    exact ⟨rfl, fun he => absurd he h, fun he => absurd he h⟩
  · exact ⟨rfl, fun _ => rfl, fun _ => rfl⟩
  · exact ⟨rfl, fun _ => rfl, fun _ => rfl⟩

section Steps

variable {c : RunContext} {limits : Limits}

theorem integerAt_place (scope : Scope) (index : Nat) (axis : Path) (value : Json) :
    integerAt limits scope (.field "place" :: axis) value =
      (integerAt limits scope (.field "blocks" :: .index index :: axis) value).mapError
        Rejection.inProgram := by
  unfold integerAt
  cases Expression.coerce scope limits.maxExpressionDepth value <;> rfl

theorem coordinatesAt_place (scope : Scope) (index : Nat) (x y z : Json) :
    coordinatesAt limits scope [.field "place"] x y z =
      (coordinatesAt limits scope [.field "blocks", .index index] x y z).mapError
        Rejection.inProgram := by
  unfold coordinatesAt
  simp only [List.cons_append, List.nil_append, integerAt_place scope index]
  cases integerAt limits scope [.field "blocks", .index index, .field "x"] x with
  | error r => rfl
  | ok x =>
    cases integerAt limits scope [.field "blocks", .index index, .field "y"] y with
    | error r => rfl
    | ok y =>
      cases integerAt limits scope [.field "blocks", .index index, .field "z"] z <;> rfl

/-- A placement does what an entry describes. -/
theorem runStep_placement (inner : Executor) (index : Nat) (entry : Json) (s : RunState) :
    runStep c inner [] (placement index entry) s =
      match entryCoordinates c.limits index entry with
      | .ok (x, y, z) => .ok () (s.place c [] x y z (entry.field "blockType"))
      | .error r => .error r.inProgram s := by
  unfold placement entryCoordinates
  by_cases h : entry.isObject = true
  · rw [if_pos h, if_pos h, runStep, runPlace, coordinatesAt_place [] index]
    cases coordinatesAt c.limits [] [.field "blocks", .index index] (entry.field "x")
      (entry.field "y") (entry.field "z") <;> rfl
  · rw [if_neg h, if_neg h]
    rfl

/-! ### Lists of steps -/

/-- The state after steps that placed blocks, one each, and left a ledger. -/
def RunState.extend (blocks : List Block) (ledger : Ledger) (s : RunState) : RunState :=
  { s with
    ledger
    output := s.output ++ blocks.toArray
    work := { s.work with steps := s.work.steps + blocks.length } }

/-- Whether steps that start in a state do what reading a list of blocks does. -/
inductive RunState.Enacts (s : RunState) :
    EStateM.Result Rejection Ledger (List Block) → EStateM.Result Rejection RunState Unit → Prop
  | ok (blocks : List Block) (ledger : Ledger) :
    Enacts s (.ok blocks ledger) (.ok () (s.extend blocks ledger))
  | error (r : Rejection) (t : RunState) : Enacts s (.error r t.ledger) (.error r.inProgram t)

namespace RunState

variable {s t : RunState}

theorem extend_nil (s : RunState) : s.extend [] s.ledger = s := by
  simp [extend]

theorem size_extend (blocks : List Block) (ledger : Ledger) (s : RunState) :
    (s.extend blocks ledger).output.size = s.output.size + blocks.length := by
  simp [extend]

/-- No steps do what reading no entries does. -/
theorem enacts_nil (s : RunState) : s.Enacts (.ok [] s.ledger) (.ok () s) := by
  have h := Enacts.ok (s := s) [] s.ledger
  rw [extend_nil] at h
  exact h

/-- A step that places a block, and steps after it. -/
theorem Enacts.cons {block : Block} (ht : t = s.extend [block] t.ledger)
    {blocks : EStateM.Result Rejection Ledger (List Block)}
    {steps : EStateM.Result Rejection RunState Unit} : t.Enacts blocks steps → s.Enacts
      (match blocks with
        | .ok blocks l => .ok (block :: blocks) l
        | .error r l => .error r l) steps := by
  intro h
  cases h with
  | error r u => exact .error r u
  | ok blocks l =>
    have he : t.extend blocks l = s.extend (block :: blocks) l := by
      rw [ht]
      simp [extend, Nat.add_assoc, Nat.add_comm 1]
    rw [he]
    exact .ok (block :: blocks) l

/-- A block that is placed from a snapshot. -/
theorem place_eq_extend {c : RunContext} {snapshot : Catalog.Snapshot}
    (hc : c.captured = some snapshot) (x y z : Int) (blockType : Json) :
    s.countStep.place c [] x y z blockType =
      s.extend [{ x, y, z, blockType := (s.ledger.blockFor snapshot [] blockType).1 }]
        (s.ledger.blockFor snapshot [] blockType).2 := by
  have hs : s.countStep.snapshot c = snapshot := by rw [RunState.snapshot, hc, Option.getD_some]
  unfold place
  rw [hs]
  simp [extend, countStep]

end RunState

/-- **The placements do what the entries describe for which there is room.** -/
theorem runSteps_placements {snapshot : Catalog.Snapshot} (hc : c.captured = some snapshot)
    (inner : Executor) : ∀ (entries : List Json) (index : Nat) (s : RunState),
      s.work.steps + entries.length ≤ c.limits.maxSteps →
      s.Enacts
        (readBlocks c.limits snapshot index
          (entries.take (c.limits.maxBlocks.toNat - s.output.size)) s.ledger)
        (runSteps c inner [] (placements index entries) s) := by
  intro entries
  induction entries with
  | nil =>
    intro index s _
    rw [List.take_nil]
    exact s.enacts_nil
  | cons entry entries ih =>
    intro index s hs
    have hl : (entry :: entries).length = entries.length + 1 := List.length_cons
    rw [placements, runSteps_cons]
    by_cases hf : s.isFull c.limits = true
    · -- no room is left for this entry, nor for one after it
      have hm := (s.isFull_iff c.limits).mp hf
      have hroom : c.limits.maxBlocks.toNat - s.output.size = 0 := by omega
      rw [if_pos hf, hroom, List.take_zero]
      exact s.enacts_nil
    · have hm := mt (s.isFull_iff c.limits).mpr hf
      have hroom : c.limits.maxBlocks.toNat - s.output.size =
          c.limits.maxBlocks.toNat - (s.output.size + 1) + 1 := by omega
      have hsteps : ¬ c.limits.maxSteps < s.countStep.work.steps := by
        rw [RunState.steps_countStep]
        omega
      rw [if_neg hf, if_neg hsteps, runStep_placement, hroom, List.take_succ_cons,
        readBlocks_cons]
      cases entryCoordinates c.limits index entry with
      | error r => exact .error r s.countStep
      | ok place =>
        obtain ⟨x, y, z⟩ := place
        have ht := RunState.place_eq_extend (s := s) hc x y z (entry.field "blockType")
        have h := ih (index + 1) (s.countStep.place c [] x y z (entry.field "blockType")) (by
          show ((s.work.steps + 1 : Nat) : Int) + entries.length ≤ c.limits.maxSteps
          omega)
        rw [ht, RunState.size_extend] at h
        dsimp only
        rw [ht]
        exact RunState.Enacts.cons rfl h

end Steps

/-! ### Documents -/

section Documents

variable {limits : Limits} {entries : List Json}

/-- Where a list of steps may be opened a run carries out the steps of its program. -/
theorem Program.exists_outcome_eq (p : Program) (hd : 0 ≤ limits.maxCallDepth) (ledger : Ledger) :
    ∃ inner, p.outcome limits ledger = runSteps (p.context limits ledger.store.current) inner []
      p.steps (({ ledger } : RunState).countLevels 1) := by
  let c := p.context limits ledger.store.current
  have hroom : c.maxLevels = limits.maxCallDepth.toNat + 1 := by
    show (limits.maxCallDepth + 1).toNat = _
    omega
  refine ⟨execute c limits.maxCallDepth.toNat, ?_⟩
  show execute c c.maxLevels p.steps [] { ledger } = _
  rw [hroom, execute, modify_bind_apply, hroom, Nat.add_sub_cancel_left]

/-- The program of placements comes to what the entries come to for which there is room. -/
theorem Program.expand_placements (hd : 0 ≤ limits.maxCallDepth)
    (hs : entries.length ≤ limits.maxSteps) (ledger : Ledger) :
    ({ steps := placements 0 entries } : Program).expand limits ledger =
      match readBlocks limits ledger.store.current 0 (entries.take limits.maxBlocks.toNat)
        ledger with
      | .ok blocks l => .ok blocks (l.record (.programRun blocks.length blocks.length 0))
      | .error r l => .error r.inProgram l := by
  let p : Program := { steps := placements 0 entries }
  obtain ⟨inner, ho⟩ := p.exists_outcome_eq hd ledger
  have h : (({ ledger } : RunState).countLevels 1).Enacts
      (readBlocks limits ledger.store.current 0 (entries.take limits.maxBlocks.toNat) ledger)
      (p.outcome limits ledger) := by
    rw [ho]
    refine runSteps_placements (c := p.context limits ledger.store.current) rfl inner entries 0
      (({ ledger } : RunState).countLevels 1) ?_
    show ((0 : Nat) : Int) + entries.length ≤ limits.maxSteps
    omega
  rw [Program.expand_eq, Program.run_eq]
  generalize p.outcome limits ledger = ended at h
  generalize readBlocks limits ledger.store.current 0 (entries.take limits.maxBlocks.toNat) ledger =
    found at h
  cases h with
  | error r t => rfl
  | ok blocks l => simp [RunState.record, RunState.endEvent, RunState.extend, RunState.countLevels]

/-- A document of placements, as the list of blocks that it is made of. -/
theorem expandProgram_placements (hd : 0 ≤ limits.maxCallDepth)
    (hs : entries.length ≤ limits.maxSteps) (ledger : Ledger) :
    expandProgram limits (.obj [("steps", .arr (entries.map Json.asPlacement))]) ledger =
      match expandBlockList limits (.obj [("blocks", .arr entries)]) ledger with
      | .ok blocks l => .ok blocks (l.record (.programRun blocks.length blocks.length 0))
      | .error r l => .error r.inProgram l := by
  have hp : readProgram (.obj [("steps", .arr (entries.map Json.asPlacement))]) ledger =
      .ok { steps := placements 0 entries } ledger := by
    unfold readProgram
    rw [read_asPlacement]
    rfl
  rw [expandProgram, bind_apply, hp]
  exact Program.expand_placements hd hs ledger

/-- **A list of blocks and its placements come to the same.** The program comes to the blocks of
the list, and records that it ran, or it is rejected as the list is. -/
theorem expandDocument_placements (hd : 0 ≤ limits.maxCallDepth)
    (hs : entries.length ≤ limits.maxSteps) (ledger : Ledger) :
    expandDocument limits (.obj [("steps", .arr (entries.map Json.asPlacement))]) ledger =
      match expandDocument limits (.obj [("blocks", .arr entries)]) ledger with
      | .ok b l =>
        .ok { b with layout := some .program }
          (l.record (.programRun b.blocks.length b.blocks.length 0))
      | .error r l => .error r.inProgram l := by
  have h := expandProgram_placements hd hs ledger
  have hl : expandDocument limits (.obj [("blocks", .arr entries)]) ledger = _ :=
    expandDocument_of_blockList rfl rfl rfl ledger
  rw [hl]
  cases he : expandBlockList limits (.obj [("blocks", .arr entries)]) ledger with
  | error r l =>
    rw [he] at h
    exact expandDocument_of_rejected rfl rfl h
  | ok blocks l =>
    rw [he] at h
    have hb : ¬ limits.maxBlocks.toNat < blocks.length :=
      Nat.not_lt.mpr (length_expandBlockList he)
    rw [expandDocument_of_program rfl h]
    simp only [Blueprint.assemble, if_neg hb]

/-- Entries for which there is no room make no difference to a list of blocks. -/
theorem expandDocument_take (ledger : Ledger) :
    expandDocument limits (.obj [("blocks", .arr (entries.take limits.maxBlocks.toNat))]) ledger =
      expandDocument limits (.obj [("blocks", .arr entries)]) ledger := by
  have h : expandBlockList limits (.obj [("blocks", .arr (entries.take limits.maxBlocks.toNat))])
      ledger = expandBlockList limits (.obj [("blocks", .arr entries)]) ledger := by
    show readBlocks limits ledger.store.current 0
      ((entries.take limits.maxBlocks.toNat).take limits.maxBlocks.toNat) ledger = _
    rw [List.take_take, min_self]
    rfl
  have hl : ∀ es : List Json, expandDocument limits (.obj [("blocks", .arr es)]) ledger = _ :=
    fun es => expandDocument_of_blockList rfl rfl rfl ledger
  rw [hl, hl, h]

end Documents

/-- The reports of the journal that a block type was replaced, in their order. -/
def Ledger.replacements (ledger : Ledger) : List Event :=
  ledger.journal.filter fun event =>
    match event with
    | .blockReplaced _ _ _ _ => true
    | _ => false

theorem Ledger.replacements_record_programRun (ledger : Ledger) (blocks steps calls : Nat) :
    (ledger.record (.programRun blocks steps calls)).replacements = ledger.replacements := by
  simp [replacements, record]

/-- **A list of blocks and its placements agree.** With steps enough for all entries the list and
the program come to the same blocks and report the same block types in the same order, or both are
rejected for alike reasons. Other entries after the last one for which there is room are noticed by
neither, whatever they are. -/
theorem expandDocument_flat {limits : Limits} {entries : List Json}
    (hd : 0 ≤ limits.maxCallDepth) (hs : entries.length ≤ limits.maxSteps) (ledger : Ledger) :
    ((∃ b l l', expandDocument limits (.obj [("blocks", .arr entries)]) ledger = .ok b l ∧
        expandDocument limits (.obj [("steps", .arr (entries.map Json.asPlacement))]) ledger =
          .ok { b with layout := some .program } l' ∧
        l'.store = l.store ∧ l'.replacements = l.replacements) ∨
      ∃ r r' l, expandDocument limits (.obj [("blocks", .arr entries)]) ledger = .error r l ∧
        expandDocument limits (.obj [("steps", .arr (entries.map Json.asPlacement))]) ledger =
          .error r' l ∧
        r.Alike r') ∧
    ∀ others : List Json, others.length ≤ limits.maxSteps →
      others.take limits.maxBlocks.toNat = entries.take limits.maxBlocks.toNat →
      expandDocument limits (.obj [("blocks", .arr others)]) ledger =
        expandDocument limits (.obj [("blocks", .arr entries)]) ledger ∧
      expandDocument limits (.obj [("steps", .arr (others.map Json.asPlacement))]) ledger =
        expandDocument limits (.obj [("steps", .arr (entries.map Json.asPlacement))]) ledger := by
  have h := expandDocument_placements hd hs ledger
  constructor
  · cases hl : expandDocument limits (.obj [("blocks", .arr entries)]) ledger with
    | ok b l =>
      rw [hl] at h
      exact .inl ⟨b, l, _, rfl, h, rfl, l.replacements_record_programRun ..⟩
    | error r l =>
      rw [hl] at h
      exact .inr ⟨r, _, l, rfl, h, r.alike_inProgram⟩
  · intro others ho ht
    have hl : expandDocument limits (.obj [("blocks", .arr others)]) ledger =
        expandDocument limits (.obj [("blocks", .arr entries)]) ledger := by
      rw [← expandDocument_take, ht, expandDocument_take]
    exact ⟨hl, by rw [expandDocument_placements hd ho, h, hl]⟩

/-- A block that quarries lack, said to be a loop, and something that is no block. -/
def graniteFirst : List Json :=
  [.obj [("op", .str "for"), ("x", .str "1 + 1"), ("y", .int 0), ("z", .int 0),
    ("blockType", .str "Granite")], .null]

/-- Room for one block, and as many steps as there are in `graniteFirst`. -/
def oneBlock : Limits :=
  { maxBlocks := 1, maxCallDepth := 0, maxSteps := 2 }

/-- With room for one block granite is replaced in both documents, and neither comes to what
follows. -/
theorem expandDocument_flat_granite :
    0 ≤ oneBlock.maxCallDepth ∧ graniteFirst.length ≤ oneBlock.maxSteps ∧
    (∃ b l l', expandDocument oneBlock (.obj [("blocks", .arr graniteFirst)]) quarry = .ok b l ∧
      expandDocument oneBlock (.obj [("steps", .arr (graniteFirst.map Json.asPlacement))]) quarry =
        .ok { b with layout := some .program } l' ∧
      b.blocks = [⟨2, 0, 0, "minecraft:a"⟩] ∧
      l'.replacements = [.blockReplaced "minecraft:granite" "quarry" "v1" "minecraft:a"]) ∧
    expandDocument oneBlock
        (.obj [("steps", .arr ((graniteFirst.take 1).map Json.asPlacement))]) quarry =
      expandDocument oneBlock
        (.obj [("steps", .arr (graniteFirst.map Json.asPlacement))]) quarry := by
  have hd : 0 ≤ oneBlock.maxCallDepth := by decide
  have hs : graniteFirst.length ≤ oneBlock.maxSteps := by decide
  have listed : expandDocument oneBlock (.obj [("blocks", .arr graniteFirst)]) quarry =
      .ok ⟨[⟨2, 0, 0, "minecraft:a"⟩], none, some .blockList⟩
        { store := { quarry.store with reported := [(0, "minecraft:granite")] }
          journal := [.blockReplaced "minecraft:granite" "quarry" "v1" "minecraft:a"] } := by
    decide +kernel
  obtain ⟨same, cut⟩ := expandDocument_flat hd hs quarry
  refine ⟨hd, hs, ?_, (cut (graniteFirst.take 1) (by decide) rfl).2⟩
  rcases same with ⟨b, l, l', hb, hb', -, hr⟩ | ⟨r, r', l, hr, -, -⟩
  · refine ⟨b, l, l', hb, hb', ?_, hr.trans ?_⟩
    · rw [listed] at hb
      cases hb
      rfl
    · rw [listed] at hb
      cases hb
      decide +kernel
  · rw [listed] at hr
    cases hr

end VoxelBlueprint
