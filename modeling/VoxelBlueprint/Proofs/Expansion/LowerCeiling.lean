/-
# Documents with a lower ceiling on the blocks

A document that comes to a blueprint comes to the first blocks of it under a lower
ceiling. For a program this is said by its runs. Of a list of blocks fewer entries are
looked at, and those that are come to the same. A document whose program was rejected
and that fell back on its list of blocks is left out: under the lower ceiling the
rejection may never be reached.

Key theorems: `Program.expand_withMaxBlocks`, `expandBlockList_withMaxBlocks`,
`expandDocument_withMaxBlocks`, `lowerCeiling_takes_prefix`.
-/
import VoxelBlueprint.Proofs.Execution.Truncation
import VoxelBlueprint.Proofs.Expansion.Documents

namespace VoxelBlueprint

open Effects

variable {limits : Limits} {m : Int}

/-! ### Programs -/

/-- A run that ends well has opened a list of steps. -/
theorem Program.depth_of_run_ok {p : Program} {ledger : Ledger} {s : RunState}
    (h : p.run limits ledger = .ok () s) : 0 ≤ limits.maxCallDepth := by
  by_contra hd
  obtain ⟨s', ho, -⟩ := outcome_of_run_ok h
  rw [outcome_of_no_depth limits p ledger hd] at ho
  cases ho

theorem Program.expand_withMaxBlocks {p : Program} (hm : m ≤ limits.maxBlocks)
    {ledger ledger' : Ledger} {blocks : List Block}
    (h : p.expand limits ledger = .ok blocks ledger') :
    ∃ l, p.expand (limits.withMaxBlocks m) ledger = .ok (blocks.take m.toNat) l := by
  rw [expand_eq] at h
  cases hr : p.run limits ledger with
  | error r s => rw [hr] at h; cases h
  | ok u s =>
    rw [hr] at h
    cases h
    obtain ⟨s', hs', hb, -⟩ := run_withMaxBlocks limits hm (depth_of_run_ok hr) (.inl hr)
    exact ⟨s'.ledger, by rw [expand_eq, hs', ← hb]⟩

theorem expandProgram_withMaxBlocks (hm : m ≤ limits.maxBlocks) {document : Json}
    {ledger ledger' : Ledger} {blocks : List Block}
    (h : expandProgram limits document ledger = .ok blocks ledger') :
    ∃ l, expandProgram (limits.withMaxBlocks m) document ledger = .ok (blocks.take m.toNat) l := by
  obtain ⟨p, ledger₁, hp, h⟩ := bind_apply_eq_ok h
  obtain ⟨l, hl⟩ := Program.expand_withMaxBlocks hm h
  exact ⟨l, by rw [expandProgram, bind_apply, hp]; exact hl⟩

/-! ### Lists of blocks -/

theorem readBlock_withMaxBlocks (snapshot : Catalog.Snapshot) (index : Nat) (entry : Json) :
    readBlock (limits.withMaxBlocks m) snapshot index entry =
      readBlock limits snapshot index entry := by
  have h : coordinatesAt (limits.withMaxBlocks m) = coordinatesAt limits := coordinatesAt_congr rfl
  unfold readBlock entryCoordinates
  rw [h]

theorem readBlocks_withMaxBlocks (snapshot : Catalog.Snapshot) :
    ∀ (index : Nat) (entries : List Json),
      readBlocks (limits.withMaxBlocks m) snapshot index entries =
        readBlocks limits snapshot index entries
  | _, [] => rfl
  | index, entry :: entries => by
    rw [readBlocks, readBlocks, readBlock_withMaxBlocks,
      readBlocks_withMaxBlocks snapshot (index + 1) entries]

/-- The first entries come to the first blocks. -/
theorem readBlocks_take {snapshot : Catalog.Snapshot} :
    ∀ (k : Nat) {index : Nat} {entries : List Json} {ledger ledger' : Ledger}
      {blocks : List Block}, readBlocks limits snapshot index entries ledger = .ok blocks ledger' →
      ∃ l, readBlocks limits snapshot index (entries.take k) ledger = .ok (blocks.take k) l
  | 0, _, _, ledger, _, _, _ => ⟨ledger, by rw [List.take_zero, List.take_zero]; rfl⟩
  | _ + 1, _, [], ledger, _, _, h => by
    cases h
    exact ⟨ledger, rfl⟩
  | k + 1, index, entry :: entries, ledger, _, _, h => by
    obtain ⟨block, ledger₁, hb, h⟩ := bind_apply_eq_ok h
    obtain ⟨rest, ledger₂, hr, h⟩ := bind_apply_eq_ok h
    cases h
    obtain ⟨l, hl⟩ := readBlocks_take k hr
    refine ⟨l, ?_⟩
    rw [List.take_succ_cons, List.take_succ_cons, readBlocks, bind_apply, hb]
    simp only [bind_apply, hl]
    rfl

theorem expandBlockList_withMaxBlocks (hm : m ≤ limits.maxBlocks) {document : Json}
    {ledger ledger' : Ledger} {blocks : List Block}
    (h : expandBlockList limits document ledger = .ok blocks ledger') :
    ∃ l, expandBlockList (limits.withMaxBlocks m) document ledger =
      .ok (blocks.take m.toNat) l := by
  cases hb : document.field "blocks" with
  | arr entries =>
    rw [expandBlockList, hb] at h ⊢
    simp only [get_bind_apply] at h ⊢
    obtain ⟨l, hl⟩ := readBlocks_take m.toNat h
    rw [List.take_take, min_eq_left (by omega)] at hl
    exact ⟨l, by rw [readBlocks_withMaxBlocks]; exact hl⟩
  | _ =>
    rw [expandBlockList, hb] at h
    cases h

/-! ### Documents -/

/-- Under a lower ceiling the blocks of a document are the first ones, if they are those of
its program or if it has no program. -/
theorem dispatch_withMaxBlocks (hm : m ≤ limits.maxBlocks) {document : Json}
    {ledger ledger' : Ledger} {blocks : List Block} {layout : Layout}
    (h : dispatch limits document ledger = .ok (blocks, layout) ledger')
    (hl : layout = .program ∨ Layout.of document = .ok (some .blockList)) :
    ∃ l, dispatch (limits.withMaxBlocks m) document ledger =
      .ok (blocks.take m.toNat, layout) l := by
  cases hd : Layout.of document with
  | error malformation => rw [dispatch, hd] at h; cases h
  | ok layout? =>
    rcases layout? with _ | _ | _
    · rw [dispatch, hd] at h
      cases h
    · rw [dispatch_program hd] at h
      cases he : expandProgram limits document ledger with
      | ok blocks' l =>
        rw [he] at h
        cases h
        obtain ⟨l, he'⟩ := expandProgram_withMaxBlocks hm he
        exact ⟨l, by rw [dispatch_program hd, he']⟩
      | error r l =>
        -- the list of blocks stood in for the program, which is neither case of `hl`
        rw [he] at h
        rcases hl with rfl | hl
        · cases hf : fallBack limits document r l <;> simp only [hf] at h <;> cases h
        · rw [hd] at hl
          cases hl
    · rw [dispatch_blockList hd] at h
      cases he : expandBlockList limits document ledger with
      | error r l => rw [he] at h; cases h
      | ok blocks' l =>
        rw [he] at h
        cases h
        obtain ⟨l, he'⟩ := expandBlockList_withMaxBlocks hm he
        exact ⟨l, by rw [dispatch_blockList hd, he']⟩

theorem expandDocument_withMaxBlocks (limits : Limits) (hm : m ≤ limits.maxBlocks) {document : Json}
    {ledger ledger' : Ledger} {b : Blueprint}
    (h : expandDocument limits document ledger = .ok b ledger')
    (hl : b.layout = some .program ∨ Layout.of document = .ok (some .blockList)) :
    ∃ b' l, expandDocument (limits.withMaxBlocks m) document ledger = .ok b' l ∧
      b'.layout = b.layout ∧ b'.blocks = b.blocks.take m.toNat := by
  rw [expandDocument_apply] at h
  cases hd : dispatch limits document ledger with
  | error r l => rw [hd] at h; cases h
  | ok found l =>
    obtain ⟨blocks, layout⟩ := found
    rw [hd] at h
    cases h
    rw [layout_assemble] at hl ⊢
    obtain ⟨l', hd'⟩ := dispatch_withMaxBlocks hm hd (hl.imp Option.some.inj id)
    refine ⟨_, l', by rw [expandDocument_apply, hd'], layout_assemble .., ?_⟩
    rw [blocks_assemble, blocks_assemble, List.take_take, List.take_take,
      min_eq_left (by omega : m.toNat ≤ limits.maxBlocks.toNat)]
    exact congrArg (blocks.take ·) (min_self _)

/-! ### The service -/

/-- The service with a ceiling in the request: the document under the lower of both ceilings. -/
theorem reply_expand (service : Service) {submission : Submission} {document : Json} (k : ℕ)
    (h : submission.decode = .ok document) {b : Blueprint} {ledger : Ledger}
    (hb : expandDocument (service.limits.withMaxBlocks (min service.limits.maxBlocks k)) document
      service.ledger = .ok b ledger) :
    (service.expand { submission, maxBlocks := some k }).2 =
      .blueprint b ledger.store.current.version := by
  have hl : service.limitsFor { submission, maxBlocks := some k } =
      service.limits.withMaxBlocks (min service.limits.maxBlocks k) := rfl
  rw [reply_of_decode h, hl, hb]

/-- **A lower ceiling on the blocks only takes a prefix**, in a run of a program, in the
expansion of a document, and in the service, where a request may lower the ceiling. -/
theorem lowerCeiling_takes_prefix :
    (∀ (p : Program) (limits : Limits) (ledger : Ledger) (m n : Int) (s : RunState),
      0 ≤ limits.maxCallDepth → m ≤ n →
      (p.run (limits.withMaxBlocks n) ledger = .ok () s ∨
        ∃ r, p.run (limits.withMaxBlocks n) ledger = .error r s ∧ m ≤ s.output.size) →
      ∃ s', p.run (limits.withMaxBlocks m) ledger = .ok () s' ∧
        s'.output.toList = s.output.toList.take m.toNat ∧
        s'.work.steps ≤ s.work.steps ∧ s'.work.calls ≤ s.work.calls) ∧
    (∀ (document : Json) (limits : Limits) (ledger : Ledger) (m n : Int) (b : Blueprint)
      (ledger' : Ledger), m ≤ n →
      expandDocument (limits.withMaxBlocks n) document ledger = .ok b ledger' →
      b.layout = some .program ∨ Layout.of document = .ok (some .blockList) →
      ∃ b' l, expandDocument (limits.withMaxBlocks m) document ledger = .ok b' l ∧
        b'.layout = b.layout ∧ b'.blocks = b.blocks.take m.toNat) ∧
    (∀ (service : Service) (submission : Submission) (document : Json) (k : ℕ) (n : Int)
      (b : Blueprint) (ledger' : Ledger), submission.decode = .ok document →
      min service.limits.maxBlocks k ≤ n →
      expandDocument (service.limits.withMaxBlocks n) document service.ledger = .ok b ledger' →
      b.layout = some .program ∨ Layout.of document = .ok (some .blockList) →
      ∃ b' version,
        (service.expand { submission, maxBlocks := some k }).2 = .blueprint b' version ∧
        b'.layout = b.layout ∧
        b'.blocks = b.blocks.take (min service.limits.maxBlocks k).toNat) := by
  refine ⟨?_, ?_, ?_⟩
  · intro p limits ledger m n s hd hm h
    exact Program.run_withMaxBlocks (limits.withMaxBlocks n) hm hd h
  · intro document limits ledger m n b ledger' hm h hl
    exact expandDocument_withMaxBlocks (limits.withMaxBlocks n) hm h hl
  · intro service submission document k n b ledger' hs hm h hl
    obtain ⟨b', l, hb, hb'⟩ :=
      expandDocument_withMaxBlocks (service.limits.withMaxBlocks n) hm h hl
    exact ⟨b', _, reply_expand service k hs hb, hb'⟩

/-- Two blocks, and a step that could not be read. -/
def twoSteps : Program :=
  { steps :=
      [.place (.int 0) (.int 0) (.int 0) (.str "a"), .place (.int 1) (.int 0) (.int 0) (.str "a"),
       .invalid ⟨.stepNotObject, []⟩] }

/-- The same two blocks in a list. -/
def twoEntries : Json :=
  .obj [("blocks", .arr
    [.obj [("x", .int 0), ("y", .int 0), ("z", .int 0), ("blockType", .str "a")],
     .obj [("x", .int 1), ("y", .int 0), ("z", .int 0), ("blockType", .str "a")]])]

theorem lowerCeiling_takes_one_of_two :
    (∃ s, twoSteps.run { maxBlocks := 1 } quarry = .ok () s ∧
      s.output.toList = [⟨0, 0, 0, "minecraft:a"⟩]) ∧
    (∃ b l, expandDocument { maxBlocks := 1 } twoEntries quarry = .ok b l ∧
      b.blocks = [⟨0, 0, 0, "minecraft:a"⟩]) ∧
    (∃ b version,
      (({ ledger := quarry } : Service).expand
        { submission := .document twoEntries, maxBlocks := some 1 }).2 = .blueprint b version ∧
      b.blocks = [⟨0, 0, 0, "minecraft:a"⟩]) := by
  have blocks : expandDocument {} twoEntries quarry =
      .ok { blocks := [⟨0, 0, 0, "minecraft:a"⟩, ⟨1, 0, 0, "minecraft:a"⟩]
            layout := some .blockList } quarry := by decide +kernel
  refine ⟨?_, ?_, ?_⟩
  · -- with room for both blocks the run is rejected at the third step
    have rejected : twoSteps.run {} quarry = .error (.malformed ⟨.stepNotObject, []⟩)
        { ledger := quarry
          output := #[⟨0, 0, 0, "minecraft:a"⟩, ⟨1, 0, 0, "minecraft:a"⟩]
          work := { steps := 3, levels := 1 } } := by decide +kernel
    obtain ⟨s, h, hs, -⟩ := lowerCeiling_takes_prefix.1 twoSteps {} quarry 1 200 _ (by decide)
      (by decide) (.inr ⟨_, rejected, by decide⟩)
    exact ⟨s, h, hs⟩
  · obtain ⟨b, l, h, -, hb⟩ := lowerCeiling_takes_prefix.2.1 twoEntries {} quarry 1 200 _ _
      (by decide) blocks (.inr (by decide))
    exact ⟨b, l, h, hb⟩
  · obtain ⟨b, version, h, -, hb⟩ := lowerCeiling_takes_prefix.2.2 { ledger := quarry }
      (.document twoEntries) twoEntries 1 200 _ _ rfl (by decide) blocks (.inr (by decide))
    exact ⟨b, version, h, hb⟩

end VoxelBlueprint
