/-
# What a document comes to

The expansion of a document, stage by stage: what is made of the blocks, what a layout comes
to, and what the service makes of a submission that holds a document.

Key theorems: `blocks_assemble`, `readBlocks_cons`, `length_expandBlockList`, `dispatch_program`,
`dispatch_blockList`, `expandDocument_apply`, `expandDocument_of_program`,
`expandDocument_of_fallBack`, `expandDocument_of_blockList`, `expandSubmission_apply`,
`reply_of_decode`.
-/
import VoxelBlueprint.Proofs.Effects
import VoxelBlueprint.Service.Basic

namespace VoxelBlueprint

open Effects

variable {limits : Limits}

/-! ### Blueprints -/

theorem blocks_assemble (blocks : List Block) (ceiling : Int) (layout : Option Layout) :
    (Blueprint.assemble blocks ceiling layout).blocks = blocks.take ceiling.toNat := by
  unfold Blueprint.assemble
  split
  · rfl
  · exact (List.take_of_length_le (Nat.not_lt.mp ‹_›)).symm

theorem layout_assemble (blocks : List Block) (ceiling : Int) (layout : Option Layout) :
    (Blueprint.assemble blocks ceiling layout).layout = layout := by
  unfold Blueprint.assemble
  split <;> rfl

/-! ### Lists of blocks -/

theorem readBlock_apply (snapshot : Catalog.Snapshot) (index : Nat) (entry : Json)
    (ledger : Ledger) :
    readBlock limits snapshot index entry ledger =
      match entryCoordinates limits index entry with
      | .ok (x, y, z) =>
        let placed := ledger.blockFor snapshot [] (entry.field "blockType")
        .ok { x, y, z, blockType := placed.1 } placed.2
      | .error r => .error r ledger := by
  rw [readBlock, ofExcept_bind_apply]
  cases entryCoordinates limits index entry <;> rfl

theorem readBlocks_cons (snapshot : Catalog.Snapshot) (index : Nat) (entry : Json)
    (entries : List Json) (ledger : Ledger) :
    readBlocks limits snapshot index (entry :: entries) ledger =
      match entryCoordinates limits index entry with
      | .ok (x, y, z) =>
        let placed := ledger.blockFor snapshot [] (entry.field "blockType")
        match readBlocks limits snapshot (index + 1) entries placed.2 with
        | .ok blocks l => .ok ({ x, y, z, blockType := placed.1 } :: blocks) l
        | .error r l => .error r l
      | .error r => .error r ledger := by
  rw [readBlocks, bind_apply, readBlock_apply]
  cases entryCoordinates limits index entry with
  | error r => rfl
  | ok place =>
    generalize ledger.blockFor snapshot [] (entry.field "blockType") = placed
    have hb := bind_apply (readBlocks limits snapshot (index + 1) entries) (fun blocks =>
      pure (({ x := place.1, y := place.2.1, z := place.2.2, blockType := placed.1 } : Block) ::
        blocks)) placed.2
    refine hb.trans ?_
    dsimp only
    cases readBlocks limits snapshot (index + 1) entries placed.2 <;> rfl

theorem length_readBlocks {snapshot : Catalog.Snapshot} :
    ∀ {entries : List Json} {index : Nat} {ledger l : Ledger} {blocks : List Block},
      readBlocks limits snapshot index entries ledger = .ok blocks l →
        blocks.length = entries.length
  | [], _, _, _, _, h => by
    cases h
    rfl
  | entry :: entries, index, _, _, _, h => by
    obtain ⟨block, ledger₁, -, h⟩ := bind_apply_eq_ok h
    obtain ⟨blocks, ledger₂, hr, h⟩ := bind_apply_eq_ok h
    cases h
    rw [List.length_cons, List.length_cons, length_readBlocks hr]

/-- A list of blocks comes to no more blocks than there is room for. -/
theorem length_expandBlockList {document : Json} {ledger l : Ledger} {blocks : List Block}
    (h : expandBlockList limits document ledger = .ok blocks l) :
    blocks.length ≤ limits.maxBlocks.toNat := by
  cases hb : document.field "blocks" with
  | arr entries =>
    rw [expandBlockList, hb] at h
    simp only [get_bind_apply] at h
    rw [length_readBlocks h]
    exact List.length_take_le _ _
  | _ =>
    rw [expandBlockList, hb] at h
    cases h

/-! ### Documents -/

/-- What a document with a program comes to: the blocks of the program, or those that stand
in for it. -/
theorem dispatch_program {document : Json} (hd : Layout.of document = .ok (some .program))
    (ledger : Ledger) : dispatch limits document ledger =
      match expandProgram limits document ledger with
      | .ok blocks l => .ok (blocks, .program) l
      | .error r l =>
        match fallBack limits document r l with
        | .ok blocks l => .ok (blocks, .blockList) l
        | .error r l => .error r l := by
  rw [dispatch, hd]
  refine (tryCatch_apply _ _ ledger).trans ?_
  rw [map_apply]
  cases expandProgram limits document ledger with
  | ok blocks l => rfl
  | error r l =>
    refine (map_apply (·, Layout.blockList) (fallBack limits document r) l).trans ?_
    cases hf : fallBack limits document r l <;> simp only [hf]

theorem dispatch_blockList {document : Json} (hd : Layout.of document = .ok (some .blockList))
    (ledger : Ledger) : dispatch limits document ledger =
      match expandBlockList limits document ledger with
      | .ok blocks l => .ok (blocks, .blockList) l
      | .error r l => .error r l := by
  rw [dispatch, hd]
  refine (bind_apply (expandBlockList limits document) _ ledger).trans ?_
  cases expandBlockList limits document ledger <;> rfl

theorem expandDocument_apply (document : Json) (ledger : Ledger) :
    expandDocument limits document ledger =
      match dispatch limits document ledger with
      | .ok (blocks, layout) l => .ok (.assemble blocks limits.maxBlocks (some layout)) l
      | .error r l => .error r l := by
  rw [expandDocument, bind_apply]
  cases dispatch limits document ledger <;> rfl

section Layouts

variable {document : Json} {ledger l : Ledger} {blocks : List Block} {r : Rejection}

theorem isObject_of_hasProgram (hp : Document.hasProgram document = true) :
    document.isObject = true := by
  cases document with
  | obj fields => rfl
  | _ => cases hp

theorem layout_of_hasProgram (hp : Document.hasProgram document = true) :
    Layout.of document = .ok (some .program) := by
  simp [Layout.of, isObject_of_hasProgram hp, hp]

/-- A document whose program comes to blocks. -/
theorem expandDocument_of_program (hp : Document.hasProgram document = true)
    (h : expandProgram limits document ledger = .ok blocks l) :
    expandDocument limits document ledger =
      .ok (.assemble blocks limits.maxBlocks (some .program)) l := by
  rw [expandDocument_apply, dispatch_program (layout_of_hasProgram hp), h]

/-- A document whose program is rejected, and that has nothing to stand in for it. -/
theorem expandDocument_of_rejected (hp : Document.hasProgram document = true)
    (hb : Document.hasBlockList document = false)
    (h : expandProgram limits document ledger = .error r l) :
    expandDocument limits document ledger = .error r l := by
  have hf : fallBack limits document r l = .error r l := by
    unfold fallBack
    rw [hb]
    rfl
  rw [expandDocument_apply, dispatch_program (layout_of_hasProgram hp), h]
  simp only [hf]

/-- A document whose program is rejected comes to what its list of blocks comes to. -/
theorem expandDocument_of_fallBack (hp : Document.hasProgram document = true)
    (hb : Document.hasBlockList document = true)
    (h : expandProgram limits document ledger = .error r l) :
    expandDocument limits document ledger =
      match expandBlockList limits document (l.record (.fellBack r)) with
      | .ok blocks l => .ok (.assemble blocks limits.maxBlocks (some .blockList)) l
      | .error r l => .error r l := by
  have hf : fallBack limits document r l =
      expandBlockList limits document (l.record (.fellBack r)) := by
    unfold fallBack
    rw [hb]
    rfl
  rw [expandDocument_apply, dispatch_program (layout_of_hasProgram hp), h]
  simp only [hf]
  cases expandBlockList limits document (l.record (.fellBack r)) <;> rfl

theorem expandDocument_of_blockList (hp : Document.hasProgram document = false)
    (hb : Document.hasBlockList document = true) (ho : document.isObject = true)
    (ledger : Ledger) :
    expandDocument limits document ledger =
      match expandBlockList limits document ledger with
      | .ok blocks l => .ok (.assemble blocks limits.maxBlocks (some .blockList)) l
      | .error r l => .error r l := by
  have hl : Layout.of document = .ok (some .blockList) := by simp [Layout.of, ho, hp, hb]
  rw [expandDocument_apply, dispatch_blockList hl]
  cases expandBlockList limits document ledger <;> rfl

end Layouts

/-! ### The service -/

theorem expandSubmission_apply {submission : Submission} {document : Json}
    (h : submission.decode = .ok document) (ledger : Ledger) :
    Service.expandSubmission limits submission ledger = expandDocument limits document ledger := by
  rw [Service.expandSubmission, ofExcept_bind_apply, h]

/-- The service answers with the blueprint of the document, or with its rejection. -/
theorem reply_of_decode {submission : Submission} {document : Json}
    (h : submission.decode = .ok document) (service : Service) (maxBlocks : Option Nat) :
    (service.expand { submission, maxBlocks }).2 =
      match expandDocument (service.limitsFor { submission, maxBlocks }) document
        service.ledger with
      | .ok b l => .blueprint b l.store.current.version
      | .error r _ => .rejected r := by
  unfold Service.expand
  rw [expandSubmission_apply h]
  cases expandDocument (service.limitsFor { submission, maxBlocks }) document service.ledger <;>
    rfl

end VoxelBlueprint
