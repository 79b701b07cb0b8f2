/-
# Blueprints are assembled whole

A blueprint is assembled of the first blocks of a document, as many as the ceiling allows. Nothing
is ever cut off there: a run places a block only while there is room, and of a list of blocks no
more entries are looked at than there is room for. This is so for every ceiling, and a negative one
leaves as little room as zero does.

Key theorems: `Program.length_expand`, `length_dispatch`, `expandDocument_of_dispatch`,
`dispatch_of_expandDocument`.
-/
import VoxelBlueprint.Proofs.Execution.Runs
import VoxelBlueprint.Proofs.Expansion.Documents

namespace VoxelBlueprint

open Effects Stage

variable {limits : Limits} {document : Json} {ledger l : Ledger} {blocks : List Block}
  {layout : Layout}

/-! ### Blocks -/

/-- A program comes to no more blocks than there is room for. -/
theorem Program.length_expand {p : Program} (h : p.expand limits ledger = .ok blocks l) :
    blocks.length ≤ limits.maxBlocks.toNat := by
  rw [expand_eq] at h
  cases hr : p.run limits ledger with
  | error r s => rw [hr] at h; cases h
  | ok u s =>
    rw [hr] at h
    cases h
    obtain ⟨s', ho, rfl⟩ := outcome_of_run_ok hr
    -- the outcome is a stage of the run, and no stage has passed the ceiling
    obtain ⟨n, hn⟩ := p.eventually_outcome limits ledger
    have hsize := p.size_stage limits ledger n
    rw [hn n le_rfl, ho] at hsize
    rw [Array.length_toList]
    exact hsize

theorem length_expandProgram (h : expandProgram limits document ledger = .ok blocks l) :
    blocks.length ≤ limits.maxBlocks.toNat := by
  obtain ⟨p, ledger₁, -, h⟩ := bind_apply_eq_ok h
  exact Program.length_expand h

/-- The blocks that stand in for a program are no more than there is room for. -/
theorem length_fallBack {r : Rejection} (h : fallBack limits document r ledger = .ok blocks l) :
    blocks.length ≤ limits.maxBlocks.toNat := by
  unfold fallBack at h
  by_cases hb : Document.hasBlockList document = true
  · rw [if_pos hb] at h
    obtain ⟨_, ledger₁, -, h⟩ := bind_apply_eq_ok h
    exact length_expandBlockList h
  · rw [if_neg hb] at h
    cases h

/-- **A document comes to no more blocks than there is room for**, whatever its layout. -/
theorem length_dispatch (h : dispatch limits document ledger = .ok (blocks, layout) l) :
    blocks.length ≤ limits.maxBlocks.toNat := by
  cases hd : Layout.of document with
  | error malformation => rw [dispatch, hd] at h; cases h
  | ok layout? =>
    rcases layout? with _ | _ | _
    · rw [dispatch, hd] at h
      cases h
    · rw [dispatch_program hd] at h
      cases he : expandProgram limits document ledger with
      | ok blocks' l' =>
        rw [he] at h
        cases h
        exact length_expandProgram he
      | error r l' =>
        rw [he] at h
        cases hf : fallBack limits document r l' with
        | ok blocks' l'' =>
          simp only [hf] at h
          cases h
          exact length_fallBack hf
        | error r' l'' => simp only [hf] at h; cases h
    · rw [dispatch_blockList hd] at h
      cases he : expandBlockList limits document ledger with
      | error r l' => rw [he] at h; cases h
      | ok blocks' l' =>
        rw [he] at h
        cases h
        exact length_expandBlockList he

/-! ### Blueprints -/

/-- Blocks for which there is room are assembled as they are. -/
theorem assemble_of_length_le {ceiling : Int} {layout? : Option Layout}
    (h : blocks.length ≤ ceiling.toNat) :
    Blueprint.assemble blocks ceiling layout? = { blocks, layout := layout? } :=
  if_neg (Nat.not_lt.mpr h)

/-- The blueprint of a document has all its blocks. -/
theorem expandDocument_of_dispatch
    (h : dispatch limits document ledger = .ok (blocks, layout) l) :
    expandDocument limits document ledger =
      .ok { blocks, truncatedFrom := none, layout := some layout } l := by
  rw [expandDocument_apply, h]
  simp only [assemble_of_length_le (length_dispatch h)]

theorem dispatch_of_expandDocument {b : Blueprint}
    (h : expandDocument limits document ledger = .ok b l) :
    b.truncatedFrom = none ∧
      ∃ layout, dispatch limits document ledger = .ok (b.blocks, layout) l := by
  cases hd : dispatch limits document ledger with
  | error r l' =>
    rw [expandDocument_apply, hd] at h
    cases h
  | ok found l' =>
    obtain ⟨blocks, layout⟩ := found
    rw [expandDocument_of_dispatch hd] at h
    cases h
    exact ⟨rfl, layout, rfl⟩

/-- The blueprint of a text has all the blocks of its document. -/
theorem dispatch_of_expandText {text : List Char} {b : Blueprint}
    (h : expandText limits text ledger = .ok b l) :
    b.truncatedFrom = none ∧ ∃ document layout, Document.decode text = .ok document ∧
      dispatch limits document ledger = .ok (b.blocks, layout) l := by
  obtain ⟨document, ledger₁, hd, h⟩ := bind_apply_eq_ok h
  unfold decodeDocument at hd
  cases ht : Document.decode text with
  | error fault => rw [ht] at hd; cases hd
  | ok document' =>
    rw [ht] at hd
    cases hd
    obtain ⟨hnone, layout, hdispatch⟩ := dispatch_of_expandDocument h
    exact ⟨hnone, _, layout, rfl, hdispatch⟩

end VoxelBlueprint
