/-
# Where the blocks of a document come from

The blocks of a document are those of the snapshot that was current when its expansion
began, whether they come from its program, from its list of blocks, or from the list that
stands in for a program that was rejected. The expansion leaves the current snapshot as it
is, also when it is rejected.

Key definitions: `Expansion.Ensures`, `BlockLaw`.
Key theorems: `Expansion.Ensures.bind`, `BlockLaw.expandDocument`, `ensures_expandDocument`.
-/
import VoxelBlueprint.Expansion.Dispatch
import VoxelBlueprint.Proofs.Execution.Placement
import VoxelBlueprint.Proofs.Execution.Runs
import VoxelBlueprint.Proofs.Expansion.Documents

namespace VoxelBlueprint

open Effects Stage

/-! ### Work on a ledger -/

/-- Whether work on a ledger leaves the current snapshot as it is, and comes to a value of
which something holds together with this snapshot if it comes to one. -/
def Expansion.Ensures {α : Type} (x : Expansion α) (Q : Catalog.Snapshot → α → Prop) : Prop :=
  ∀ ledger, match x ledger with
    | .ok a l => l.store.current = ledger.store.current ∧ Q ledger.store.current a
    | .error _ l => l.store.current = ledger.store.current

namespace Expansion.Ensures

variable {α β : Type} {P Q : Catalog.Snapshot → α → Prop} {R : Catalog.Snapshot → β → Prop}

theorem pure {a : α} (h : ∀ snapshot, Q snapshot a) : Ensures (Pure.pure a) Q :=
  fun _ => ⟨rfl, h _⟩

theorem throw (r : Rejection) : Ensures (MonadExcept.throw r : Expansion α) Q :=
  fun _ => rfl

theorem mono {x : Expansion α} (h : x.Ensures P) (hPQ : ∀ snapshot a, P snapshot a → Q snapshot a) :
    x.Ensures Q := by
  intro ledger
  have hx := h ledger
  split at hx
  · exact ⟨hx.1, hPQ _ _ hx.2⟩
  · exact hx

theorem bind {x : Expansion α} {f : α → Expansion β} (hx : x.Ensures P)
    (hf : ∀ a, (f a).Ensures fun snapshot b => P snapshot a → R snapshot b) :
    (x >>= f).Ensures R := by
  intro ledger
  have hx := hx ledger
  rw [bind_apply]
  cases hr : x ledger with
  | error r l => rw [hr] at hx; exact hx
  | ok a l =>
    rw [hr] at hx
    have hf := hf a l
    rw [hx.1] at hf
    simp only
    cases hb : f a l with
    | error r l' => rw [hb] at hf; exact hf
    | ok b l' => rw [hb] at hf; exact ⟨hf.1, hf.2 hx.2⟩

/-- What starts with a look at the ledger finds the snapshot that stays current. -/
theorem get_bind {f : Ledger → Expansion α}
    (hf : ∀ ledger, (f ledger).Ensures fun snapshot a =>
      ledger.store.current = snapshot → Q snapshot a) : (get >>= f).Ensures Q := by
  intro ledger
  have h := hf ledger ledger
  rw [get_bind_apply]
  cases hr : f ledger ledger with
  | error r l => rw [hr] at h; exact h
  | ok a l => rw [hr] at h; exact ⟨h.1, h.2 rfl⟩

/-- What handles a rejection finds the snapshot that was current before. -/
theorem tryCatch {x : Expansion α} {handle : Rejection → Expansion α} (hx : x.Ensures Q)
    (hh : ∀ r, (handle r).Ensures Q) : (MonadExcept.tryCatch x handle).Ensures Q := by
  intro ledger
  have hx := hx ledger
  rw [tryCatch_apply]
  cases hr : x ledger with
  | ok a l => rw [hr] at hx; exact hx
  | error r l =>
    rw [hr] at hx
    have h := hh r l
    rw [hx] at h
    exact h

theorem map {x : Expansion α} {f : α → β} (hx : x.Ensures fun snapshot a => R snapshot (f a)) :
    (f <$> x).Ensures R :=
  hx.bind fun _ => .pure fun _ h => h

end Expansion.Ensures

/-! ### Parts of the work -/

open Expansion

theorem ensures_record (event : Event) :
    Ensures (modify (·.record event)) fun _ (_ : PUnit) => True :=
  fun _ => ⟨rfl, trivial⟩

/-- What is computed without the ledger comes to what it comes to. -/
theorem ensures_ofExcept {α : Type} {x : Except Rejection α} {Q : α → Prop}
    (h : ∀ a, x = .ok a → Q a) : Ensures (MonadExcept.ofExcept x) fun _ => Q := by
  cases x with
  | error r => exact .throw r
  | ok a => exact .pure fun _ => h a rfl

theorem ensures_blockFor (snapshot : Catalog.Snapshot) (scope : Scope) (value : Json) :
    Ensures (modifyGet (·.blockFor snapshot scope value)) fun _ id =>
      snapshot.ids ≠ [] → id ∈ snapshot.ids :=
  fun _ => ⟨RunState.current_report _ _ _, fun h => Catalog.Snapshot.resolve_mem h _⟩

theorem ensures_readProgram (document : Json) :
    Ensures (readProgram document) fun _ _ => True := by
  unfold readProgram
  split
  · exact .throw _
  · split
    · exact (ensures_record _).bind fun _ => .pure fun _ _ => trivial
    · exact .pure fun _ => trivial

/-! ### Laws of blocks -/

/-- A law that every block keeps, together with the snapshot that it is of: those that entries of a
list describe, and those that programs place. -/
structure BlockLaw (limits : Limits) (P : Catalog.Snapshot → Block → Prop) : Prop where
  entry (snapshot : Catalog.Snapshot) (index : Nat) (entry : Json) :
    Ensures (readBlock limits snapshot index entry) fun _ block => P snapshot block
  program (p : Program) :
    Ensures (p.expand limits) fun snapshot blocks => ∀ block ∈ blocks, P snapshot block

namespace BlockLaw

variable {limits : Limits} {P : Catalog.Snapshot → Block → Prop} (h : BlockLaw limits P)

include h

theorem readBlocks (snapshot : Catalog.Snapshot) : ∀ (index : Nat) (entries : List Json),
    Ensures (readBlocks limits snapshot index entries) fun _ blocks =>
      ∀ block ∈ blocks, P snapshot block
  | _, [] => .pure fun _ => List.forall_mem_nil _
  | index, entry :: entries => by
    refine (h.entry snapshot index entry).bind fun block => ?_
    refine (readBlocks snapshot (index + 1) entries).bind fun blocks => ?_
    exact .pure fun _ hblocks hblock => List.forall_mem_cons.mpr ⟨hblock, hblocks⟩

theorem expandBlockList (document : Json) :
    Ensures (expandBlockList limits document) fun snapshot blocks =>
      ∀ block ∈ blocks, P snapshot block := by
  unfold VoxelBlueprint.expandBlockList
  split
  · exact .get_bind fun ledger => (h.readBlocks _ 0 _).mono fun _ _ hb he => he ▸ hb
  · exact .throw _

theorem expandProgram (document : Json) :
    Ensures (expandProgram limits document) fun snapshot blocks =>
      ∀ block ∈ blocks, P snapshot block :=
  (ensures_readProgram document).bind fun p => (h.program p).mono fun _ _ hb _ => hb

theorem fallBack (document : Json) (r : Rejection) :
    Ensures (fallBack limits document r) fun snapshot blocks =>
      ∀ block ∈ blocks, P snapshot block := by
  unfold VoxelBlueprint.fallBack
  split
  · exact (ensures_record _).bind fun _ => (h.expandBlockList document).mono fun _ _ hb _ => hb
  · exact .throw r

theorem dispatch (document : Json) :
    Ensures (dispatch limits document) fun snapshot found =>
      ∀ block ∈ found.1, P snapshot block := by
  unfold VoxelBlueprint.dispatch
  split
  · exact .throw _
  · exact .throw _
  · exact (h.expandBlockList document).bind fun blocks => .pure fun _ hb => hb
  · exact .tryCatch (.map (h.expandProgram document)) fun r => .map (h.fallBack document r)

/-- The blocks of a document keep every law of blocks. -/
theorem expandDocument (document : Json) :
    Ensures (expandDocument limits document) fun snapshot b =>
      ∀ block ∈ b.blocks, P snapshot block := by
  refine (h.dispatch document).bind fun found => .pure fun snapshot hf block hb => hf block ?_
  rw [blocks_assemble] at hb
  exact List.mem_of_mem_take hb

end BlockLaw

/-! ### The snapshot of the blocks -/

/-- Whether a snapshot that has an id has all blocks. -/
def Catalog.Snapshot.Covers (snapshot : Catalog.Snapshot) (blocks : List Block) : Prop :=
  snapshot.ids ≠ [] → snapshot.HasAll blocks

theorem ensures_readBlock (limits : Limits) (snapshot : Catalog.Snapshot) (index : Nat)
    (entry : Json) :
    Ensures (readBlock limits snapshot index entry) fun _ block =>
      snapshot.ids ≠ [] → block.blockType ∈ snapshot.ids := by
  refine (ensures_ofExcept fun _ _ => trivial).bind fun coordinates => ?_
  exact (ensures_blockFor _ _ _).bind fun blockType => .pure fun _ h _ => h

/-- The blocks of a program are of the snapshot that was current, and this stays current. -/
theorem ensures_expand (limits : Limits) (p : Program) :
    Ensures (p.expand limits) Catalog.Snapshot.Covers := by
  intro ledger
  let c := p.context limits ledger.store.current
  have hc := (execute_grows c c.maxLevels p.steps [] { ledger }).current
  have hp := fun hs => execute_placesFrom (c := c) rfl hs c.maxLevels p.steps [] { ledger }
  rw [Program.expand_eq, Program.run_eq]
  change (ofResult [] (p.outcome limits ledger)).state.ledger.store.current = _ at hc
  change _ → RunState.PlacesFrom _ _ (ofResult [] (p.outcome limits ledger)).state at hp
  cases ho : p.outcome limits ledger with
  | error r s => rw [ho] at hc; exact hc
  | ok u s =>
    rw [ho] at hc hp
    refine ⟨hc, fun hs => ?_⟩
    obtain ⟨placed, hplaced, hm⟩ := hp hs
    show ledger.store.current.HasAll s.output.toList
    rw [show s.output.toList = [] ++ placed from hplaced]
    exact hm

/-- Every block is of the snapshot, if this has an id. -/
theorem blockLaw_covers (limits : Limits) :
    BlockLaw limits fun snapshot block =>
      snapshot.ids ≠ [] → block.blockType ∈ snapshot.ids where
  entry := ensures_readBlock limits
  program p := (ensures_expand limits p).mono fun _ _ h block hb hs => h hs block hb

/-- **The blocks of a document are of the snapshot that was current**, and this stays current. -/
theorem ensures_expandDocument (limits : Limits) (document : Json) :
    Ensures (expandDocument limits document) fun snapshot b => snapshot.Covers b.blocks :=
  ((blockLaw_covers limits).expandDocument document).mono fun _ _ h hs block hb => h block hb hs

end VoxelBlueprint
