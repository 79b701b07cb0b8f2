/-
# What a document asks of the catalog

Which ids a document asks the current snapshot for: those of the entries of its list up to the
first one whose coordinates cannot be had, or those that the run of its program asks for, and if
the program is rejected and the list stands in for it, those of the list as well. The expansion
reports what it asks for, whether it ends well or is rejected on the way.

Key definitions: `entryAsks`, `blockListAsks`, `DocumentAsks`.
Key theorems: `reports_expandBlockList`, `reports_expand`, `reports_expandDocument`.
-/
import VoxelBlueprint.Proofs.Execution.Reports
import VoxelBlueprint.Proofs.Expansion.Histories

namespace VoxelBlueprint

open Effects Ledger

/-! ### Asks -/

/-- The ids for which entries ask, the first of which has the given index. -/
def entryAsks (limits : Limits) : Nat → List Json → List String
  | _, [] => []
  | index, entry :: rest =>
    match entryCoordinates limits index entry with
    | .ok _ => Catalog.requestedId [] (entry.field "blockType") :: entryAsks limits (index + 1) rest
    | .error _ => []

/-- The ids for which the list of blocks of a document asks. -/
def blockListAsks (limits : Limits) (document : Json) : List String :=
  match document.field "blocks" with
  | .arr entries => entryAsks limits 0 (entries.take limits.maxBlocks.toNat)
  | _ => []

/-- Whether a document asks for an id when it is expanded. -/
inductive DocumentAsks (limits : Limits) (document : Json) (ledger : Ledger) (id : String) : Prop
  | program {p : Program} {l : Ledger} : Layout.of document = .ok (some .program) →
    readProgram document ledger = .ok p l → p.Asks limits l id →
    DocumentAsks limits document ledger id
  | blockList : Layout.of document = .ok (some .blockList) → id ∈ blockListAsks limits document →
    DocumentAsks limits document ledger id
  | fallBack {r : Rejection} {l : Ledger} : Layout.of document = .ok (some .program) →
    expandProgram limits document ledger = .error r l → Document.hasBlockList document = true →
    id ∈ blockListAsks limits document → DocumentAsks limits document ledger id

variable (limits : Limits)

/-! ### Lists of blocks -/

theorem reports_readBlocks (snapshot : Catalog.Snapshot) :
    ∀ (entries : List Json) (index : Nat) (ledger : Ledger),
      Reports snapshot (· ∈ entryAsks limits index entries) ledger
        ((readBlocks limits snapshot index entries).ledgerAfter ledger)
  | [], _, ledger => (Reports.refl snapshot ledger).congr fun id => by simp [entryAsks]
  | entry :: entries, index, ledger => by
    unfold Expansion.ledgerAfter entryAsks
    rw [readBlocks_cons]
    cases entryCoordinates limits index entry with
    | error r => exact (Reports.refl snapshot ledger).congr fun id => by simp
    | ok place =>
      have hfirst := Reports.blockFor snapshot [] (entry.field "blockType") ledger
      have hrest := reports_readBlocks snapshot entries (index + 1)
        (ledger.blockFor snapshot [] (entry.field "blockType")).2
      have hall := (hfirst.trans hrest).congr fun id => List.mem_cons.symm
      unfold Expansion.ledgerAfter at hall
      dsimp only
      cases hr : readBlocks limits snapshot (index + 1) entries
        (ledger.blockFor snapshot [] (entry.field "blockType")).2 with
      | ok blocks l => rw [hr] at hall; exact hall
      | error r l => rw [hr] at hall; exact hall

theorem reports_expandBlockList (document : Json) (ledger : Ledger) :
    Reports ledger.store.current (· ∈ blockListAsks limits document) ledger
      ((expandBlockList limits document).ledgerAfter ledger) := by
  have nothing (r : Rejection) : Reports ledger.store.current (· ∈ ([] : List String)) ledger
      ((throw r : Expansion (List Block)).ledgerAfter ledger) :=
    (Reports.refl _ ledger).congr fun id => by simp
  unfold expandBlockList blockListAsks
  cases document.field "blocks" with
  | arr entries => exact reports_readBlocks limits ledger.store.current _ 0 ledger
  | null | bool | int | float | str | obj => exact nothing _

/-! ### Programs -/

theorem reports_expand (p : Program) (ledger : Ledger) :
    Reports ledger.store.current (p.Asks limits ledger) ledger
      ((p.expand limits).ledgerAfter ledger) := by
  have h := p.reports_outcome limits ledger
  unfold Expansion.ledgerAfter
  rw [Program.expand_eq, Program.run_eq]
  cases ho : p.outcome limits ledger with
  | error r s =>
    rw [ho] at h
    exact h
  | ok u s =>
    rw [ho] at h
    exact (h.trans (.record _ s.ledger s.endEvent rfl)).congr fun id => by simp

theorem reports_readProgram (document : Json) (ledger : Ledger) :
    Reports ledger.store.current (fun _ => False) ledger
      ((readProgram document).ledgerAfter ledger) := by
  unfold readProgram
  split
  · exact .refl _ ledger
  · split
    · exact .record _ ledger _ rfl
    · exact .refl _ ledger

theorem reports_expandProgram (document : Json) (ledger : Ledger) :
    Reports ledger.store.current
      (fun id => ∃ p l, readProgram document ledger = .ok p l ∧ p.Asks limits l id) ledger
      ((expandProgram limits document).ledgerAfter ledger) := by
  have hread := reports_readProgram document ledger
  unfold Expansion.ledgerAfter at hread ⊢
  rw [expandProgram, bind_apply]
  cases hr : readProgram document ledger with
  | error r l =>
    rw [hr] at hread
    exact hread.congr fun id => by simp
  | ok p l =>
    rw [hr] at hread
    have hrun := reports_expand limits p l
    rw [hread.current] at hrun
    refine (hread.trans hrun).congr fun id => ?_
    simp

/-! ### Documents -/

theorem reports_fallBack (document : Json) (r : Rejection) (ledger : Ledger) :
    Reports ledger.store.current
      (fun id => Document.hasBlockList document = true ∧ id ∈ blockListAsks limits document) ledger
      ((fallBack limits document r).ledgerAfter ledger) := by
  unfold fallBack
  cases Document.hasBlockList document with
  | false => exact (Reports.refl _ ledger).congr fun id => by simp
  | true =>
    have hrecord := Reports.record ledger.store.current ledger (.fellBack r) rfl
    have hlist := reports_expandBlockList limits document (ledger.record (.fellBack r))
    exact (hrecord.trans hlist).congr fun id => by simp

/-- What a document with a program asks for comes from its program, or from the list that stands in
for it. -/
theorem reports_dispatch_program {document : Json}
    (hd : Layout.of document = .ok (some .program)) (ledger : Ledger) :
    Reports ledger.store.current (DocumentAsks limits document ledger) ledger
      ((dispatch limits document).ledgerAfter ledger) := by
  have hp := reports_expandProgram limits document ledger
  unfold Expansion.ledgerAfter at hp ⊢
  rw [dispatch_program hd]
  cases hr : expandProgram limits document ledger with
  | ok blocks l =>
    rw [hr] at hp
    refine hp.congr fun id => ⟨fun ⟨p, l, hl, ha⟩ => .program hd hl ha, fun ha => ?_⟩
    cases ha with
    | program _ hl ha => exact ⟨_, _, hl, ha⟩
    | blockList hb => rw [hd] at hb; cases hb
    | fallBack _ he => rw [hr] at he; cases he
  | error r l =>
    rw [hr] at hp
    have hf := reports_fallBack limits document r l
    rw [hp.current] at hf
    have hboth : Reports ledger.store.current (DocumentAsks limits document ledger) ledger
        ((fallBack limits document r).ledgerAfter l) := by
      refine (hp.trans hf).congr fun id => ⟨?_, fun ha => ?_⟩
      · rintro (⟨p, l, hl, ha⟩ | ⟨hb, hm⟩)
        · exact .program hd hl ha
        · exact .fallBack hd hr hb hm
      · cases ha with
        | program _ hl ha => exact .inl ⟨_, _, hl, ha⟩
        | blockList hb => rw [hd] at hb; cases hb
        | fallBack _ _ hb hm => exact .inr ⟨hb, hm⟩
    unfold Expansion.ledgerAfter at hboth
    dsimp only at hboth ⊢
    cases hk : fallBack limits document r l <;> rw [hk] at hboth <;> exact hboth

theorem reports_dispatch_blockList {document : Json}
    (hd : Layout.of document = .ok (some .blockList)) (ledger : Ledger) :
    Reports ledger.store.current (DocumentAsks limits document ledger) ledger
      ((dispatch limits document).ledgerAfter ledger) := by
  have hlist : Reports ledger.store.current (DocumentAsks limits document ledger) ledger
      ((expandBlockList limits document).ledgerAfter ledger) := by
    refine (reports_expandBlockList limits document ledger).congr fun id =>
      ⟨.blockList hd, fun ha => ?_⟩
    cases ha with
    | program hp | fallBack hp => rw [hd] at hp; cases hp
    | blockList _ hm => exact hm
  unfold Expansion.ledgerAfter at hlist ⊢
  rw [dispatch_blockList hd]
  cases hr : expandBlockList limits document ledger <;> rw [hr] at hlist <;> exact hlist

/-- What is no document of any layout asks for nothing. -/
theorem not_documentAsks {document : Json} (h : ∀ layout, Layout.of document ≠ .ok (some layout))
    (ledger : Ledger) (id : String) : ¬ DocumentAsks limits document ledger id := by
  intro ha
  cases ha with
  | program hd | fallBack hd => exact h _ hd
  | blockList hd => exact h _ hd

/-- **A document reports what it asks for**, where the current snapshot lacks it. -/
theorem reports_expandDocument (document : Json) (ledger : Ledger) :
    Reports ledger.store.current (DocumentAsks limits document ledger) ledger
      ((expandDocument limits document).ledgerAfter ledger) := by
  have hd : (expandDocument limits document).ledgerAfter ledger =
      (dispatch limits document).ledgerAfter ledger := by
    unfold Expansion.ledgerAfter
    rw [expandDocument_apply]
    cases dispatch limits document ledger <;> rfl
  rw [hd]
  have nothing (h : ∀ layout, Layout.of document ≠ .ok (some layout)) :
      Reports ledger.store.current (DocumentAsks limits document ledger) ledger ledger :=
    (Reports.refl _ ledger).congr fun id => by simp [not_documentAsks limits h]
  cases hl : Layout.of document with
  | error m =>
    rw [dispatch, hl]
    exact nothing fun layout h => by rw [hl] at h; cases h
  | ok layout =>
    cases layout with
    | none =>
      rw [dispatch, hl]
      exact nothing fun layout h => by rw [hl] at h; cases h
    | some layout =>
      cases layout with
      | blockList => exact reports_dispatch_blockList limits hl ledger
      | program => exact reports_dispatch_program limits hl ledger

end VoxelBlueprint
