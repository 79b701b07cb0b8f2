/-
# A document demands the same blocks of every catalog

Whether a document is expanded or rejected, and for what reason, in which layout it is read,
how many blocks it comes to and where they stand: none of this depends on the catalog, nor
does the type that is demanded for each block. The catalog only meets the demands, one by
one. What was reported before makes no difference either.

Key definitions: `Expansion.Oblivious`, `Expansion.SameEnd`, `Demand.meet`, `Demand.blueprint`.
Key theorems: `Expansion.Oblivious.sameEnd`, `expandBlockList_oblivious`, `expandProgram_oblivious`,
`expandDocument_oblivious`, `expandDocument_meets_demands`.
-/
import VoxelBlueprint.Proofs.Execution.Drafts
import VoxelBlueprint.Proofs.Expansion.Documents

namespace VoxelBlueprint

open Effects

/-- The blocks with which the snapshot that is current at the start meets demands. -/
def Demand.meet (start : Ledger) (demands : List Demand) : List Block :=
  demands.map (·.blockIn start.store.current)

/-- These blocks with the layout from which the demands were read. -/
def Demand.meetFound (start : Ledger) (found : List Demand × Layout) : List Block × Layout :=
  (meet start found.1, found.2)

/-- The blueprint of these blocks under a ceiling. -/
def Demand.blueprint (ceiling : Int) (start : Ledger) (found : List Demand × Layout) : Blueprint :=
  .assemble (meet start found.1) ceiling (some found.2)

/-- Whether work on a ledger is the same whatever the catalog is, and whatever was recorded and
reported of the current snapshot before. -/
abbrev Expansion.Oblivious {α β : Type} (render : Ledger → β → α) (x : Ledger → Expansion α) :
    Prop :=
  Effects.Oblivious (fun start (_ : Unit) l => l.Resembles start) render x

/-- Whether two pieces of work end in the same way, in ledgers that differ in nothing but what was
recorded, and reported of the current snapshot. -/
inductive Expansion.SameEnd {α : Type} :
    EStateM.Result Rejection Ledger α → EStateM.Result Rejection Ledger α → Prop
  | ok {a : α} {l l' : Ledger} : l.Resembles l' → SameEnd (.ok a l) (.ok a l')
  | error {r : Rejection} {l l' : Ledger} : l.Resembles l' → SameEnd (.error r l) (.error r l')

namespace Expansion.Oblivious

variable {α β : Type} {render : Ledger → β → α} {x : Expansion α}

/-- From ledgers that resemble one another the work ends in the same way. -/
theorem sameEnd (h : Expansion.Oblivious render fun _ => x) {l l' : Ledger} (hl : l.Resembles l') :
    SameEnd (x l) (x l') := by
  obtain ⟨view, hv⟩ := h ()
  have hx : Shows (fun _ k => k.Resembles l') (render l') view (x l) := hv l' l hl
  have hx' : Shows (fun _ k => k.Resembles l') (render l') view (x l') := hv l' l' (.refl l')
  rcases hx.both hx' with ⟨b, _, k, k', ha, ha', hk, hk'⟩ | ⟨r, _, k, k', ha, ha', hk, hk'⟩
  · rw [ha, ha']
    exact .ok (hk.trans hk'.symm)
  · rw [ha, ha']
    exact .error (hk.trans hk'.symm)

/-- Work that is rejected leaves a ledger that resembles the first one. -/
theorem resembles_of_error (h : Expansion.Oblivious render fun _ => x) {ledger l : Ledger}
    {r : Rejection} (hx : x ledger = .error r l) : l.Resembles ledger := by
  obtain ⟨view, hv⟩ := h ()
  have hs : Shows (fun _ k => k.Resembles ledger) (render ledger) view (x ledger) :=
    hv ledger ledger (.refl ledger)
  rw [hx] at hs
  cases hs with
  | error hl => exact hl

end Expansion.Oblivious

variable (limits : Limits)

theorem record_oblivious (event : Event) :
    Expansion.Oblivious (fun _ => id) fun _ => (modify (·.record event) : Expansion PUnit) :=
  .update id fun _ _ _ hl => hl.record event

/-! ### Lists of blocks -/

/-- An entry demands one block. -/
theorem readBlock_oblivious (index : Nat) (entry : Json) :
    Expansion.Oblivious (fun start d => Demand.blockIn start.store.current d) fun start =>
      readBlock limits start.store.current index entry := by
  unfold readBlock
  refine Oblivious.bind (.ofExcept (entryCoordinates limits index entry)) fun place v => ?_
  refine ⟨.ok (.of [] place (entry.field "blockType")) v, fun start l hl => ?_⟩
  have hb := Demand.blockIn_of start.store.current [] place (entry.field "blockType")
  show Shows _ _ _ (.ok
    ({ x := place.1, y := place.2.1, z := place.2.2,
       blockType := start.store.current.resolve
        (Catalog.requestedId [] (entry.field "blockType")) } : Block)
    (l.blockFor start.store.current [] (entry.field "blockType")).2)
  rw [← hb]
  exact .ok (hl.blockFor [] (entry.field "blockType"))

theorem readBlocks_oblivious (entries : List Json) : ∀ index : Nat,
    Expansion.Oblivious Demand.meet fun start =>
      readBlocks limits start.store.current index entries := by
  induction entries with
  | nil => exact fun _ => .pure Demand.meet []
  | cons entry entries ih =>
    intro index
    unfold readBlocks
    refine Oblivious.bind (readBlock_oblivious limits index entry) fun d => ?_
    refine Oblivious.bind (ih (index + 1)) fun demands => ?_
    exact .pure Demand.meet (d :: demands)

theorem expandBlockList_oblivious (document : Json) :
    Expansion.Oblivious Demand.meet fun _ => expandBlockList limits document := by
  unfold expandBlockList
  split
  · rename_i entries _
    intro v
    obtain ⟨view, h⟩ := readBlocks_oblivious limits (entries.take limits.maxBlocks.toNat) 0 v
    refine ⟨view, fun start l hl => ?_⟩
    have hs := h start l hl
    simp only [get_bind_apply, hl.current]
    exact hs
  · exact .throw _

/-! ### Programs -/

theorem expand_oblivious (p : Program) :
    Expansion.Oblivious Demand.meet fun _ => p.expand limits := by
  intro v
  obtain ⟨view, h⟩ := p.run_oblivious limits
  cases view with
  | error r d =>
    refine ⟨.error r v, fun start l hl => ?_⟩
    obtain ⟨s, hr, hs⟩ := (h start l hl).exists_error
    simp only [Program.expand_eq, hr]
    exact .error hs.ledger
  | ok u d =>
    refine ⟨.ok d.demands v, fun start l hl => ?_⟩
    obtain ⟨s, hr, hs⟩ := (h start l hl).exists_ok
    have hb : s.output.toList = Demand.meet start d.demands := hs.output
    simp only [Program.expand_eq, hr, hb]
    exact .ok hs.ledger

theorem readProgram_oblivious (document : Json) :
    Expansion.Oblivious (fun _ => id) fun _ => readProgram document := by
  have done (p : Program) :
      Expansion.Oblivious (fun _ => id) fun _ => (pure p : Expansion Program) :=
    .pure (fun _ => id) p
  unfold readProgram
  cases Program.read document with
  | error malformation => exact .throw _
  | ok p =>
    dsimp only
    by_cases hp : !p.redefined.isEmpty
    · simp only [if_pos hp]
      exact Oblivious.bind (record_oblivious _) fun _ => done p
    · simp only [if_neg hp]
      exact done p

theorem expandProgram_oblivious (document : Json) :
    Expansion.Oblivious Demand.meet fun _ => expandProgram limits document :=
  Oblivious.bind (readProgram_oblivious document) (expand_oblivious limits)

/-! ### Documents -/

theorem fallBack_oblivious (document : Json) (r : Rejection) :
    Expansion.Oblivious Demand.meet fun _ => fallBack limits document r := by
  unfold fallBack
  split
  · exact Oblivious.bind (record_oblivious _) fun _ => expandBlockList_oblivious limits document
  · exact .throw r

theorem dispatch_oblivious (document : Json) :
    Expansion.Oblivious Demand.meetFound fun _ => dispatch limits document := by
  unfold dispatch
  split
  · exact .throw _
  · exact .throw _
  · exact Oblivious.bind (expandBlockList_oblivious limits document) fun demands =>
      .pure Demand.meetFound (demands, Layout.blockList)
  · exact .tryCatch (.map (g := (·, Layout.program)) (expandProgram_oblivious limits document)
        fun _ _ => rfl)
      fun r => .map (g := (·, Layout.blockList)) (fallBack_oblivious limits document r)
        fun _ _ => rfl

/-- The expansion of a document is the same whatever the catalog is, up to the blocks with which
the demands are met. -/
theorem expandDocument_oblivious (document : Json) :
    Expansion.Oblivious (Demand.blueprint limits.maxBlocks) fun _ =>
      expandDocument limits document := by
  unfold expandDocument
  refine Oblivious.bind (dispatch_oblivious limits document) fun found => ?_
  exact .pure (Demand.blueprint limits.maxBlocks) found

/-- Of the blocks that meet demands those are cut off that meet the last ones. -/
theorem Demand.blueprint_eq (ceiling : Int) (start : Ledger) (found : List Demand × Layout) :
    blueprint ceiling start found =
      { blocks := (found.1.take ceiling.toNat).map (·.blockIn start.store.current)
        truncatedFrom := if ceiling.toNat < found.1.length then some found.1.length else none
        layout := some found.2 } := by
  have hl : (meet start found.1).length = found.1.length := List.length_map ..
  unfold blueprint Blueprint.assemble
  rw [hl]
  by_cases h : ceiling.toNat < found.1.length
  · rw [if_pos h, if_pos h, meet, List.map_take]
  · rw [if_neg h, if_neg h, List.take_of_length_le (Nat.not_lt.mp h)]
    rfl

/-- **The catalog decides nothing but the types of blocks, each for itself.** A document is
rejected for the same reason whatever the catalog is, or with every catalog it comes to a
blueprint of the same layout. Then it makes the same demands of all catalogs, in the same order,
each for a block at a place and of a canonical type, and the block that a catalog gives is there
and of this type if the catalog has it, or else of the fallback of the catalog. -/
theorem expandDocument_meets_demands (limits : Limits) (document : Json) :
    (∃ r, ∀ ledger, ∃ l, expandDocument limits document ledger = .error r l) ∨
    ∃ (demands : List Demand) (layout : Layout) (truncatedFrom : Option Nat), ∀ ledger, ∃ l,
      expandDocument limits document ledger =
        .ok
          { blocks := demands.map (·.blockIn ledger.store.current)
            truncatedFrom
            layout := some layout } l := by
  obtain ⟨view, h⟩ := expandDocument_oblivious limits document ()
  cases view with
  | error r v =>
    refine .inl ⟨r, fun ledger => ?_⟩
    obtain ⟨l, hl, -⟩ := (h ledger ledger (.refl ledger)).exists_error
    exact ⟨l, hl⟩
  | ok found v =>
    refine .inr ⟨found.1.take limits.maxBlocks.toNat, found.2,
      if limits.maxBlocks.toNat < found.1.length then some found.1.length else none,
      fun ledger => ?_⟩
    obtain ⟨l, hl, -⟩ := (h ledger ledger (.refl ledger)).exists_ok
    have hb := Demand.blueprint_eq limits.maxBlocks ledger found
    exact ⟨l, hl.trans (congrArg (EStateM.Result.ok · l) hb)⟩

end VoxelBlueprint
