/-
# Every block is of the catalog

Whatever has happened to a store since its start, its current snapshot has an id, has none
twice, and all of them are canonical. Every type has a block in every snapshot that ever was
current. The blocks of a document are of the snapshot that is current when it is expanded; those
of a session are of the snapshot that was current at its last run, however the catalog was
replaced since. A replacement that is refused changes nothing.

Key theorems: `Session.sound_after`, `Session.placesFrom_after`, `Session.placesFrom_run`,
`Ledger.every_block_of_catalog`.
-/
import VoxelBlueprint.Proofs.Expansion.Sessions

namespace VoxelBlueprint

open Stage

namespace Session

variable {session : Session}

/-! ### The current snapshot -/

/-- Executions leave the current snapshot as it is, and everything else leaves it sound. -/
theorem sound_operate (h : session.state.ledger.store.current.Sound) (operation : Operation) :
    (session.operate operation).1.state.ledger.store.current.Sound := by
  cases operation with
  | run =>
    obtain ⟨s, hr, -, -, hs⟩ := session.operate_run
    rw [hr, hs, (execute_grows session.capturing _ _ [] session.state).current]
    exact h
  | execute depth steps scope =>
    rw [operate_execute, (execute_grows session.context _ steps scope session.state).current]
    exact h
  | setLimits limits => exact h
  | replaceCatalog values version source =>
    rw [operate_replaceCatalog]
    exact Ledger.sound_perform h _
  | elsewhere operation => exact Ledger.sound_perform h operation

theorem sound_after (operations : List Operation)
    (h : session.state.ledger.store.current.Sound) :
    (session.after operations).state.ledger.store.current.Sound := by
  induction operations generalizing session with
  | nil => exact h
  | cons operation operations ih => exact ih (sound_operate h operation)

/-! ### The snapshot of the last run -/

variable {snapshot : Catalog.Snapshot}

/-- Only a run takes another snapshot, and all else places blocks of the one that it has. -/
theorem placesFrom_operate (hc : session.context.captured = some snapshot)
    (hs : snapshot.ids ≠ []) {operation : Operation} (hr : operation ≠ .run) :
    (session.operate operation).1.context.captured = some snapshot ∧
      session.state.PlacesFrom snapshot (session.operate operation).1.state := by
  cases operation with
  | run => exact absurd rfl hr
  | execute depth steps scope =>
    rw [operate_execute]
    exact ⟨hc, execute_placesFrom hc hs _ steps scope session.state⟩
  | setLimits limits => exact ⟨hc, .of_output_eq rfl⟩
  | replaceCatalog values version source =>
    rw [operate_replaceCatalog]
    exact ⟨hc, .of_output_eq rfl⟩
  | elsewhere operation => exact ⟨hc, .of_output_eq rfl⟩

theorem placesFrom_after (hs : snapshot.ids ≠ []) {operations : List Operation}
    (hr : .run ∉ operations) (hc : session.context.captured = some snapshot) :
    (session.after operations).context.captured = some snapshot ∧
      session.state.PlacesFrom snapshot (session.after operations).state := by
  induction operations generalizing session with
  | nil => exact ⟨hc, .of_output_eq rfl⟩
  | cons operation operations ih =>
    obtain ⟨hc, hp⟩ := placesFrom_operate hc hs (List.ne_of_not_mem_cons hr).symm
    obtain ⟨hc, hp'⟩ := ih (List.not_mem_of_not_mem_cons hr) hc
    exact ⟨hc, hp.trans hp'⟩

/-- A run, and what follows it up to the next one, places blocks of the snapshot that was
current when it began. -/
theorem placesFrom_run (h : session.state.ledger.store.current.ids ≠ [])
    {operations : List Operation} (hr : .run ∉ operations) :
    let current := session.state.ledger.store.current
    let final := session.after (.run :: operations)
    final.context.captured = some current ∧ session.state.PlacesFrom current final.state := by
  intro current final
  obtain ⟨s, he, ho, -, -⟩ := session.operate_run
  have hp : session.state.PlacesFrom current (session.operate .run).1.state := by
    obtain ⟨placed, hplaced, hm⟩ :=
      execute_placesFrom (c := session.capturing) rfl h _ _ [] session.state
    rw [← ho] at hplaced
    rw [he]
    exact ⟨placed, hplaced, hm⟩
  have hc : (session.operate .run).1.context.captured = some current := by
    rw [he]
    rfl
  obtain ⟨hc, hp'⟩ := placesFrom_after h hr hc
  exact ⟨hc, hp.trans hp'⟩

end Session

namespace Ledger

/-- **Every block is of the catalog.** After any operations from the start, where `current` is
the snapshot that is current then:

* `current` is sound, its ids are what it supports, and its fallback is one of them;
* every value has a block in every snapshot that was current at some time;
* the blocks of a document are in `current`;
* in a session, whatever was done in it before, the blocks that are placed from a run on and
  before the next one are in the snapshot that was current when the run began;
* a replacement is refused if no value is usable and fails if one cannot be written, and changes
  nothing then. -/
theorem every_block_of_catalog (operations : List Operation) :
    let ledger := after operations
    let current := ledger.store.current
    (current.Sound ∧ (∀ id, current.supports id = true ↔ id ∈ current.ids) ∧
      current.fallback ∈ current.ids) ∧
    (∀ earlier, earlier <+: operations → ∀ (scope : Scope) (value : Json),
      let snapshot := (after earlier).store.current
      (ledger.blockFor snapshot scope value).1 ∈ snapshot.ids) ∧
    (∀ (limits : Limits) (document : Json) (b : Blueprint) (l : Ledger),
      expandDocument limits document ledger = .ok b l → current.HasAll b.blocks) ∧
    (∀ (program : Program) (limits : Limits) (before since : List Session.Operation),
      let session := Session.after ⟨{ program, limits }, { ledger }⟩ before
      let final := session.after (.run :: since)
      let snapshot := session.state.ledger.store.current
      .run ∉ since → snapshot.Sound ∧ final.context.captured = some snapshot ∧
        ∃ placed, final.state.output.toList = session.state.output.toList ++ placed ∧
          snapshot.HasAll placed) ∧
    (∀ (values : List Json) (version source : Option String) (failure : Failure),
      ledger.replaceCatalog values version source = .error failure →
        ((failure = .catalog .empty ∧ Catalog.usableIds values = []) ∨
          (failure = .longInteger ∧ ¬ ∀ value ∈ values, value.HasText)) ∧
        ledger.perform (.replace values version source) = ledger) := by
  intro ledger current
  have hs : current.Sound := sound_after operations
  refine ⟨⟨hs, Catalog.Snapshot.supports_iff, Catalog.Snapshot.fallback_mem hs.ids_ne_nil⟩,
    ?resolved, ?document, ?session, ?refused⟩
  case resolved =>
    intro earlier _ scope value
    exact Catalog.Snapshot.resolve_mem (sound_after earlier).ids_ne_nil _
  case document =>
    intro limits document b l he
    have h := ensures_expandDocument limits document ledger
    rw [he] at h
    exact h.2 hs.ids_ne_nil
  case session =>
    intro program limits before since session final snapshot hr
    have hsound : snapshot.Sound := Session.sound_after before hs
    exact ⟨hsound, Session.placesFrom_run hsound.ids_ne_nil hr⟩
  case refused =>
    intro values version source failure h
    exact ⟨replaceCatalog_eq_error h, perform_of_refused h⟩

/-- A catalog of planks, and one without a block, which is refused. -/
def planksOnly : List Operation :=
  [.replace [.str "Oak Planks", .null, .str "oak-planks"] none none, .replace [.str " "] none none]

/-- A block of no catalog here. -/
def slab : Step := .place (.int 0) (.int 0) (.int 0) (.str "Granite")

/-- A block, wherever the variable is, of the type that another one names. -/
def inlay : Step := .place (.str "at") (.int 1) (.int 0) (.str "$stone")

/-- The scope in which the inlay is placed. -/
def inlayScope : Scope := [("at", .int 2), ("stone", .str "Granite")]

/-- The same block in a list. -/
def slabList : Json :=
  .obj [("blocks", .arr
    [.obj [("x", .int 0), ("y", .int 0), ("z", .int 0), ("blockType", .str "Granite")]])]

theorem every_block_of_catalog_planks :
    let ledger := after planksOnly
    let session := Session.after ⟨{ program := { steps := [slab] } }, { ledger }⟩ []
    let final := session.after
      [.run, .replaceCatalog [.str "brick"] none none, .execute 3 [inlay] inlayScope]
    ledger.store.current.ids = ["minecraft:oak_planks"] ∧
    (ledger.blockFor (after []).store.current [] (.str "Granite")).1 ∈
      (after []).store.current.ids ∧
    (∃ b l, expandDocument {} slabList ledger = .ok b l ∧ ledger.store.current.HasAll b.blocks) ∧
    (final.state.output.size = 2 ∧
      ∃ placed, final.state.output.toList = session.state.output.toList ++ placed ∧
        session.state.ledger.store.current.HasAll placed) ∧
    ledger.perform (.replace [.null] none none) = ledger := by
  have built : expandDocument {} slabList (after planksOnly) =
      .ok { blocks := [⟨0, 0, 0, "minecraft:oak_planks"⟩], layout := some .blockList }
        { store := { current := ⟨["minecraft:oak_planks"], "unknown", "runtime", 1⟩, next := 2,
                     reported := [(1, "minecraft:granite")] }
          journal := [.catalogLoaded "unknown" "runtime" 1,
            .blockReplaced "minecraft:granite" "runtime" "unknown" "minecraft:oak_planks"] } := by
    decide +kernel
  obtain ⟨-, resolved, document, sessions, refused⟩ := every_block_of_catalog planksOnly
  have ofPlanks := sessions { steps := [slab] } {} []
    [.replaceCatalog [.str "brick"] none none, .execute 3 [inlay] inlayScope] (by simp)
  exact ⟨by decide +kernel, resolved [] List.nil_prefix _ _,
    ⟨_, _, built, document _ _ _ _ built⟩, ⟨by decide +kernel, ofPlanks.2.2⟩,
    (refused [.null] none none (.catalog .empty) rfl).2⟩

end Ledger
end VoxelBlueprint
