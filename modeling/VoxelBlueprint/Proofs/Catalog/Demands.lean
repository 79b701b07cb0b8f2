/-
# What is demanded of a catalog

A block is demanded by its place and by the canonical id of its type, and both are known
before any catalog is looked at. A snapshot meets a demand with a block at that place: of
the type that was demanded if the snapshot has it, and of its fallback otherwise. To meet a
demand is no more than to report, the first time, that the snapshot lacks the type.

Key definitions: `Demand`, `Demand.blockIn`, `Ledger.Resembles`.
Key theorems: `Demand.blockIn_of`, `Catalog.Store.reportedIn_report`,
`Ledger.Resembles.blockFor`.
-/
import VoxelBlueprint.Blueprint
import VoxelBlueprint.Catalog.Ledger
import VoxelBlueprint.Proofs.Catalog.Snapshot
import VoxelBlueprint.Proofs.Execution.State

namespace VoxelBlueprint

/-! ### Demands -/

/-- A block that is demanded: its place and the canonical id of its type. -/
structure Demand where
  x : Int
  y : Int
  z : Int
  id : String
  canonical_id : Catalog.canonical (.str id) = id

/-- What a value asks for in a scope is a canonical id. -/
theorem Catalog.canonical_requestedId (scope : Scope) (value : Json) :
    canonical (.str (requestedId scope value)) = requestedId scope value := by
  unfold requestedId
  split <;> exact canonical_canonical _

namespace Demand

/-- The demand for a block at a place, of the type that a value asks for in a scope. -/
def of (scope : Scope) (place : Int × Int × Int) (blockType : Json) : Demand where
  x := place.1
  y := place.2.1
  z := place.2.2
  id := Catalog.requestedId scope blockType
  canonical_id := Catalog.canonical_requestedId scope blockType

/-- The block with which a snapshot meets a demand. -/
def blockIn (snapshot : Catalog.Snapshot) (d : Demand) : Block where
  x := d.x
  y := d.y
  z := d.z
  blockType := if d.id ∈ snapshot.ids then d.id else snapshot.fallback

theorem blockIn_of (snapshot : Catalog.Snapshot) (scope : Scope) (place : Int × Int × Int)
    (blockType : Json) : (Demand.of scope place blockType).blockIn snapshot =
      { x := place.1, y := place.2.1, z := place.2.2,
        blockType := snapshot.resolve (Catalog.requestedId scope blockType) } := by
  unfold blockIn of Catalog.Snapshot.resolve
  by_cases h : Catalog.requestedId scope blockType ∈ snapshot.ids
  · simp only [if_pos h, if_pos ((Catalog.Snapshot.supports_iff _).mpr h)]
  · simp only [if_neg h, if_neg (mt (Catalog.Snapshot.supports_iff _).mp h)]

/-- The labels of a snapshot do not matter to how it meets a demand. -/
theorem blockIn_of_ids {snapshot snapshot' : Catalog.Snapshot} (h : snapshot.ids = snapshot'.ids)
    (d : Demand) : d.blockIn snapshot = d.blockIn snapshot' := by
  unfold blockIn
  rw [Catalog.Snapshot.fallback_congr h, h]

end Demand

/-! ### Ledgers that differ in their reports -/

namespace Catalog.Store

variable (store : Store) (snapshot : Snapshot) (id : String)

theorem next_report : (store.report snapshot id).1.next = store.next := by
  unfold report
  split <;> rfl

/-- What is reported of a snapshot says nothing of others. -/
theorem reportedIn_report {other : Snapshot} (h : other.generation ≠ snapshot.generation) :
    (store.report snapshot id).1.reportedIn other = store.reportedIn other := by
  unfold report
  split
  · rfl
  · simp only [reportedIn, List.filter_cons, h.symm, decide_false, Bool.false_eq_true, if_false]

end Catalog.Store

/-- Whether two ledgers are the same but for their journals and for what was reported of the
snapshot that is current. -/
structure Ledger.Resembles (l start : Ledger) : Prop where
  current : l.store.current = start.store.current
  next : l.store.next = start.store.next
  reported : ∀ snapshot : Catalog.Snapshot,
    snapshot.generation ≠ start.store.current.generation →
      l.store.reportedIn snapshot = start.store.reportedIn snapshot

namespace Ledger.Resembles

variable {l l' start : Ledger}

theorem refl (l : Ledger) : l.Resembles l :=
  ⟨rfl, rfl, fun _ _ => rfl⟩

theorem symm (h : l.Resembles l') : l'.Resembles l :=
  ⟨h.current.symm, h.next.symm, fun snapshot hs =>
    (h.reported snapshot (by rwa [← h.current])).symm⟩

theorem trans (h : l.Resembles l') (h' : l'.Resembles start) : l.Resembles start :=
  ⟨h.current.trans h'.current, h.next.trans h'.next, fun snapshot hs =>
    (h.reported snapshot (by rwa [h'.current])).trans (h'.reported snapshot hs)⟩

/-- What is recorded makes no difference. -/
theorem record (h : l.Resembles start) (event : Event) : (l.record event).Resembles start :=
  ⟨h.current, h.next, h.reported⟩

/-- A demand that the current snapshot meets changes nothing but its reports. -/
theorem blockFor (h : l.Resembles start) (scope : Scope) (value : Json) :
    (l.blockFor start.store.current scope value).2.Resembles start where
  current := (RunState.current_report _ _ _).trans h.current
  next := (Catalog.Store.next_report _ _ _).trans h.next
  reported snapshot hs :=
    (Catalog.Store.reportedIn_report _ _ _ hs).trans (h.reported snapshot hs)

end Ledger.Resembles
end VoxelBlueprint
