/-
# The catalog store

The store owns the current snapshot and remembers, for every snapshot there was,
which block types it lacked have been reported. A catalog is replaced as a whole:
the new snapshot has a number of its own, so nothing has been reported of it yet,
and whoever holds an older one can go on with it.

Key definitions: `Catalog.Store`, `Catalog.Store.replace`, `Catalog.Store.reset`,
`Catalog.requestedId`, `Catalog.Store.report`.
-/
import VoxelBlueprint.Catalog.Snapshot
import VoxelBlueprint.Event
import VoxelBlueprint.Expression.Scope

namespace VoxelBlueprint
namespace Catalog

/-- The current snapshot, the number for the next one, and what was reported. -/
structure Store where
  current : Snapshot := .ofPalette 0
  next : Nat := 1
  /-- The numbers of snapshots with the ids that were reported as lacking in them. -/
  reported : List (Nat × String) := []

/-- The label, unless it is missing or empty. -/
def labelOr (label : Option String) (default : String) : String :=
  match label with
  | none | some "" => default
  | some label => label

namespace Store

/-- The store with the palette as its catalog again. -/
def reset (store : Store) : Store :=
  { store with current := .ofPalette store.next, next := store.next + 1 }

/-- The store with a new catalog, which must have a usable id. -/
def replace (store : Store) (values : List Json) (version source : Option String) :
    Except Failure Store := do
  let snapshot ←
    Snapshot.build store.next values (labelOr version "unknown") (labelOr source "runtime")
  if snapshot.ids.isEmpty then throw (.catalog .empty)
  return { store with current := snapshot, next := store.next + 1 }

/-- The event of the current catalog having been loaded. -/
def loadedEvent (store : Store) : Event :=
  .catalogLoaded store.current.version store.current.source store.current.ids.length

/-- The ids that were reported as lacking in a snapshot. -/
def reportedIn (store : Store) (snapshot : Snapshot) : List String :=
  (store.reported.filter (·.1 = snapshot.generation)).map (·.2)

/-- Reports an id that a snapshot lacks, unless that was done before. -/
def report (store : Store) (snapshot : Snapshot) (id : String) : Store × List Event :=
  if snapshot.supports id || store.reported.contains (snapshot.generation, id) then (store, [])
  else
    ({ store with reported := (snapshot.generation, id) :: store.reported },
      [.blockReplaced id snapshot.source snapshot.version snapshot.fallback])

end Store

/-- The canonical id that a value asks for. A string that is the name of a binding
stands for what it is bound to. -/
def requestedId (scope : Scope) (value : Json) : String :=
  match value with
  | .str text => canonical ((scope.reference? text).getD value)
  | _ => canonical value

end Catalog
end VoxelBlueprint
