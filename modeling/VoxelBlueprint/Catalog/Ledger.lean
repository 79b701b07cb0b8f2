/-
# The ledger

A catalog store together with the journal of what happened, oldest first. Whatever
is done to the catalog, or needs it, is done on a ledger.

Key definitions: `Ledger`, `Ledger.blockFor`, `Ledger.replaceCatalog`,
`Ledger.resetCatalog`.
-/
import VoxelBlueprint.Catalog.Store

namespace VoxelBlueprint

/-- A catalog store and the events so far. -/
structure Ledger where
  store : Catalog.Store := {}
  journal : List Event := []

namespace Ledger

/-- The ledger with one more event. -/
def record (ledger : Ledger) (event : Event) : Ledger :=
  { ledger with journal := ledger.journal ++ [event] }

/-- The block of a snapshot for the block type that a value asks for in a scope. -/
def blockFor (snapshot : Catalog.Snapshot) (scope : Scope) (value : Json) (ledger : Ledger) :
    String × Ledger :=
  let id := Catalog.requestedId scope value
  let (store, events) := ledger.store.report snapshot id
  (snapshot.resolve id, { store, journal := ledger.journal ++ events })

/-- Replaces the catalog. -/
def replaceCatalog (ledger : Ledger) (values : List Json) (version source : Option String) :
    Except Failure Ledger := do
  let store ← ledger.store.replace values version source
  return { ledger with store }.record store.loadedEvent

/-- Goes back to the palette. -/
def resetCatalog (ledger : Ledger) : Ledger :=
  { ledger with store := ledger.store.reset }

end Ledger
end VoxelBlueprint
