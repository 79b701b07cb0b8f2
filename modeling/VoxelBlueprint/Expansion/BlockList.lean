/-
# Documents with a list of blocks

Each entry of the list describes one block. There are no loops, calls or names, so
coordinates and block types are evaluated in the empty scope. Entries for which
there is no room are not looked at.

Key definitions: `readBlock`, `readBlocks`, `expandBlockList`.
-/
import VoxelBlueprint.Blueprint
import VoxelBlueprint.Expansion.Basic
import VoxelBlueprint.Expansion.Value

namespace VoxelBlueprint

/-- The coordinates of the block that the entry at an index describes. -/
def entryCoordinates (limits : Limits) (index : Nat) (entry : Json) :
    Except Rejection (Int × Int × Int) :=
  let path := [.field "blocks", .index index]
  if entry.isObject then
    coordinatesAt limits [] path (entry.field "x") (entry.field "y") (entry.field "z")
  else .error (.malformed ⟨.blockNotObject, path⟩)

/-- The block that the entry at an index describes. -/
def readBlock (limits : Limits) (snapshot : Catalog.Snapshot) (index : Nat) (entry : Json) :
    Expansion Block := do
  let (x, y, z) ← MonadExcept.ofExcept (entryCoordinates limits index entry)
  let blockType ← modifyGet (·.blockFor snapshot [] (entry.field "blockType"))
  return { x, y, z, blockType }

/-- The blocks that entries describe, the first of which has the given index. -/
def readBlocks (limits : Limits) (snapshot : Catalog.Snapshot) : Nat → List Json →
    Expansion (List Block)
  | _, [] => pure []
  | index, entry :: rest => do
    let block ← readBlock limits snapshot index entry
    let blocks ← readBlocks limits snapshot (index + 1) rest
    return block :: blocks

/-- The blocks of a document with a list of blocks. -/
def expandBlockList (limits : Limits) (document : Json) : Expansion (List Block) := do
  match document.field "blocks" with
  | .arr entries =>
    readBlocks limits (← get).store.current 0 (entries.take limits.maxBlocks.toNat)
  | _ => throw (.malformed ⟨.noBlockList, [.field "blocks"]⟩)

end VoxelBlueprint
