/-
# Blueprints

The blocks that a document comes to, in the order in which they are to be placed,
and how they are handed over: at most as many as the ceiling on blocks allows, and
on demand in chunks of equal size.

Key definitions: `Block`, `Blueprint`, `Blueprint.assemble`, `Blueprint.chunks`.
-/
import VoxelBlueprint.Document
import VoxelBlueprint.Failure

namespace VoxelBlueprint

/-- A block at a place relative to the origin of the build. -/
structure Block where
  x : Int
  y : Int
  z : Int
  blockType : String
  deriving DecidableEq, Repr

/-- A block as JSON. -/
def Block.toJson (block : Block) : Json :=
  .obj
    [("x", .int block.x), ("y", .int block.y), ("z", .int block.z),
     ("blockType", .str block.blockType)]

/-- Blocks as JSON. -/
def Block.listToJson (blocks : List Block) : Json :=
  .arr (blocks.map Block.toJson)

/-- A part of a blueprint. -/
structure Chunk where
  blocks : List Block
  /-- How many chunks come before. -/
  index : Nat
  /-- How many chunks there are. -/
  total : Nat
  deriving DecidableEq, Repr

/-- A chunk as JSON. -/
def Chunk.toJson (chunk : Chunk) : Json :=
  .obj
    [("blocks", Block.listToJson chunk.blocks), ("chunk", .int chunk.index),
     ("totalChunks", .int chunk.total)]

/-- The blocks of a build. -/
structure Blueprint where
  blocks : List Block
  /-- How many blocks there were before some were cut off, if some were. -/
  truncatedFrom : Option Nat := none
  /-- The layout of the document that the blocks come from, if there is one. -/
  layout : Option Layout := none
  deriving DecidableEq, Repr

namespace Blueprint

/-- The blueprint of the first `ceiling` blocks. A negative ceiling lets none through. -/
def assemble (blocks : List Block) (ceiling : Int) (layout : Option Layout) : Blueprint :=
  if ceiling.toNat < blocks.length then
    { blocks := blocks.take ceiling.toNat, truncatedFrom := some blocks.length, layout }
  else { blocks, layout }

/-- The first `count` slices of a list, `size` items each as long as there are any. -/
def slices (size : Nat) : Nat → List Block → List (List Block)
  | 0, _ => []
  | count + 1, blocks => blocks.take size :: slices size count (blocks.drop size)

/-- How many chunks of the given size hold so many blocks. -/
def chunkCount (size blocks : Nat) : Nat :=
  (blocks + size - 1) / size

/-- The blueprint in chunks of the given size, the last of which may be smaller. -/
def chunks (b : Blueprint) (size : Int) : Except Failure (List Chunk) :=
  if size < 1 then .error .chunkSize
  else
    let total := chunkCount size.toNat b.blocks.length
    .ok ((slices size.toNat total b.blocks).mapIdx fun index blocks => { blocks, index, total })

/-- The blueprint as JSON. -/
def toJson (b : Blueprint) : Json :=
  .obj [("blocks", Block.listToJson b.blocks)]

end Blueprint
end VoxelBlueprint
