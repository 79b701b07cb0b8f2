/-
# Snapshots of the catalog

A snapshot is an unchanging set of block ids in order, with the labels of its
origin. Its number tells it from every other snapshot of its store, also from one
with the same ids. A block type that it lacks is replaced by its fallback.

Key definitions: `Catalog.namedValues?`, `Catalog.idsOf`, `Catalog.Snapshot`,
`Catalog.Snapshot.build`, `Catalog.Snapshot.fallback`, `Catalog.Snapshot.resolve`,
`Catalog.palette`.
-/
import VoxelBlueprint.Catalog.BlockId
import VoxelBlueprint.Failure

namespace VoxelBlueprint
namespace Catalog

/-- The block that stands in for others if it can. -/
def defaultBlock : String := "minecraft:stone"

/-- Whether a value names a block: it is not null, and what it is written as is not blank. There
is no telling if it cannot be written. -/
def isNamed? : Json → Option Bool
  | .null => some false
  | value => value.written?.map fun text => !Text.isAllBlank text

/-- The values that name a block, if it can be told of all of them. -/
def namedValues? : List Json → Option (List Json)
  | [] => some []
  | value :: values => do
    let named ← isNamed? value
    let values ← namedValues? values
    return if named then value :: values else values

/-- The canonical forms of values, in order and without repetition. The namespace alone is no id. -/
def idsOf (values : List Json) : List String :=
  ((values.map canonical).filter (· != namespaceText)).eraseDups

/-- An unchanging set of block ids. -/
structure Snapshot where
  ids : List String
  version : String
  source : String
  /-- The number of the snapshot in its store. -/
  generation : Nat
  deriving DecidableEq, Repr

namespace Snapshot

/-- The snapshot of the values that name a block. -/
def build (generation : Nat) (values : List Json) (version source : String) :
    Except Failure Snapshot :=
  match namedValues? values with
  | some named => .ok { ids := idsOf named, version, source, generation }
  | none => .error .longInteger

/-- Whether the snapshot has the id. -/
def supports (s : Snapshot) (id : String) : Bool :=
  s.ids.contains id

/-- The block for types that the snapshot lacks. -/
def fallback (s : Snapshot) : String :=
  if s.supports defaultBlock then defaultBlock else s.ids.head?.getD defaultBlock

/-- The block for a canonical id: the id itself if the snapshot has it. -/
def resolve (s : Snapshot) (id : String) : String :=
  if s.supports id then id else s.fallback

end Snapshot

/-- The block ids of the palette that is in use until a catalog is loaded. -/
def palette : List String :=
  ["minecraft:stone", "minecraft:cobblestone", "minecraft:stone_bricks", "minecraft:bricks",
   "minecraft:oak_planks", "minecraft:spruce_planks", "minecraft:birch_planks",
   "minecraft:oak_log", "minecraft:spruce_log", "minecraft:glass", "minecraft:glass_pane",
   "minecraft:dirt", "minecraft:grass_block", "minecraft:sand", "minecraft:sandstone",
   "minecraft:gravel", "minecraft:oak_stairs", "minecraft:stone_stairs", "minecraft:oak_slab",
   "minecraft:oak_fence", "minecraft:oak_door", "minecraft:oak_leaves", "minecraft:torch",
   "minecraft:lantern", "minecraft:white_wool", "minecraft:quartz_block", "minecraft:water",
   "minecraft:air"]

/-- A snapshot of the palette, all of which names blocks. -/
def Snapshot.ofPalette (generation : Nat) : Snapshot :=
  { ids := idsOf (palette.map .str), version := "builtin", source := "fallback", generation }

end Catalog
end VoxelBlueprint
