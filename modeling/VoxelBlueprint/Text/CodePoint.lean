/-
# Sets of characters as ranges of code points

A character property is written down as a list of closed ranges of code points,
ascending and apart, and looked up by `inRanges`. The tables of this folder
follow version 14.0 of the character database.

Key definition: `Text.inRanges`.
-/

namespace VoxelBlueprint
namespace Text

/-- Closed ranges of code points, ascending and apart. -/
abbrev Ranges := List (Nat × Nat)

/-- Whether the character lies in one of the ranges. -/
def inRanges (ranges : Ranges) (c : Char) : Bool :=
  ranges.any fun r => r.1 ≤ c.toNat && c.toNat ≤ r.2

end Text
end VoxelBlueprint
