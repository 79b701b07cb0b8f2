/-
# Limits of an expansion

The ceilings on what one document may come to. A negative ceiling is as good as
none being allowed at all.

Key definitions: `Limits`.
-/

namespace VoxelBlueprint

/-- The ceilings on one expansion. -/
structure Limits where
  /-- Blocks in the output: more are cut off without an error. -/
  maxBlocks : Int := 200
  /-- Loops and calls around a list of steps. -/
  maxCallDepth : Int := 24
  /-- Steps that are executed. -/
  maxSteps : Int := 50000
  /-- Calls among these steps. -/
  maxCalls : Int := 500
  /-- Factors of an expression that are open at once. -/
  maxExpressionDepth : Int := 64
  deriving DecidableEq, Repr

end VoxelBlueprint
