/-
# Values at places of a document

A document says numbers and arguments by values that are evaluated in a scope. If
that fails, the rejection names the place of the value and shows the value.

Key definitions: `integerAt`, `argumentAt`, `coordinatesAt`.
-/
import VoxelBlueprint.Expansion.Limits
import VoxelBlueprint.Expression.Coercion
import VoxelBlueprint.Rejection

namespace VoxelBlueprint

/-- The integer for which the value at a place stands in a scope. -/
def integerAt (limits : Limits) (scope : Scope) (path : Path) (value : Json) :
    Except Rejection Int :=
  (Expression.coerce scope limits.maxExpressionDepth value).mapError fun fault =>
    .unevaluable (.expression fault) path value.display

/-- The value that the argument at a place passes from the scope of the caller. -/
def argumentAt (limits : Limits) (scope : Scope) (path : Path) (value : Json) :
    Except Rejection Json :=
  (Expression.coerceArgument scope limits.maxExpressionDepth value).mapError fun fault =>
    .unevaluable (.expression fault) path value.display

/-- The coordinates of a block that is described at a place. -/
def coordinatesAt (limits : Limits) (scope : Scope) (path : Path) (x y z : Json) :
    Except Rejection (Int × Int × Int) := do
  let x ← integerAt limits scope (path ++ [.field "x"]) x
  let y ← integerAt limits scope (path ++ [.field "y"]) y
  let z ← integerAt limits scope (path ++ [.field "z"]) z
  return (x, y, z)

end VoxelBlueprint
