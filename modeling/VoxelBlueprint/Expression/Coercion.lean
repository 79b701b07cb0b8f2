/-
# Values in the place of expressions

Where a document asks for an integer it may hold a number, which is truncated, or
a string, which is evaluated. An argument of a call may be anything that has a
meaning in the scope of the caller: a number, the name of a binding, which is
passed on as it is, an expression, or else the string itself.

Key definitions: `Expression.coerce`, `Expression.coerceArgument`.
-/
import VoxelBlueprint.Expression.Evaluation

namespace VoxelBlueprint
namespace Expression

/-- The integer for which a value stands in a scope. -/
def coerce (scope : Scope) (limit : Int) : Json → Except Fault Int
  | .int n => checked n
  | .float x =>
    match x.truncate? with
    | some n => .ok n
    | none => .error (.notFinite x.toText)
  | .str text => evaluate scope limit text
  | .null => .error (.notAnExpression "None")
  | .bool true => .error (.notAnExpression "True")
  | .bool false => .error (.notAnExpression "False")
  | value => .error (.notAnExpression value.kindName)

/-- The value that an argument passes from the scope of the caller. -/
def coerceArgument (scope : Scope) (limit : Int) : Json → Except Fault Json
  | .int n => .int <$> coerce scope limit (.int n)
  | .float x => .int <$> coerce scope limit (.float x)
  | .str text =>
    match scope.reference? text with
    | some value => .ok value
    | none =>
      match evaluate scope limit text with
      | .ok n => .ok (.int n)
      | .error _ => .ok (.str text)
  | value => .error (.unsupportedArgument value.display)

end Expression
end VoxelBlueprint
