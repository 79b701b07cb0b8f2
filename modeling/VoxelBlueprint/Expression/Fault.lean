/-
# Why an expression has no value

The causes for which an expression, or a value that stands in its place, is
refused, and their wording.

Key definitions: `Expression.Fault`, `Expression.Fault.message`.
-/
import VoxelBlueprint.Text.Quoted

namespace VoxelBlueprint
namespace Expression

/-- Why an expression has no value. -/
inductive Fault where
  /-- A character that starts no token. -/
  | invalidCharacter (c : Char) (position : Nat)
  /-- There is no token. -/
  | empty
  /-- A token that cannot stand where it does. -/
  | unexpectedToken (text : List Char) (position : Nat)
  /-- An operand is missing at the end. -/
  | unexpectedEnd
  /-- A parenthesis is not closed where it has to be. -/
  | unclosed
  | unknownVariable (name : String)
  /-- A variable is bound to something else than an integer, shown unless it is a truth value. -/
  | notNumeric (name : String) (shown : Option String)
  | divisionByZero
  /-- An integer is wider than the widest that may circulate. -/
  | integerOutOfRange
  /-- A numeral is longer than the longest that is read. -/
  | literalOutOfRange
  /-- More operands are open at once than the limit allows. -/
  | nestedTooDeeply (limit : Int)
  /-- A value that is neither a number nor an expression. -/
  | notAnExpression (shown : String)
  /-- A number that has no integer part. -/
  | notFinite (shown : String)
  /-- A value that cannot be passed as an argument. -/
  | unsupportedArgument (shown : String)
  deriving DecidableEq, Repr

/-- The wording of a fault. -/
def Fault.message : Fault → String
  | invalidCharacter c position =>
    s!"invalid character {Text.quoted c.toString} at position {position}"
  | empty => "empty expression"
  | unexpectedToken text position =>
    s!"unexpected token {Text.quoted (String.ofList text)} at position {position}"
  | unexpectedEnd => "unexpected end of expression"
  | unclosed => "unmatched '('"
  | unknownVariable name => s!"unknown variable '{name}'"
  | notNumeric name none => s!"variable '{name}' is not numeric"
  | notNumeric name (some shown) => s!"variable '{name}' is not numeric (value {shown})"
  | divisionByZero => "division by zero"
  | integerOutOfRange => "integer out of range"
  | literalOutOfRange => "integer literal out of range"
  | nestedTooDeeply limit => s!"expression nested deeper than {limit}"
  | notAnExpression shown => s!"expected a number or expression, got {shown}"
  | notFinite shown => s!"non-finite number {shown}"
  | unsupportedArgument shown => s!"unsupported argument value {shown}"

end Expression
end VoxelBlueprint
