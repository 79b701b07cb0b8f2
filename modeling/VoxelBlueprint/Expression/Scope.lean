/-
# Scopes and the integers in them

A scope binds names to values; a later binding of a name hides the earlier ones.
As an integer counts a whole number and a string that is a run of digits with an
optional minus sign in front. Every integer that circulates is narrower than 1025
bits: wider ones are refused where they arise.

Key definitions: `Scope`, `Expression.InRange`, `Expression.checked`,
`Expression.readInteger`, `Expression.integerOf`.
-/
import VoxelBlueprint.Expression.Token
import VoxelBlueprint.Json.Display

namespace VoxelBlueprint

/-- The values that names are bound to, the latest binding first. -/
abbrev Scope := List (String × Json)

namespace Scope

/-- The value of a name. -/
def find? (scope : Scope) (name : String) : Option Json :=
  scope.lookup name

/-- The scope with one more binding. -/
def bind (scope : Scope) (name : String) (value : Json) : Scope :=
  (name, value) :: scope

/-- The value to which a text refers, if it is a bound name between blanks. -/
def reference? (scope : Scope) (text : String) : Option Json :=
  let name := Text.strip text.toList
  if Expression.isIdentifier name then scope.find? (String.ofList name) else none

end Scope

namespace Expression

/-- The width in bits of the widest integers that circulate. -/
def maxBits : Nat := 1024

/-- The length of the longest numeral that is read, its sign not counted. -/
def maxNumeralLength : Nat := 309

/-- An integer may circulate when its absolute value is below `2 ^ maxBits`. -/
def InRange (n : Int) : Prop :=
  n.natAbs < Nat.pow 2 maxBits

instance (n : Int) : Decidable (InRange n) :=
  inferInstanceAs (Decidable (n.natAbs < Nat.pow 2 maxBits))

/-- The integer, unless it is too wide. -/
def checked (n : Int) : Except Fault Int :=
  if InRange n then .ok n else .error .integerOutOfRange

/-- Whether the character is a sign. -/
def isSign (c : Char) : Bool :=
  c = '+' || c = '-'

/-- The integer that a numeral writes. -/
def readInteger (text : List Char) : Except Fault Int :=
  if maxNumeralLength < (text.dropWhile isSign).length then .error .literalOutOfRange
  else
    match Numeral.read? text with
    | some n => checked n
    | none => .error .literalOutOfRange

/-- The text without a minus sign in front, if there is one. -/
def dropMinus : List Char → List Char
  | '-' :: rest => rest
  | text => text

/-- Whether the text is a run of digits, with an optional minus sign in front and an
optional line feed behind. -/
def isNumericText (text : List Char) : Bool :=
  let digits := Text.dropFinalNewline (dropMinus text)
  !digits.isEmpty && digits.all Text.isDigit

/-- The integer to which the name is bound. -/
def integerOf (name : String) : Json → Except Fault Int
  | .bool _ => .error (.notNumeric name none)
  | .int n => checked n
  | .str text =>
    if isNumericText text.toList then readInteger text.toList
    else .error (.notNumeric name (some text))
  | value => .error (.notNumeric name (some value.display))

end Expression
end VoxelBlueprint
