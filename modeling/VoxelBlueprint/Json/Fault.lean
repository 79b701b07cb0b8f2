/-
# Why a text is not JSON

The causes for which a text is refused, and their wording. A fault of the grammar
names the place where it was noticed, by line, column and distance from the start,
counted in characters.

Key definitions: `Json.Problem`, `Json.Location`, `Json.Fault`, `Json.Fault.message`.
-/
import VoxelBlueprint.Numeral

namespace VoxelBlueprint
namespace Json

/-- What is wrong at a place of a text. -/
inductive Problem where
  | noValue
  | noKey
  | noColon
  | noComma
  | extraData
  | unterminatedText
  | controlCharacter
  | badEscape
  | badCodeEscape
  | byteOrderMark
  deriving DecidableEq, Repr

/-- A place of a text: its line and column, from one, and its distance from the start. -/
structure Location where
  line : Nat
  column : Nat
  position : Nat
  deriving DecidableEq, Repr

/-- Why a text was refused. -/
inductive Fault where
  /-- The grammar is violated. -/
  | grammar (problem : Problem) (location : Location)
  /-- A whole number has too many digits. -/
  | longNumeral (digits : Nat)
  /-- Arrays and objects are nested too deeply; the innermost is an array if `inArray`. -/
  | deepNesting (inArray : Bool)
  deriving DecidableEq, Repr

/-- The place at the given distance from the start of the text. -/
def Location.of (text : List Char) (position : Nat) : Location :=
  let before := text.take position
  { line := before.count '\n' + 1
    column := (before.reverse.takeWhile (· ≠ '\n')).length + 1
    position }

/-- The wording of a problem. -/
def Problem.message : Problem → String
  | noValue => "Expecting value"
  | noKey => "Expecting property name enclosed in double quotes"
  | noColon => "Expecting ':' delimiter"
  | noComma => "Expecting ',' delimiter"
  | extraData => "Extra data"
  | unterminatedText => "Unterminated string starting at"
  | controlCharacter => "Invalid control character at"
  | badEscape => "Invalid \\escape"
  | badCodeEscape => "Invalid \\uXXXX escape"
  | byteOrderMark => "Unexpected UTF-8 BOM (decode using utf-8-sig)"

/-- The wording of a fault. -/
def Fault.message : Fault → String
  | grammar problem l =>
    s!"{problem.message}: line {l.line} column {l.column} (char {l.position})"
  | longNumeral digits =>
    s!"Exceeds the limit ({Numeral.maxDigits} digits) for integer string conversion: " ++
      s!"value has {digits} digits; use sys.set_int_max_str_digits() to increase the limit"
  | deepNesting true =>
    "maximum recursion depth exceeded while decoding a JSON array from a unicode string"
  | deepNesting false =>
    "maximum recursion depth exceeded while decoding a JSON object from a unicode string"

end Json
end VoxelBlueprint
