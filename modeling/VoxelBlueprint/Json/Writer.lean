/-
# Writing JSON

A value is written in ASCII: every other character of a string, and every control,
is written by its 16-bit units. The compact form is one line with a space behind
commas and colons; the indented form starts a line for every item, two spaces
deeper than the line of the array or object.

Key definitions: `Json.compact`, `Json.indented`.
-/
import VoxelBlueprint.Binary64.Decimal
import VoxelBlueprint.Json.Basic
import VoxelBlueprint.Text.Quoted

namespace VoxelBlueprint
namespace Json

/-- A 16-bit unit by its code. -/
def unitEscape (n : Nat) : List Char :=
  '\\' :: 'u' :: Text.hexDigits 4 n

/-- A character inside a written string. -/
def writtenChar (c : Char) : List Char :=
  match c with
  | '\x22' => ['\\', '\x22']
  | '\\' => ['\\', '\\']
  | '\n' => ['\\', 'n']
  | '\r' => ['\\', 'r']
  | '\t' => ['\\', 't']
  | '\x0c' => ['\\', 'f']
  | '\x08' => ['\\', 'b']
  | c =>
    if 0x20 ≤ c.toNat ∧ c.toNat < 0x7F then [c]
    else if c.toNat < 0x10000 then unitEscape c.toNat
    else
      let n := c.toNat - 0x10000
      unitEscape (0xD800 + n / 0x400) ++ unitEscape (0xDC00 + n % 0x400)

/-- A string as it is written. -/
def writtenText (s : String) : String :=
  String.ofList ('\x22' :: s.toList.flatMap writtenChar ++ ['\x22'])

/-- A number as it is written. -/
def writtenNumber : Binary64 → String
  | .nan => "NaN"
  | .infinite false => "Infinity"
  | .infinite true => "-Infinity"
  | x => x.toText

mutual

/-- The value on one line. -/
def compact : Json → String
  | null => "null"
  | bool true => "true"
  | bool false => "false"
  | int n => toString n
  | float x => writtenNumber x
  | str s => writtenText s
  | arr items => "[" ++ ", ".intercalate (compactItems items) ++ "]"
  | obj fields => "\x7b" ++ ", ".intercalate (compactFields fields) ++ "\x7d"

/-- The items of an array, each on one line. -/
def compactItems : List Json → List String
  | [] => []
  | item :: rest => compact item :: compactItems rest

/-- The fields of an object, each on one line. -/
def compactFields : List (String × Json) → List String
  | [] => []
  | (name, value) :: rest => (writtenText name ++ ": " ++ compact value) :: compactFields rest

end

/-- Parts between two marks, each on a line of its own that starts with `margin`
and two spaces. -/
def block (margin opening closing : String) : List String → String
  | [] => opening ++ closing
  | parts =>
    let line := "\n" ++ margin ++ "  "
    opening ++ line ++ ("," ++ line).intercalate parts ++ "\n" ++ margin ++ closing

mutual

/-- The value over several lines, those behind the first starting with `margin`. -/
def indentedBy (margin : String) : Json → String
  | arr items => block margin "[" "]" (indentedItems (margin ++ "  ") items)
  | obj fields => block margin "\x7b" "\x7d" (indentedFields (margin ++ "  ") fields)
  | value => compact value

/-- The items of an array over several lines. -/
def indentedItems (margin : String) : List Json → List String
  | [] => []
  | item :: rest => indentedBy margin item :: indentedItems margin rest

/-- The fields of an object over several lines. -/
def indentedFields (margin : String) : List (String × Json) → List String
  | [] => []
  | (name, value) :: rest =>
    (writtenText name ++ ": " ++ indentedBy margin value) :: indentedFields margin rest

end

/-- The value over several lines. -/
def indented (value : Json) : String :=
  indentedBy "" value

end Json
end VoxelBlueprint
