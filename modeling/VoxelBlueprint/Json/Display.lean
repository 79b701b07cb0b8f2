/-
# JSON values in diagnostics

How a value is shown to the reader of a diagnostic: `None`, `True`, `1.0`,
`[1, 'a']`. A string on its own is shown as it is, and quoted inside an array or
an object. A whole number wider than 1024 bits is shown by its width only; an
array or object that holds one beyond the longest numeral is shown by its kind.

Key definitions: `Json.literal?`, `Json.written?`, `Json.display`.
-/
import VoxelBlueprint.Binary64.Decimal
import VoxelBlueprint.Json.Basic
import VoxelBlueprint.Numeral
import VoxelBlueprint.Text.Quoted

namespace VoxelBlueprint
namespace Json

/-- The name of a value's kind. -/
def kindName : Json → String
  | null => "NoneType"
  | bool _ => "bool"
  | int _ => "int"
  | float _ => "float"
  | str _ => "str"
  | arr _ => "list"
  | obj _ => "dict"

mutual

/-- The value as a literal, unless a numeral in it is too long. -/
def literal? : Json → Option String
  | null => some "None"
  | bool true => some "True"
  | bool false => some "False"
  | int n => Numeral.write? n
  | float x => some x.toText
  | str s => some (Text.quoted s)
  | arr items => do
    let shown ← itemLiterals? items
    return "[" ++ ", ".intercalate shown ++ "]"
  | obj fields => do
    let shown ← fieldLiterals? fields
    return "\x7b" ++ ", ".intercalate shown ++ "\x7d"

/-- The items of an array as literals. -/
def itemLiterals? : List Json → Option (List String)
  | [] => some []
  | item :: rest => return (← literal? item) :: (← itemLiterals? rest)

/-- The fields of an object as literals. -/
def fieldLiterals? : List (String × Json) → Option (List String)
  | [] => some []
  | (name, value) :: rest =>
    return (Text.quoted name ++ ": " ++ (← literal? value)) :: (← fieldLiterals? rest)

end

/-- The value as a text of its own, unless a numeral in it is too long: a string itself, and any
other value as a literal. -/
def written? : Json → Option String
  | str text => some text
  | value => value.literal?

/-- Whether the value can be written as a text. -/
def HasText (value : Json) : Prop :=
  value.written?.isSome

instance (value : Json) : Decidable value.HasText :=
  inferInstanceAs (Decidable (value.written?.isSome = true))

/-- The greatest number of bits of a whole number that is shown digit by digit on its own. -/
def displayBits : Nat := 1024

/-- The value as a diagnostic shows it. -/
def display : Json → String
  | str s => s
  | int n =>
    if Numeral.bitLength n > displayBits then s!"<integer of {Numeral.bitLength n} bits>"
    else toString n
  | value => (literal? value).getD s!"<{value.kindName}>"

end Json
end VoxelBlueprint
