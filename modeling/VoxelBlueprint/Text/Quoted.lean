/-
# Quoted text in diagnostics

A text is shown between single quotes, or between double quotes if it holds a
single quote and no double one. The quote in use and the backslash are preceded
by a backslash, line feed, carriage return and tab have letters of their own, and
any other character that is not printable is written by its code point in two,
four or eight hexadecimal digits.

Key definitions: `Text.quote`, `Text.quoted`.
-/
import VoxelBlueprint.Text.Hexadecimal
import VoxelBlueprint.Text.Printable

namespace VoxelBlueprint
namespace Text

/-- A character that is not printable, by its code point. -/
def escapeCode (c : Char) : List Char :=
  if c.toNat < 0x100 then '\\' :: 'x' :: hexDigits 2 c.toNat
  else if c.toNat < 0x10000 then '\\' :: 'u' :: hexDigits 4 c.toNat
  else '\\' :: 'U' :: hexDigits 8 c.toNat

/-- A character as it is written between two `mark`s. -/
def escapeChar (mark c : Char) : List Char :=
  if c = mark || c = '\\' then ['\\', c]
  else if c = '\n' then ['\\', 'n']
  else if c = '\r' then ['\\', 'r']
  else if c = '\t' then ['\\', 't']
  else if isPrintable c then [c]
  else escapeCode c

/-- The quotation mark for a text: single, unless only a double one spares an escape. -/
def quoteMark (s : List Char) : Char :=
  if '\x27' ∈ s ∧ '\x22' ∉ s then '\x22' else '\x27'

/-- The text between quotation marks. -/
def quote (s : List Char) : List Char :=
  let mark := quoteMark s
  mark :: s.flatMap (escapeChar mark) ++ [mark]

/-- `quote` on strings. -/
def quoted (s : String) : String :=
  String.ofList (quote s.toList)

end Text
end VoxelBlueprint
