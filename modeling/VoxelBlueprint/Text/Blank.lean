/-
# Blank characters

White space in the wide sense: the characters with the property White_Space and
the four separators U+001C to U+001F. Zero-width characters and the byte order
mark are not blank. `strip` removes blanks at both ends of a text.

Key definitions: `Text.isBlank`, `Text.strip`.
-/
import VoxelBlueprint.Text.CodePoint

namespace VoxelBlueprint
namespace Text

/-- The blank characters. -/
def blankRanges : Ranges :=
  [(0x9, 0xD), (0x1C, 0x20), (0x85, 0x85), (0xA0, 0xA0), (0x1680, 0x1680), (0x2000, 0x200A),
   (0x2028, 0x2029), (0x202F, 0x202F), (0x205F, 0x205F), (0x3000, 0x3000)]

/-- Whether the character is blank. -/
def isBlank (c : Char) : Bool :=
  inRanges blankRanges c

/-- The text without the blanks at its start. -/
def stripLeft (s : List Char) : List Char :=
  s.dropWhile isBlank

/-- The text without the blanks at its end. -/
def stripRight (s : List Char) : List Char :=
  (s.reverse.dropWhile isBlank).reverse

/-- The text without the blanks at either end. -/
def strip (s : List Char) : List Char :=
  stripRight (stripLeft s)

/-- `strip` on strings. -/
def stripped (s : String) : String :=
  String.ofList (strip s.toList)

/-- Whether the text has no character but blanks. -/
def isAllBlank (s : String) : Bool :=
  s.toList.all isBlank

/-- The text without a line feed at its end, if there is one. -/
def dropFinalNewline (s : List Char) : List Char :=
  if s.getLast? = some '\n' then s.dropLast else s

end Text
end VoxelBlueprint
