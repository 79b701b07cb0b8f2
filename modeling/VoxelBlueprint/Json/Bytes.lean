/-
# JSON as bytes

JSON may be encoded in UTF-8, UTF-16 or UTF-32. A byte order mark in front tells
which of them it is. Without one, the places of the zero bytes among the first four
tell, since JSON starts with ASCII characters.

Key definitions: `Json.Encoding`, `Json.Encoding.detect`, `Json.textOfBytes?`.
-/
import VoxelBlueprint.Text.Utf16
import VoxelBlueprint.Text.Utf8

namespace VoxelBlueprint
namespace Json

/-- How a text is encoded. -/
inductive Encoding where
  | utf8
  | utf16 (order : Text.ByteOrder)
  | utf32 (order : Text.ByteOrder)
  deriving DecidableEq, Repr

namespace Encoding

/-- The byte order marks. That of UTF-32 comes before the one that it starts with. -/
def marks : List (List UInt8 × Encoding) :=
  [([0x00, 0x00, 0xFE, 0xFF], utf32 .bigEndian), ([0xFF, 0xFE, 0x00, 0x00], utf32 .littleEndian),
   ([0xFE, 0xFF], utf16 .bigEndian), ([0xFF, 0xFE], utf16 .littleEndian),
   ([0xEF, 0xBB, 0xBF], utf8)]

/-- The encoding of bytes without a byte order mark. -/
def ofZeros : List UInt8 → Encoding
  | a :: b :: c :: d :: _ =>
    if a = 0 then if b = 0 then utf32 .bigEndian else utf16 .bigEndian
    else if b = 0 then if c = 0 ∧ d = 0 then utf32 .littleEndian else utf16 .littleEndian
    else utf8
  | [a, b] =>
    if a = 0 then utf16 .bigEndian
    else if b = 0 then utf16 .littleEndian
    else utf8
  | _ => utf8

/-- The encoding of bytes, and the bytes without their byte order mark. -/
def detect (bytes : List UInt8) : Encoding × List UInt8 :=
  match marks.find? (·.1.isPrefixOf bytes) with
  | some (mark, encoding) => (encoding, bytes.drop mark.length)
  | none => (ofZeros bytes, bytes)

/-- The text that bytes write in an encoding. -/
def decode (encoding : Encoding) (bytes : List UInt8) : Option (List Char) :=
  match encoding with
  | utf8 => (Text.Utf8.decode bytes).toOption
  | utf16 order => Text.Utf16.decode order bytes
  | utf32 order => Text.Utf32.decode order bytes

end Encoding

/-- The text of JSON that is given as bytes. -/
def textOfBytes? (bytes : List UInt8) : Option (List Char) :=
  let (encoding, content) := Encoding.detect bytes
  encoding.decode content

end Json
end VoxelBlueprint
