/-
# UTF-16 and UTF-32

Reading 16-bit and 32-bit units. A character beyond U+FFFF is a pair of 16-bit
units; a unit that lacks the other half of its pair becomes the replacement
character. Bytes that do not make up whole units, and units beyond the last code
point, are refused.

Key definitions: `Text.Utf16.decode`, `Text.Utf32.decode`, `Text.ByteOrder`.
-/

namespace VoxelBlueprint
namespace Text

/-- Which byte of a unit comes first. -/
inductive ByteOrder where
  | bigEndian
  | littleEndian
  deriving DecidableEq, Repr

/-- The number that two digits write to the given base, of which `a` comes first. -/
def ByteOrder.join (order : ByteOrder) (base a b : Nat) : Nat :=
  match order with
  | bigEndian => a * base + b
  | littleEndian => b * base + a

namespace Utf16

/-- Whether the 16-bit unit is the first of a pair. -/
def isHighUnit (n : Nat) : Bool := 0xD800 ≤ n && n ≤ 0xDBFF

/-- Whether the 16-bit unit is the second of a pair. -/
def isLowUnit (n : Nat) : Bool := 0xDC00 ≤ n && n ≤ 0xDFFF

/-- The character of a pair of 16-bit units. -/
def pairedChar (high low : Nat) : Char :=
  Char.ofNat (0x10000 + (high - 0xD800) * 0x400 + (low - 0xDC00))

/-- The character of a single 16-bit unit. Half a pair gives the replacement character. -/
def unitChar (n : Nat) : Char :=
  if isHighUnit n || isLowUnit n then '\uFFFD' else Char.ofNat n

/-- The characters of 16-bit units. -/
def charsOfUnits : List Nat → List Char
  | [] => []
  | [n] => [unitChar n]
  | high :: low :: rest =>
    if isHighUnit high && isLowUnit low then pairedChar high low :: charsOfUnits rest
    else unitChar high :: charsOfUnits (low :: rest)

/-- The 16-bit units of bytes, if they make up whole units. -/
def units? (order : ByteOrder) : List UInt8 → Option (List Nat)
  | [] => some []
  | [_] => none
  | a :: b :: rest => (units? order rest).map (order.join 0x100 a.toNat b.toNat :: ·)

/-- The text that bytes write in UTF-16. -/
def decode (order : ByteOrder) (bytes : List UInt8) : Option (List Char) :=
  (units? order bytes).map charsOfUnits

end Utf16

namespace Utf32

/-- The 32-bit units of 16-bit units, if they make up whole units. -/
def units? (order : ByteOrder) : List Nat → Option (List Nat)
  | [] => some []
  | [_] => none
  | a :: b :: rest => (units? order rest).map (order.join 0x10000 a b :: ·)

/-- The character of a 32-bit unit, unless it lies beyond the last code point. -/
def unitChar? (n : Nat) : Option Char :=
  if n < 0x10000 then some (Utf16.unitChar n)
  else if n < 0x110000 then some (Char.ofNat n)
  else none

/-- The text that bytes write in UTF-32. -/
def decode (order : ByteOrder) (bytes : List UInt8) : Option (List Char) := do
  (← units? order (← Utf16.units? order bytes)).mapM unitChar?

end Utf32
end Text
end VoxelBlueprint
