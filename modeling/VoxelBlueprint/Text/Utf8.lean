/-
# UTF-8

Reading bytes as UTF-8. A character of more than one byte is read byte by byte:
`Utf8.Pending` says which bytes may follow, and bytes that do not are a fault with
the place of the character they were to belong to. Overlong forms, surrogates and
code points beyond the last one are ruled out by the bounds of the second byte.

Key definitions: `Text.Utf8.decode`, `Text.Utf8.Fault.message`,
`Text.unifyNewlines`.
-/
import VoxelBlueprint.Text.Quoted

namespace VoxelBlueprint
namespace Text
namespace Utf8

/-- Why bytes are not UTF-8. -/
inductive Reason where
  | invalidStart
  | invalidContinuation
  | unexpectedEnd
  deriving DecidableEq, Repr

/-- Bytes that are not UTF-8: the first of them, where they start, and where what follows starts. -/
structure Fault where
  reason : Reason
  first : UInt8
  start : Nat
  stop : Nat
  deriving DecidableEq, Repr

/-- The wording of a reason. -/
def Reason.message : Reason → String
  | invalidStart => "invalid start byte"
  | invalidContinuation => "invalid continuation byte"
  | unexpectedEnd => "unexpected end of data"

/-- The wording of a fault. -/
def Fault.message (f : Fault) : String :=
  let place :=
    if f.stop = f.start + 1 then
      s!"byte 0x{String.ofList (hexDigits 2 f.first.toNat)} in position {f.start}"
    else s!"bytes in position {f.start}-{f.stop - 1}"
  s!"'utf-8' codec can't decode {place}: {f.reason.message}"

/-- A character of which some bytes have been read. -/
structure Pending where
  first : UInt8
  start : Nat
  /-- How many bytes are still to come. -/
  needed : Nat
  /-- The bounds of the next byte. -/
  low : Nat
  high : Nat
  /-- The bits read so far. -/
  bits : Nat

/-- The character of several bytes that starts with the given one. -/
def lead? (position : Nat) (b : UInt8) : Option Pending :=
  let n := b.toNat
  if n < 0xC2 then none
  else if n < 0xE0 then some ⟨b, position, 1, 0x80, 0xBF, n - 0xC0⟩
  else if n < 0xF0 then
    let first := if n = 0xE0 then 0xA0 else 0x80
    let last := if n = 0xED then 0x9F else 0xBF
    some ⟨b, position, 2, first, last, n - 0xE0⟩
  else if n < 0xF5 then
    let first := if n = 0xF0 then 0x90 else 0x80
    let last := if n = 0xF4 then 0x8F else 0xBF
    some ⟨b, position, 3, first, last, n - 0xF0⟩
  else none

/-- Reads bytes from `position` on; `text` is what was read before, in reverse. -/
def decodeFrom (position : Nat) (text : List Char) :
    Option Pending → List UInt8 → Except Fault (List Char)
  | none, [] => .ok text.reverse
  | some p, [] => .error ⟨.unexpectedEnd, p.first, p.start, position⟩
  | none, b :: rest =>
    if b.toNat < 0x80 then decodeFrom (position + 1) (Char.ofNat b.toNat :: text) none rest
    else
      match lead? position b with
      | some p => decodeFrom (position + 1) text (some p) rest
      | none => .error ⟨.invalidStart, b, position, position + 1⟩
  | some p, b :: rest =>
    if p.low ≤ b.toNat ∧ b.toNat ≤ p.high then
      let bits := p.bits * 0x40 + (b.toNat - 0x80)
      if p.needed ≤ 1 then decodeFrom (position + 1) (Char.ofNat bits :: text) none rest
      else
        decodeFrom (position + 1) text
          (some { p with needed := p.needed - 1, low := 0x80, high := 0xBF, bits }) rest
    else .error ⟨.invalidContinuation, p.first, p.start, position⟩

/-- The text that the bytes encode. -/
def decode (bytes : List UInt8) : Except Fault (List Char) :=
  decodeFrom 0 [] none bytes

end Utf8

/-- The text with every kind of line end as a line feed; `afterReturn` tells that a
carriage return, already written as a line feed, precedes the text. -/
def unifyNewlinesAfter (afterReturn : Bool) : List Char → List Char
  | [] => []
  | '\r' :: rest => '\n' :: unifyNewlinesAfter true rest
  | '\n' :: rest =>
    if afterReturn then unifyNewlinesAfter false rest else '\n' :: unifyNewlinesAfter false rest
  | c :: rest => c :: unifyNewlinesAfter false rest

/-- The text with every kind of line end as a line feed. -/
def unifyNewlines (text : List Char) : List Char :=
  unifyNewlinesAfter false text

end Text
end VoxelBlueprint
