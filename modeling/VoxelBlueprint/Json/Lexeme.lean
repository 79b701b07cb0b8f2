/-
# The lexemes of JSON

The parts a JSON text is made of: punctuation, strings and the other scalar
values. `Lexeme.read` reads the one that starts at a character and tells how many
further characters belong to it. A part that cannot be read is a lexeme too, since
what is reported of it depends on what was expected in its place.

A number is as long as the grammar allows: `01` is the number 0 followed by the
number 1. Besides the numbers of the grammar there are `NaN`, `Infinity` and
`-Infinity`.

Key definitions: `Json.Lexeme`, `Json.Lexeme.read`.
-/
import VoxelBlueprint.Json.Basic
import VoxelBlueprint.Json.Fault
import VoxelBlueprint.Text.Hexadecimal
import VoxelBlueprint.Text.Utf16

namespace VoxelBlueprint
namespace Json

open Text.Utf16

/-- The punctuation of JSON. -/
inductive Mark where
  | openBrace
  | closeBrace
  | openBracket
  | closeBracket
  | colon
  | comma
  deriving DecidableEq, Repr

/-- A part of a JSON text. -/
inductive Lexeme where
  | mark (mark : Mark)
  | text (content : String)
  | scalar (value : Json)
  /-- A numeral with too many digits. -/
  | longNumeral (digits : Nat)
  /-- A string that cannot be read, with the place where that was noticed. -/
  | badText (problem : Problem) (position : Nat)
  /-- A character that starts nothing. -/
  | junk

/-- Whether the character may stand between lexemes. -/
def isSpace (c : Char) : Bool :=
  c = ' ' || c = '\t' || c = '\n' || c = '\r'

/-! ### Strings -/

/-- The value of four hexadecimal digits. -/
def hexQuad? (a b c d : Char) : Option Nat := do
  let digits ← [a, b, c, d].mapM Text.hexValue?
  return digits.foldl (fun value digit => value * 16 + digit) 0

/-- The character for which a single letter stands behind a backslash. -/
def unescape? : Char → Option Char
  | '\x22' => some '\x22'
  | '\\' => some '\\'
  | '/' => some '/'
  | 'b' => some '\x08'
  | 'f' => some '\x0c'
  | 'n' => some '\n'
  | 'r' => some '\r'
  | 't' => some '\t'
  | _ => none

/-- Reads the rest of a string whose opening quotation mark stands at `start`:
`position` is the place of the next character and `content` what was read so far,
in reverse. Gives the lexeme and the place behind the closing mark. A code escape
counts only if at least one more character follows it. -/
def readText (start position : Nat) (content : List Char) : List Char → Lexeme × Nat
  | [] => (.badText .unterminatedText start, position)
  | '\x22' :: _ => (.text (String.ofList content.reverse), position + 1)
  | ['\\'] => (.badText .unterminatedText start, position)
  | '\\' :: 'u' :: a :: b :: c :: d :: '\\' :: 'u' :: e :: f :: g :: h :: next :: rest =>
    match hexQuad? a b c d with
    | none => (.badText .badCodeEscape (position + 1), position)
    | some high =>
      if isHighUnit high then
        match hexQuad? e f g h with
        | none => (.badText .badCodeEscape (position + 7), position)
        | some low =>
          if isLowUnit low then
            readText start (position + 12) (pairedChar high low :: content) (next :: rest)
          else
            readText start (position + 6) (unitChar high :: content)
              ('\\' :: 'u' :: e :: f :: g :: h :: next :: rest)
      else
        readText start (position + 6) (unitChar high :: content)
          ('\\' :: 'u' :: e :: f :: g :: h :: next :: rest)
  | '\\' :: 'u' :: a :: b :: c :: d :: next :: rest =>
    match hexQuad? a b c d with
    | none => (.badText .badCodeEscape (position + 1), position)
    | some unit => readText start (position + 6) (unitChar unit :: content) (next :: rest)
  | '\\' :: 'u' :: _ => (.badText .badCodeEscape (position + 1), position)
  | '\\' :: c :: rest =>
    match unescape? c with
    | none => (.badText .badEscape position, position)
    | some c => readText start (position + 2) (c :: content) rest
  | c :: rest =>
    if c.toNat ≤ 0x1F then (.badText .controlCharacter position, position)
    else readText start (position + 1) (c :: content) rest

/-! ### Numbers -/

/-- The parts of a number as it is written. -/
structure NumberParts where
  negative : Bool
  whole : List Char
  fraction : List Char
  /-- The exponent with its sign; `none` if there is none. -/
  exponent : Option (Bool × List Char)
  /-- The number of characters. -/
  width : Nat

/-- The digits in front of the point: a zero on its own or a run without a zero in front. -/
def wholePart (s : List Char) : List Char :=
  if s.head? = some '0' then ['0'] else s.takeWhile Char.isDigit

/-- The digits behind the point, none unless there is a point with digits behind it. -/
def fractionPart : List Char → List Char
  | '.' :: s => s.takeWhile Char.isDigit
  | _ => []

/-- The sign of an exponent and what follows it. -/
def exponentSign : List Char → Bool × List Char × Nat
  | '-' :: s => (true, s, 1)
  | '+' :: s => (false, s, 1)
  | s => (false, s, 0)

/-- The exponent, its sign and its width, if there is one with digits. -/
def exponentPart? : List Char → Option (Bool × List Char × Nat)
  | c :: s =>
    let (negative, s, width) := exponentSign s
    let digits := s.takeWhile Char.isDigit
    if (c = 'e' || c = 'E') && !digits.isEmpty then
      some (negative, digits, 1 + width + digits.length)
    else none
  | [] => none

/-- The longest number that the text starts with. -/
def numberParts? (s : List Char) : Option NumberParts :=
  let (negative, unsigned, signWidth) : Bool × List Char × Nat :=
    match s with
    | '-' :: rest => (true, rest, 1)
    | _ => (false, s, 0)
  let whole := wholePart unsigned
  if whole.isEmpty then none
  else
    let afterWhole := unsigned.drop whole.length
    let fraction := fractionPart afterWhole
    let fractionWidth := if fraction.isEmpty then 0 else fraction.length + 1
    let exponent := exponentPart? (afterWhole.drop fractionWidth)
    some
      { negative, whole, fraction
        exponent := exponent.map fun e => (e.1, e.2.1)
        width := signWidth + whole.length + fractionWidth + (exponent.map (·.2.2)).getD 0 }

/-- The number that a run of ASCII digits writes. -/
def digitsValue (digits : List Char) : Nat :=
  Numeral.ofDigits (digits.map fun c => c.toNat - 0x30)

/-- What the parts of a number stand for: a whole number unless there is a fraction or exponent. -/
def NumberParts.lexeme (p : NumberParts) : Lexeme :=
  if p.fraction.isEmpty && p.exponent.isNone then
    if p.whole.length > Numeral.maxDigits then .longNumeral p.whole.length
    else
      let n := digitsValue p.whole
      .scalar (.int (if p.negative then -(n : Int) else n))
  else
    let exponent : Int :=
      match p.exponent with
      | some (true, digits) => -(digitsValue digits : Int)
      | some (false, digits) => digitsValue digits
      | none => 0
    .scalar (.float (.ofDecimal p.negative (digitsValue (p.whole ++ p.fraction))
      (exponent - p.fraction.length)))

/-! ### Lexemes -/

/-- The scalar values that are written as words. -/
def words : List (List Char × Json) :=
  [("null".toList, .null), ("true".toList, .bool true), ("false".toList, .bool false),
   ("NaN".toList, .float .nan), ("Infinity".toList, .float (.infinite false)),
   ("-Infinity".toList, .float (.infinite true))]

/-- The scalar value that the text starts with, and its width. -/
def readScalar (s : List Char) : Lexeme × Nat :=
  match words.find? fun word => word.1.isPrefixOf s with
  | some (word, value) => (.scalar value, word.length)
  | none =>
    match numberParts? s with
    | some parts => (parts.lexeme, parts.width)
    | none => (.junk, 1)

/-- Reads the lexeme that starts at the character `c` at `position`, with `rest`
behind it, and tells how many characters of `rest` belong to it. -/
def Lexeme.read (position : Nat) (c : Char) (rest : List Char) : Lexeme × Nat :=
  match c with
  | '\x7b' => (.mark .openBrace, 0)
  | '\x7d' => (.mark .closeBrace, 0)
  | '[' => (.mark .openBracket, 0)
  | ']' => (.mark .closeBracket, 0)
  | ':' => (.mark .colon, 0)
  | ',' => (.mark .comma, 0)
  | '\x22' =>
    let (lexeme, stop) := readText position (position + 1) [] rest
    (lexeme, stop - (position + 1))
  | _ =>
    let (lexeme, width) := readScalar (c :: rest)
    (lexeme, width - 1)

end Json
end VoxelBlueprint
