/-
# Numerals

How an integer is written: blanks around it, an optional sign, and decimal digits
of any script, with single underscores allowed between two digits. The four
separators U+001C to U+001F are no blanks here. A numeral of more than
`maxDigits` digits is refused, in reading as in writing.

Key definitions: `Numeral.ofDigits`, `Numeral.read?`, `Numeral.write?`.
-/
import VoxelBlueprint.Text.Blank
import VoxelBlueprint.Text.DecimalDigit

namespace VoxelBlueprint
namespace Numeral

/-- The most digits that a numeral may have. -/
def maxDigits : Nat := 4300

/-- The number with the given decimal digits, the most significant first. -/
def ofDigits (digits : List Nat) : Nat :=
  digits.foldl (fun n d => 10 * n + d) 0

/-- Whether the character may surround a numeral. -/
def isMargin (c : Char) : Bool :=
  Text.isBlank c && !(0x1C ≤ c.toNat && c.toNat ≤ 0x1F)

/-- The text without the characters around it that may surround a numeral. -/
def trim (s : List Char) : List Char :=
  ((s.dropWhile isMargin).reverse.dropWhile isMargin).reverse

/-- The values of a run of digits, in which single underscores may stand between two digits. -/
def groupedDigits : List Char → Option (List Nat)
  | [] => none
  | c :: rest => do
    let d ← Text.digitValue? c
    match rest with
    | [] => return [d]
    | '_' :: rest => return d :: (← groupedDigits rest)
    | rest => return d :: (← groupedDigits rest)

/-- The number that a run of digits writes, unless it has too many of them. -/
def readDigits? (s : List Char) : Option Nat := do
  let digits ← groupedDigits s
  if digits.length ≤ maxDigits then some (ofDigits digits) else none

/-- The integer that the text writes, if it is a numeral. -/
def read? (s : List Char) : Option Int :=
  match trim s with
  | '-' :: digits => (readDigits? digits).map fun n => -(n : Int)
  | '+' :: digits => (readDigits? digits).map Int.ofNat
  | digits => (readDigits? digits).map Int.ofNat

/-- The shortest decimal numeral of an integer, unless it has too many digits. -/
def write? (n : Int) : Option String :=
  let digits := toString n.natAbs
  if digits.length ≤ maxDigits then some (toString n) else none

/-- The number of binary digits of the absolute value. -/
def bitLength (n : Int) : Nat :=
  if n = 0 then 0 else n.natAbs.log2 + 1

end Numeral
end VoxelBlueprint
