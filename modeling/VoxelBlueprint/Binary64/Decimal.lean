/-
# Binary64 numbers in decimal

A number is written with the fewest digits that read back to it; of two such
decimals of one length the nearer is taken, and the one with the even last digit
if both are equally near. The digits are laid out positionally as long as the
first of them stands from four places behind the point to sixteen before it, and
otherwise with a signed exponent of at least two digits.

Key definitions: `Binary64.shortest`, `Binary64.toText`.
-/
import VoxelBlueprint.Binary64.Basic

namespace VoxelBlueprint
namespace Binary64

/-- The decimal `digits * 10 ^ exponent`. -/
structure Decimal where
  digits : Nat
  exponent : Int

/-- Whether `num / den` is below `10 ^ k`. -/
def belowPower (num den : Nat) (k : Int) : Bool :=
  num * Nat.pow 10 (-k).toNat < den * Nat.pow 10 k.toNat

/-- The least `k` with `num / den < 10 ^ k`, both positive. The guess from the
binary logarithm is at most two too small. -/
def decimalScale (num den : Nat) : Int :=
  let guess := (((num.log2 : Int) - den.log2 - 1) * 30103).fdiv 100000
  if belowPower num den guess then guess
  else if belowPower num den (guess + 1) then guess + 1
  else if belowPower num den (guess + 2) then guess + 2
  else guess + 3

/-- Whether the decimal reads back to the number, its sign aside. -/
def Finite.readsBack (x : Finite) (d : Decimal) : Bool :=
  ofDecimal x.negative d.digits d.exponent == .finite x

/-- The decimal with the given exponent that is nearest to the number among those
that read back to it, if there is one. Only its two neighbours on the grid of that
exponent come into question. -/
def Finite.onGrid? (x : Finite) (exponent : Int) : Option Decimal :=
  let num := x.ratio.1 * Nat.pow 10 (-exponent).toNat
  let den := x.ratio.2 * Nat.pow 10 exponent.toNat
  let low := num / den
  let lower : Decimal := ⟨low, exponent⟩
  let upper : Decimal := ⟨low + 1, exponent⟩
  match x.readsBack lower, x.readsBack upper with
  | true, false => some lower
  | false, true => some upper
  | false, false => none
  | true, true => if roundDiv num den = low then some lower else some upper

/-- The fewest digits that read back to a number other than zero. Seventeen
suffice; the exact value stands in where none are found. -/
def Finite.shortest (x : Finite) : Decimal :=
  let scale := decimalScale x.ratio.1 x.ratio.2
  match (List.range 17).findSome? fun (n : Nat) => x.onGrid? (scale - (n + 1)) with
  | some d => d
  | none => ⟨x.ratio.1 * Nat.pow 5 (-x.exponent).toNat, min 0 x.exponent⟩

/-- The digits of a decimal without the zeros at their end, and the place of the
point counted from their start. -/
def Decimal.significant (d : Decimal) : List Char × Int :=
  let digits := (toString d.digits).toList
  ((digits.reverse.dropWhile (· == '0')).reverse, digits.length + d.exponent)

/-- The digits laid out around the point, which stands `point` places from their start. -/
def layOut (digits : List Char) (point : Int) : List Char :=
  if -4 < point ∧ point ≤ 16 then
    if point ≤ 0 then '0' :: '.' :: List.replicate (-point).toNat '0' ++ digits
    else if point < digits.length then
      digits.take point.toNat ++ '.' :: digits.drop point.toNat
    else digits ++ List.replicate (point.toNat - digits.length) '0' ++ ['.', '0']
  else
    let lead := digits.take 1 ++ if digits.length ≤ 1 then [] else '.' :: digits.drop 1
    let power := (toString (point - 1).natAbs).toList
    let sign := if point ≤ 0 then '-' else '+'
    lead ++ 'e' :: sign :: (if power.length < 2 then '0' :: power else power)

/-- A finite number in decimal. -/
def Finite.toText (x : Finite) : String :=
  let shown :=
    if x.mantissa = 0 then ['0', '.', '0']
    else
      let (digits, point) := x.shortest.significant
      layOut digits point
  String.ofList (if x.negative then '-' :: shown else shown)

/-- The number in decimal. -/
def toText : Binary64 → String
  | .nan => "nan"
  | .infinite false => "inf"
  | .infinite true => "-inf"
  | .finite x => x.toText

end Binary64
end VoxelBlueprint
