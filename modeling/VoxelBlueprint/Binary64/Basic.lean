/-
# Binary64 numbers

The numbers of the format binary64 with exact integer data: a finite number is
`mantissa * 2 ^ exponent` with a sign of its own, in the one form that the format
gives it (the mantissa has all 53 bits unless the exponent is the least). A
decimal is read by rounding its exact value to the nearest number of the format,
ties to the even mantissa; beyond the greatest number it becomes infinite.

Key definitions: `Binary64`, `Binary64.ofRatio`, `Binary64.ofDecimal`,
`Binary64.truncate`.
-/

namespace VoxelBlueprint

/-- A finite binary64 number, `mantissa * 2 ^ exponent` with a sign. -/
structure Binary64.Finite where
  negative : Bool
  mantissa : Nat
  exponent : Int
  mantissa_lt : mantissa < Nat.pow 2 53 := by decide
  exponent_ge : -1074 ≤ exponent := by decide
  exponent_le : exponent ≤ 971 := by decide
  deriving DecidableEq

/-- A binary64 number. There is one that is not a number. -/
inductive Binary64 where
  | nan
  | infinite (negative : Bool)
  | finite (value : Binary64.Finite)
  deriving DecidableEq

namespace Binary64

/-- Zero with the given sign. -/
def zero (negative : Bool) : Binary64 :=
  .finite { negative, mantissa := 0, exponent := -1074 }

/-- The quotient rounded to the nearest natural number, ties to the even one. -/
def roundDiv (num den : Nat) : Nat :=
  let q := num / den
  let r := num % den
  if 2 * r < den then q
  else if den < 2 * r then q + 1
  else if q % 2 = 0 then q
  else q + 1

/-- The quotient `num / (den * 2 ^ exponent)`, rounded. -/
def scaledDiv (num den : Nat) (exponent : Int) : Nat :=
  roundDiv (num * Nat.pow 2 (-exponent).toNat) (den * Nat.pow 2 exponent.toNat)

/-- The floor of the binary logarithm of `num / den`, both positive. -/
def ratioLog (num den : Nat) : Int :=
  let guess := (num.log2 : Int) - den.log2
  if num * Nat.pow 2 (-guess).toNat < den * Nat.pow 2 guess.toNat then guess - 1 else guess

/-- The number of the format with this mantissa and exponent, infinite if it is
too large. A mantissa of `2 ^ 53` is what rounding up the greatest one gives. -/
def ofParts (negative : Bool) (mantissa : Nat) (exponent : Int) : Binary64 :=
  let (m, e) :=
    if mantissa = Nat.pow 2 53 then (Nat.pow 2 52, exponent + 1) else (mantissa, exponent)
  if h : m < Nat.pow 2 53 ∧ -1074 ≤ e ∧ e ≤ 971 then
    .finite ⟨negative, m, e, h.1, h.2.1, h.2.2⟩
  else .infinite negative

/-- The number nearest to `num / den`, for a positive `den`. -/
def ofRatio (negative : Bool) (num den : Nat) : Binary64 :=
  if num = 0 then zero negative
  else
    let exponent := max (-1074) (ratioLog num den - 52)
    ofParts negative (scaledDiv num den exponent) exponent

/-- The number nearest to `digits * 10 ^ exponent`. The first two cases after zero
only spare the powers: a number of 310 digits before the point is too large, and
one that starts more than 330 places behind it is nearer to zero than to any other. -/
def ofDecimal (negative : Bool) (digits : Nat) (exponent : Int) : Binary64 :=
  let magnitude := ((toString digits).length : Int) + exponent
  if digits = 0 then zero negative
  else if 310 < magnitude then .infinite negative
  else if magnitude < -330 then zero negative
  else ofRatio negative (digits * Nat.pow 10 exponent.toNat) (Nat.pow 10 (-exponent).toNat)

/-- The absolute value as a quotient. -/
def Finite.ratio (x : Finite) : Nat × Nat :=
  (x.mantissa * Nat.pow 2 x.exponent.toNat, Nat.pow 2 (-x.exponent).toNat)

/-- The number without its part behind the point. -/
def Finite.truncate (x : Finite) : Int :=
  let whole := x.ratio.1 / x.ratio.2
  if x.negative then -(whole : Int) else whole

/-- Whether the number has no part behind the point. -/
def Finite.isWhole (x : Finite) : Bool :=
  x.ratio.1 % x.ratio.2 == 0

/-- Whether the number is neither infinite nor undefined. -/
def isFinite : Binary64 → Bool
  | .finite _ => true
  | _ => false

/-- Whether the number is zero of either sign. -/
def isZero : Binary64 → Bool
  | .finite x => x.mantissa == 0
  | _ => false

/-- The number without its part behind the point, if it is finite. -/
def truncate? : Binary64 → Option Int
  | .finite x => some x.truncate
  | _ => none

end Binary64
end VoxelBlueprint
