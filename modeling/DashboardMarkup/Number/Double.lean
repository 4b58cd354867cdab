/-!
# Double precision

The finite numbers of the IEEE 754 format with fifty-three significant bits. A number is kept as sign,
mantissa and power of two, so that every operation is exact arithmetic on natural numbers followed by
one rounding, to the nearest number and on a tie to the even mantissa.
-/

namespace DashboardMarkup

/-- The number `mantissa * 2 ^ exponent` with a sign. Rounding yields mantissas below `2 ^ 53`, with
the top bit set unless the exponent is the least one. -/
structure Double where
  negative : Bool
  mantissa : Nat
  exponent : Int
  deriving DecidableEq, Repr

namespace Double

/-- The exponent of the least positive number. -/
def minExponent : Int := -1074

/-- The exponent of the largest numbers. -/
def maxExponent : Int := 971

/-- Zero with a sign. -/
def zero (negative : Bool) : Double := ⟨negative, 0, minExponent⟩

/-- The quotient of two natural numbers, rounded to the nearest and on a tie to the even one. -/
def roundDiv (num den : Nat) : Nat :=
  let quotient := num / den
  let rest := num % den
  if den < 2 * rest || (2 * rest == den && quotient % 2 == 1) then quotient + 1 else quotient

/-- Whether `2 ^ e` is at most `num / den`. -/
def powerFits (e : Int) (num den : Nat) : Bool :=
  den <<< e.toNat ≤ num <<< (-e).toNat

/-- The exponent of the largest power of two that is at most `num / den`. -/
def leadingExponent (num den : Nat) : Int :=
  let e : Int := (num.log2 : Int) - (den.log2 : Int)
  if powerFits e num den then e else e - 1

/-- The number nearest to `num / den`, or none if that is too large. -/
def nearest? (negative : Bool) (num den : Nat) : Option Double :=
  if num == 0 then some (zero negative)
  else
    let q := max (leadingExponent num den - 52) minExponent
    let m := roundDiv (num <<< (-q).toNat) (den <<< q.toNat)
    let rounded : Double :=
      if m == 1 <<< 53 then ⟨negative, 1 <<< 52, q + 1⟩ else ⟨negative, m, q⟩
    if maxExponent < rounded.exponent then none else some rounded

/-- The size of a number as a fraction. -/
def ratio (x : Double) : Nat × Nat :=
  (x.mantissa <<< x.exponent.toNat, 1 <<< (-x.exponent).toNat)

/-- The rounded product, with the sign of the first factor; none if it is too large. -/
def scaleUp? (x factor : Double) : Option Double :=
  let (a, b) := x.ratio
  let (c, d) := factor.ratio
  nearest? x.negative (a * c) (b * d)

/-- The rounded quotient, with the sign of the dividend; none if it is too large. -/
def scaleDown? (x divisor : Double) : Option Double :=
  let (a, b) := x.ratio
  let (c, d) := divisor.ratio
  nearest? x.negative (a * d) (b * c)

/-- The number nearest to a whole number. -/
def ofInt (z : Int) : Double :=
  (nearest? (z < 0) z.natAbs 1).getD (zero (z < 0))

end Double

end DashboardMarkup
