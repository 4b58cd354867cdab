import DashboardMarkup.Number.Double
import DashboardMarkup.Number.Whole
import DashboardMarkup.Text.Case

/-!
# Decimal text of a number

A number in an attribute or a styling token is an optional sign, digits with an optional point (at
least one digit on either side), and an optional power of ten. The names `inf`, `infinity` and `nan`,
in any case of letters, count as numbers too, but stand for no finite one.
-/

namespace DashboardMarkup

/-- The number `digits * 10 ^ exponent` with a sign. -/
structure Decimal where
  negative : Bool
  digits : Nat
  exponent : Int
  deriving DecidableEq, Repr

namespace Decimal

/-- The double nearest to a decimal; none if that is too large. Decimals that are sure to be too large
or to vanish are not multiplied out. -/
def toDouble? (d : Decimal) : Option Double :=
  if d.digits == 0 then some (Double.zero d.negative)
  else if 400 < d.exponent then none
  else if d.exponent < -(400 + (d.digits.log2 : Int)) then some (Double.zero d.negative)
  else Double.nearest? d.negative (d.digits * Nat.pow 10 d.exponent.toNat)
    (Nat.pow 10 (-d.exponent).toNat)

/-- An optional sign at the front of a text: whether it is a minus, and the text after it. -/
def sign : List Char → Bool × List Char
  | '-' :: rest => (true, rest)
  | '+' :: rest => (false, rest)
  | text => (false, text)

/-- The power of ten at the end of a number: nothing, or the letter `e` and a signed digit text. -/
def power? : List Char → Option Int
  | [] => some 0
  | c :: rest =>
    if c.toLower == 'e' then
      let (negative, digits) := sign rest
      (Whole.ofDigits? digits).map fun n => if negative then -(n : Int) else (n : Int)
    else none

/-- The digits of a number before and after its point, and what follows them. -/
def mantissa (text : List Char) : List Char × List Char × List Char :=
  let whole := text.takeWhile Char.isDigit
  match text.dropWhile Char.isDigit with
  | '.' :: rest => (whole, rest.takeWhile Char.isDigit, rest.dropWhile Char.isDigit)
  | rest => (whole, [], rest)

/-- The decimal that a text spells. -/
def ofText? (text : List Char) : Option Decimal := do
  let (negative, unsigned) := sign text
  let (whole, fraction, rest) := mantissa unsigned
  if whole.isEmpty && fraction.isEmpty then none
  else
    let e ← power? rest
    return ⟨negative, Whole.value (whole ++ fraction), e - fraction.length⟩

end Decimal

/-- Whether a text names a number that is not finite. -/
def namesNonFinite (text : List Char) : Bool :=
  let name := Text.lower (Decimal.sign text).2
  name == "inf".toList || name == "infinity".toList || name == "nan".toList

/-- Whether a text is a number, finite or not. -/
def isNumber (text : List Char) : Bool :=
  (Decimal.ofText? text).isSome || namesNonFinite text

/-- The finite double that a text spells. -/
def Double.ofText? (text : List Char) : Option Double :=
  (Decimal.ofText? text).bind Decimal.toDouble?

end DashboardMarkup
