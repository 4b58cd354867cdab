import DashboardMarkup.Number.Double

/-!
# Shortest decimal text of a double

A double is written with the fewest digits that read back as the same double, and among those with
the digits nearest to its value, an exact tie going to the even last digit.

A decimal reads back exactly when it lies in the interval of values that round to the double, ends
included iff the mantissa is even. The grids of decimals `d * 10 ^ k` are tried from the coarsest
on; if a grid has a point in the interval, then one of the two neighbours of the value on that grid
is in it, so only these are tested.
-/

namespace DashboardMarkup.Double

/-- Three points in units of a quarter of the last place: the lower end of the interval of values that
round to a number, the number itself, and the upper end. The gap below a power of two is half as
wide as the gap above it. -/
def interval (x : Double) : Nat × Nat × Nat :=
  let below := if x.mantissa == 1 <<< 52 && minExponent < x.exponent then 1 else 2
  (4 * x.mantissa - below, 4 * x.mantissa, 4 * x.mantissa + 2)

/-- A point of the interval, scaled to be comparable with `onGrid`. -/
def onInterval (x : Double) (k : Int) (point : Nat) : Nat :=
  (point * Nat.pow 10 (-k).toNat) <<< (x.exponent - 2).toNat

/-- The decimal `d * 10 ^ k`, scaled to be comparable with `onInterval`. -/
def onGrid (x : Double) (k : Int) (d : Nat) : Nat :=
  (d * Nat.pow 10 k.toNat) <<< (2 - x.exponent).toNat

/-- Whether the decimal `d * 10 ^ k` reads back as `x`, its sign aside. -/
def readsBack (x : Double) (k : Int) (d : Nat) : Bool :=
  let (low, _, high) := x.interval
  let point := x.onGrid k d
  if x.mantissa % 2 == 0 then x.onInterval k low ≤ point && point ≤ x.onInterval k high
  else x.onInterval k low < point && point < x.onInterval k high

/-- The point of grid `k` that is nearest to `x` among those that read back as `x`. -/
def nearestOnGrid? (x : Double) (k : Int) : Option Nat :=
  let value := x.onInterval k x.interval.2.1
  let unit := x.onGrid k 1
  let below := value / unit
  let above := below + 1
  match readsBack x k below, readsBack x k above with
  | true, false => some below
  | false, true => some above
  | false, false => none
  | true, true =>
    let down := value - x.onGrid k below
    let up := x.onGrid k above - value
    some (if down < up || (down == up && below % 2 == 0) then below else above)

/-- A power of ten above `x`: its exponent. -/
def gridStart (x : Double) : Int :=
  ((x.mantissa.log2 : Int) + 1 + x.exponent) * 30103 / 100000 + 2

/-- The digits and the power of ten of the shortest decimal that reads back as `x`. -/
def shortest (x : Double) : Nat × Int :=
  let grids := (List.range 24).map fun (i : Nat) => x.gridStart - (i : Int)
  (grids.findSome? fun k => (x.nearestOnGrid? k).map fun d => (d, k)).getD (0, 0)

/-- Which powers of ten of the leading digit are written without an exponent. -/
structure DecimalStyle where
  least : Int
  most : Int
  deriving DecidableEq, Repr

/-- Numbers from `0.00001` up to, but without, `10 ^ 16` are written without an exponent. -/
def plainStyle : DecimalStyle := ⟨-5, 15⟩

/-- The text of the number `digits * 10 ^ k` for a digit text without trailing zeros. Without an
exponent there is a digit on each side of the point; with one, the exponent has a sign. -/
def layOut (style : DecimalStyle) (digits : List Char) (k : Int) : List Char :=
  let lead : Int := k + digits.length - 1
  if style.least ≤ lead && lead ≤ style.most then
    if lead < 0 then
      "0.".toList ++ List.replicate (-lead - 1).toNat '0' ++ digits
    else if 0 ≤ k then
      digits ++ List.replicate k.toNat '0' ++ ".0".toList
    else
      digits.take (lead + 1).toNat ++ '.' :: digits.drop (lead + 1).toNat
  else
    let fraction := digits.drop 1
    digits.take 1 ++ (if fraction.isEmpty then [] else '.' :: fraction) ++
      'e' :: (if lead < 0 then '-' else '+') :: Nat.toDigits 10 lead.natAbs

/-- The text of a double. -/
def write (x : Double) : List Char :=
  let unsigned :=
    if x.mantissa == 0 then "0.0".toList
    else
      let (d, k) := x.shortest
      let digits := Nat.toDigits 10 d
      let kept := (digits.reverse.dropWhile (· == '0')).reverse
      layOut plainStyle kept (k + (digits.length - kept.length : Nat))
  if x.negative then '-' :: unsigned else unsigned

end DashboardMarkup.Double
