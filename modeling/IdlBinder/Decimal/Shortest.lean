import IdlBinder.Decimal.Binary64

set_option autoImplicit false

/-!
# The shortest decimal of a double

Of all decimals that read back as a given double, the ones with the fewest digits lie on the
coarsest grid of multiples of a power of ten that meets the double's rounding interval. The
interval holds a point of a grid exactly when it holds one of the two grid neighbours of the double
itself, so a search over grids tests two points on each.

The text of a double is the shortest decimal, positional between `1e-4` and `1e16`.
-/

namespace IdlBinder.Decimal

/-- The decimal number `digits · 10 ^ exponent`. -/
structure Scaled where
  digits : Nat
  exponent : Int

/-- The rounding interval of a positive double in quarters of its last place: the lower end, the
double and the upper end are `low`, `mid` and `high` times `2 ^ exponent`. -/
structure Interval where
  low : Nat
  mid : Nat
  high : Nat
  exponent : Int
  /-- Both ends belong to the interval. -/
  closed : Bool

/-- The reals that round to a double. Below a power of two the neighbour is only half as far. -/
def interval (x : Binary64) : Interval where
  low := 4 * x.significand - (if x.fractionField = 0 && 1 < x.exponentField then 1 else 2)
  mid := 4 * x.significand
  high := 4 * x.significand + 2
  exponent := x.exponent - 2
  closed := x.significand % 2 == 0

/-- Whether `lo ≤ p ≤ hi`, the ends counting when the interval is closed. -/
def within (closed : Bool) (lo p hi : Nat) : Bool :=
  if closed then lo ≤ p && p ≤ hi else lo < p && p < hi

/-- The multiple of `10 ^ i` that an interval holds, if any: of the two neighbours of its middle the
nearer one, and the larger one of two that are equally near. -/
def onGrid (v : Interval) (i : Int) : Option Scaled :=
  -- a grid step and a quarter place, both multiplied by the denominators that make them whole
  let step := Nat.pow 10 i.toNat * Nat.pow 2 (-v.exponent).toNat
  let unit := Nat.pow 2 v.exponent.toNat * Nat.pow 10 (-i).toNat
  let below := v.mid * unit / step
  let holds (d : Nat) : Bool := within v.closed (v.low * unit) (d * step) (v.high * unit)
  let nearerAbove : Bool := step ≤ 2 * (v.mid * unit - below * step)
  if holds (below + 1) && (nearerAbove || !holds below) then some ⟨below + 1, i⟩
  else if holds below then some ⟨below, i⟩
  else none

/-- A power of ten above a positive double, at most three steps too high. -/
def topGrid (x : Binary64) : Int :=
  let e : Int := (x.significand.log2 : Int) + x.exponent
  e * 30103 / 100000 + 2

/-- The shortest decimal of a positive finite double, searched from coarse grids to fine ones. -/
def shortest (x : Binary64) : Scaled :=
  let v := interval x
  let top := topGrid x
  ((List.range 24).findSome? fun (n : Nat) => onGrid v (top - n)).getD ⟨v.mid, v.exponent⟩

/-! ## Text -/

/-- The decimal digits of a natural number. -/
def digitChars (n : Nat) : List Char := Nat.toDigits 10 n

/-- The least and the greatest exponent of a leading digit that is written positionally. -/
def positionalExponents : Int × Int := (-4, 15)

/-- A decimal without an exponent part and with a fraction part. -/
def positional (digits : List Char) (point : Int) : List Char :=
  if point ≤ 0 then '0' :: '.' :: (List.replicate (-point).toNat '0' ++ digits)
  else if digits.length ≤ point.toNat then
    digits ++ List.replicate (point.toNat - digits.length) '0' ++ ['.', '0']
  else digits.take point.toNat ++ '.' :: digits.drop point.toNat

/-- A decimal with one digit in front of the point, and no point after a single digit. -/
def scientific (digits : List Char) (lead : Int) : List Char :=
  let mantissa := match digits with
    | d :: e :: rest => d :: '.' :: e :: rest
    | single => single
  let sign := if lead < 0 then ['-'] else []
  mantissa ++ 'e' :: (sign ++ digitChars lead.natAbs)

/-- The text of the magnitude of a finite double. -/
def magnitudeText (x : Binary64) : List Char :=
  if x.isZero then ['0', '.', '0']
  else
    let d := shortest x
    let digits := digitChars d.digits
    let lead : Int := d.exponent + digits.length - 1
    if positionalExponents.1 ≤ lead && lead ≤ positionalExponents.2 then
      positional digits (lead + 1)
    else scientific digits lead

/-- The text of a double. -/
def text (x : Binary64) : String :=
  if x.isFinite then
    String.ofList ((if x.isNegative then ['-'] else []) ++ magnitudeText x)
  else if x.fractionField ≠ 0 then "NaN"
  else if x.isNegative then "-inf" else "inf"

end IdlBinder.Decimal
