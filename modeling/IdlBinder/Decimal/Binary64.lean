set_option autoImplicit false

/-!
# Binary floating-point numbers

A double is kept as its 64 bits. A finite one is `± significand · 2 ^ exponent`, and everything here
is computed with natural numbers from these two: exact fractions, and the double nearest to a
fraction.
-/

namespace IdlBinder

/-- An IEEE 754 binary64 number, by its bits. -/
structure Binary64 where
  bits : UInt64
deriving DecidableEq

namespace Binary64

/-- The sign bit. -/
def isNegative (x : Binary64) : Bool := Nat.pow 2 63 ≤ x.bits.toNat

/-- The eleven bits of the biased exponent. -/
def exponentField (x : Binary64) : Nat := x.bits.toNat / Nat.pow 2 52 % Nat.pow 2 11

/-- The fifty-two bits of the fraction. -/
def fractionField (x : Binary64) : Nat := x.bits.toNat % Nat.pow 2 52

/-- Neither an infinity nor a NaN. -/
def isFinite (x : Binary64) : Bool := x.exponentField < 2047

/-- The whole number in front of the power of two. -/
def significand (x : Binary64) : Nat :=
  if x.exponentField = 0 then x.fractionField else Nat.pow 2 52 + x.fractionField

/-- The power of two. -/
def exponent (x : Binary64) : Int := (max x.exponentField 1 : Nat) - 1075

/-- Zero of either sign. -/
def isZero (x : Binary64) : Bool := x.significand == 0

/-- The number with the opposite sign. -/
def neg (x : Binary64) : Binary64 := ⟨x.bits ^^^ 0x8000000000000000⟩

/-- A number with the given sign in place of a positive one. -/
def withSign (negative : Bool) (x : Binary64) : Binary64 := if negative then x.neg else x

/-- The magnitude of a finite number as numerator and denominator. -/
def fraction (x : Binary64) : Nat × Nat :=
  if 0 ≤ x.exponent then (x.significand * Nat.pow 2 x.exponent.toNat, 1)
  else (x.significand, Nat.pow 2 (-x.exponent).toNat)

/-! ## The nearest double -/

/-- A quotient rounded to the nearest whole number, halves to the even one. -/
def roundDiv (num den : Nat) : Nat :=
  let q := num / den
  let r := num % den
  if 2 * r < den then q
  else if den < 2 * r then q + 1
  else if q % 2 = 0 then q else q + 1

/-- The multiple of `2 ^ e` nearest to `num / den`, in units of `2 ^ e`. -/
def roundAt (num den : Nat) (e : Int) : Nat :=
  if 0 ≤ e then roundDiv num (den * Nat.pow 2 e.toNat)
  else roundDiv (num * Nat.pow 2 (-e).toNat) den

/-- The power of two of the last bit of the doubles around `num / den`: the quotient has
fifty-three bits in that unit, unless it is too small for a normal double. -/
def unitExponent (num den : Nat) : Int :=
  let e : Int := (num.log2 : Int) - den.log2 - 52
  let fits : Bool :=
    if 0 ≤ e then den * Nat.pow 2 (e.toNat + 52) ≤ num
    else den * Nat.pow 2 52 ≤ num * Nat.pow 2 (-e).toNat
  max (if fits then e else e - 1) (-1074)

/-- The positive double nearest to `num / den`, infinity when the quotient is too large. A carry out
of the significand moves into the exponent field by itself. -/
def ofFraction (num den : Nat) : Binary64 :=
  if num = 0 then ⟨0⟩
  else
    let e := unitExponent num den
    let bits := (e + 1074).toNat * Nat.pow 2 52 + roundAt num den e
    ⟨UInt64.ofNat (min bits (2047 * Nat.pow 2 52))⟩

/-- The double nearest to a natural number. -/
def ofNat (n : Nat) : Binary64 := ofFraction n 1

/-- The double nearest to an integer. -/
def ofInt (i : Int) : Binary64 := withSign (i < 0) (ofNat i.natAbs)

/-- The product of two positive numbers, rounded. -/
def mul (x y : Binary64) : Binary64 :=
  ofFraction (x.fraction.1 * y.fraction.1) (x.fraction.2 * y.fraction.2)

/-- The quotient of two positive numbers, rounded. -/
def div (x y : Binary64) : Binary64 :=
  ofFraction (x.fraction.1 * y.fraction.2) (x.fraction.2 * y.fraction.1)

end Binary64

end IdlBinder
