import IdlBinder.Json.Basic

set_option autoImplicit false

/-!
# Number literals

A literal is a sign, whole digits, fraction digits and a power of ten. Its digits are taken into a
significand of 64 bits for as long as they fit: further whole digits only scale it, further fraction
digits are dropped. A literal that is no integer is the significand as a double, times or divided by
a power of ten as a double; each step is rounded.
-/

namespace IdlBinder.Json

/-- The parts of a number literal; `exponent` holds its sign and digits. -/
structure Numeral where
  negative : Bool
  whole : List Char
  fraction : Option (List Char)
  exponent : Option (Bool × List Char)

namespace Numeral

/-! ## Parts of a literal -/

/-- The sign and what follows it. -/
def splitSign : List Char → Bool × List Char
  | '-' :: rest => (true, rest)
  | cs => (false, cs)

/-- Digits without a needless zero in front. -/
def isWhole : List Char → Bool
  | [] => false
  | ['0'] => true
  | c :: _ => c != '0'

/-- The fraction digits after a point, and what follows them. -/
def splitFraction : List Char → Option (Option (List Char) × List Char)
  | '.' :: rest =>
    let digits := rest.takeWhile Char.isDigit
    if digits.isEmpty then none else some (some digits, rest.dropWhile Char.isDigit)
  | cs => some (none, cs)

/-- The sign of an exponent, which may be a plus. -/
def splitExponentSign : List Char → Bool × List Char
  | '+' :: rest => (false, rest)
  | '-' :: rest => (true, rest)
  | cs => (false, cs)

/-- The exponent part, which ends the literal. -/
def exponentPart : List Char → Option (Option (Bool × List Char))
  | [] => some none
  | e :: rest =>
    let (negative, digits) := splitExponentSign rest
    if (e == 'e' || e == 'E') && !digits.isEmpty && digits.all Char.isDigit then
      some (some (negative, digits))
    else none

/-- The parts of a literal, when it has the form of a JSON number. -/
def parse? (cs : List Char) : Option Numeral := do
  let (negative, unsigned) := splitSign cs
  let whole := unsigned.takeWhile Char.isDigit
  if !isWhole whole then none
  let (fraction, rest) ← splitFraction (unsigned.dropWhile Char.isDigit)
  let exponent ← exponentPart rest
  some { negative, whole, fraction, exponent }

/-! ## Value -/

/-- The value of a decimal digit. -/
def digitValue (c : Char) : Nat := c.toNat - '0'.toNat

/-- Takes digits into a number up to `limit`: the number reached and the digits left over. -/
def absorb (limit : Nat) : Nat → List Char → Nat × List Char
  | n, [] => (n, [])
  | n, c :: rest =>
    let next := n * 10 + digitValue c
    if next ≤ limit then absorb limit next rest else (n, c :: rest)

/-- The largest significand. -/
def maxSignificand : Nat := Nat.pow 2 64 - 1

/-- The largest power of ten that is a double. -/
def maxPower : Nat := 308

/-- The double nearest to a power of ten. -/
def powerOfTen (k : Nat) : Binary64 := .ofNat (Nat.pow 10 k)

/-- A number divided by `10 ^ k`, in steps that are doubles themselves. -/
def scaleDown (x : Binary64) (k : Nat) : Binary64 :=
  if _h : k ≤ maxPower then x.div (powerOfTen k)
  else if x.isZero then x
  else scaleDown (x.div (powerOfTen maxPower)) (k - maxPower)
termination_by k
decreasing_by
  have : maxPower = 308 := rfl
  omega

/-- A significand times a power of ten, or nothing when that is too large. -/
def scale (significand : Nat) (exponent : Int) : Option Binary64 :=
  let x := Binary64.ofNat significand
  if exponent < 0 then some (scaleDown x (-exponent).toNat)
  else if exponent.toNat ≤ maxPower then
    let product := x.mul (powerOfTen exponent.toNat)
    if product.isFinite then some product else none
  else if x.isZero then some x
  else none

/-- The largest exponent that is counted. -/
def maxExponent : Nat := Nat.pow 2 31 - 1

/-- A signed double as a number. -/
def real (negative : Bool) : Option Binary64 → Number
  | some x => .real (.withSign negative x)
  | none => .tooLarge

/-- The number a literal stands for. `-0` is the negative zero of the doubles. -/
def value (n : Numeral) : Number :=
  let (taken, dropped) := absorb maxSignificand 0 n.whole
  match n.fraction, n.exponent, dropped with
  | none, none, [] =>
    if !n.negative then .int taken
    else if taken = 0 || Nat.pow 2 63 < taken then real true (some (.ofNat taken))
    else .int (-taken)
  | _, _, _ =>
    let digits := n.fraction.getD []
    let (significand, ignored) := absorb maxSignificand taken digits
    let shift : Int := (dropped.length + ignored.length : Nat) - (digits.length : Int)
    match n.exponent with
    | none => real n.negative (scale significand shift)
    | some (negative, power) =>
      match absorb maxExponent 0 power with
      | (k, []) =>
        real n.negative (scale significand (if negative then shift - k else shift + k))
      | _ => real n.negative (if significand = 0 || negative then some ⟨0⟩ else none)

/-- The number a literal stands for, when it has the form of a JSON number. -/
def read? (cs : List Char) : Option Number := (parse? cs).map value

end Numeral

end IdlBinder.Json
