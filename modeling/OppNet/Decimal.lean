import OppNet.Binary64

/-!
# OppNet.Decimal

Decimal roundings of exact magnitudes, in natural numbers throughout.

- `roundHalfEven` rounds a quotient to the nearest integer, ties to the even one.
- `Ratio` is a magnitude as a quotient of naturals.
- `Ratio.fixed` rounds to a number of places, `Ratio.significant` to a number of digits.
-/

namespace OppNet.Decimal

/-- The integer nearest to `n / d`; of two equally near ones, the even one. -/
def roundHalfEven (n d : Nat) : Nat :=
  if 2 * (n % d) < d then n / d
  else if d < 2 * (n % d) then n / d + 1
  else n / d + n / d % 2

def digitCount (n : Nat) : Nat :=
  (Nat.toDigits 10 n).length

def padded (width n : Nat) : String :=
  "".pushn '0' (width - digitCount n) ++ toString n

/-- A magnitude `numerator / denominator`. -/
structure Ratio where
  numerator : Nat
  denominator : Nat
  deriving DecidableEq, Repr

def Ratio.ofBinary (significand : Nat) (exponent : Int) : Ratio :=
  if 0 ≤ exponent then ⟨significand * 2 ^ exponent.toNat, 1⟩
  else ⟨significand, 2 ^ (-exponent).toNat⟩

def Ratio.scale (r : Ratio) (exponent : Int) : Ratio :=
  if 0 ≤ exponent then { r with numerator := r.numerator * 10 ^ exponent.toNat }
  else { r with denominator := r.denominator * 10 ^ (-exponent).toNat }

def Ratio.nearest (r : Ratio) : Nat :=
  roundHalfEven r.numerator r.denominator

/-- The number of `10 ^ (-places)` units nearest to `r`, ties to even. -/
def Ratio.fixed (places : Nat) (r : Ratio) : Nat :=
  (r.scale places).nearest

/--
The exponent `e` with `10 ^ e ≤ r < 10 ^ (e + 1)`, and zero for zero. Below one, the digit count of
the inverse decides, less one when the inverse is a power of ten itself.
-/
def Ratio.decimalExponent (r : Ratio) : Int :=
  if r.numerator = 0 then 0
  else if r.denominator ≤ r.numerator then
    digitCount (r.numerator / r.denominator) - 1
  else
    let count := digitCount (r.denominator / r.numerator)
    if r.denominator = r.numerator * 10 ^ (count - 1) then 1 - count else -count

/-- `d.dd… * 10 ^ exponent`, where `digits` holds all the digits as one integer. -/
structure Scientific where
  digits : Nat
  exponent : Int
  deriving DecidableEq, Repr

/-- The nearest number of `count` significant digits; rounding up to a power of ten carries. -/
def Ratio.significant (count : Nat) (r : Ratio) : Scientific :=
  let exponent := r.decimalExponent
  let digits := (r.scale (count - 1 - exponent)).nearest
  if digits = 10 ^ count then ⟨10 ^ (count - 1), exponent + 1⟩ else ⟨digits, exponent⟩

end OppNet.Decimal
