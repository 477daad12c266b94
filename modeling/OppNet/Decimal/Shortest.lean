import OppNet.Decimal

/-!
# OppNet.Decimal.Shortest

The decimal of fewest digits that reads back as a given double, and among those the nearest one.

A decimal reads back as `m * 2 ^ q` when it lies between the midpoints to the two neighbouring
doubles; the midpoints themselves round to the even significand. `shortest` walks through the
digit counts from one to seventeen and tests the two points of each decimal grid around the value.
-/

namespace OppNet.Decimal

structure Digits where
  digits : Nat
  exponent : Int
  deriving DecidableEq, Repr

/-- A value between its two midpoints, all three over one denominator. -/
structure Reach where
  low : Nat
  value : Nat
  high : Nat
  denominator : Nat
  /-- Whether the midpoints themselves read back as the value. -/
  closed : Bool
  deriving DecidableEq, Repr

/--
The reach of `m * 2 ^ q`. At the bottom of a binade the neighbour below is only half as far away.
-/
def Reach.ofBinary (m : Nat) (q : Int) : Reach :=
  let scaled := Ratio.ofBinary 1 (q - 2)
  let below := if m = 2 ^ 52 ∧ Binary64.minExponent < q then 1 else 2
  { low := (4 * m - below) * scaled.numerator
    value := 4 * m * scaled.numerator
    high := (4 * m + 2) * scaled.numerator
    denominator := scaled.denominator
    closed := m % 2 = 0 }

/-- Whether `point` units of size `unit / denominator` lie within the reach. -/
def Reach.covers (r : Reach) (point : Nat) : Bool :=
  if r.closed then r.low ≤ point && point ≤ r.high else r.low < point && point < r.high

/-- The better of the two grid points `n` and `n + 1` around the value that read back, if any. -/
def Reach.pick (r : Reach) (unit n : Nat) : Option Nat :=
  let down := n * unit
  let up := (n + 1) * unit
  match r.covers down, r.covers up with
  | false, false => none
  | true, false => some n
  | false, true => some (n + 1)
  | true, true =>
    if r.value - down < up - r.value then some n
    else if up - r.value < r.value - down then some (n + 1)
    else some (n + n % 2)

/-- The reach with everything multiplied so that a step of `10 ^ exponent` is `denominator`. -/
def Reach.scale (r : Reach) (exponent : Int) : Reach :=
  if 0 ≤ exponent then { r with denominator := r.denominator * 10 ^ exponent.toNat }
  else
    let k := 10 ^ (-exponent).toNat
    { r with low := r.low * k, value := r.value * k, high := r.high * k }

/-- The grid point of step `10 ^ exponent` that reads back, if there is one. -/
def Reach.onGrid (r : Reach) (exponent : Int) : Option Digits :=
  let s := r.scale exponent
  (s.pick s.denominator (s.value / s.denominator)).map fun n => ⟨n, exponent⟩

/-- Drops trailing zeros, at most `fuel` of them. -/
def Digits.trim : Nat → Digits → Digits
  | 0, d => d
  | fuel + 1, d =>
    if d.digits ≠ 0 ∧ d.digits % 10 = 0 then Digits.trim fuel ⟨d.digits / 10, d.exponent + 1⟩ else d

/-- The shortest decimal that reads back as `m * 2 ^ q`; seventeen digits always do. -/
def shortest (m : Nat) (q : Int) : Digits :=
  if m = 0 then ⟨0, 0⟩
  else
    let reach := Reach.ofBinary m q
    let top := (Ratio.ofBinary m q).decimalExponent
    let found := (List.range 17).findSome? fun (k : Nat) => reach.onGrid (top - k)
    (found.getD ⟨m, 0⟩).trim 18

end OppNet.Decimal
