import OppNet.Json.Value

/-!
# OppNet.Json.Numeral

Numbers as they are spelled, and the values they stand for.

- `ofChars?` takes a literal apart; what it refuses is not a number.
- `value` gathers the digits into a significand of 64 bits and scales it by a power of ten with one
  rounding. Digits beyond the significand only count as places.
-/

namespace OppNet.Json

structure Numeral where
  negative : Bool
  /-- The digits before the point. -/
  whole : List Nat
  /-- The digits after it. -/
  fraction : List Nat
  /-- Whether the exponent is negative, and its digits. -/
  exponent : Option (Bool × List Nat)
  deriving DecidableEq, Repr

namespace Numeral

def digits (cs : List Char) : List Nat × List Char :=
  ((cs.takeWhile Char.isDigit).map fun c => c.toNat - '0'.toNat, cs.dropWhile Char.isDigit)

def digits? (cs : List Char) : Option (List Nat × List Char) :=
  let (ds, rest) := digits cs
  if ds.isEmpty then none else some (ds, rest)

def sign (cs : List Char) : Bool × List Char :=
  match cs with
  | '-' :: rest => (true, rest)
  | '+' :: rest => (false, rest)
  | _ => (false, cs)

/-- The digits before the point: a zero stands alone. -/
def whole? (cs : List Char) : Option (List Nat × List Char) :=
  (digits? cs).filter fun (ds, _) => ds.head? ≠ some 0 || ds.length = 1

def fraction? (cs : List Char) : Option (List Nat × List Char) :=
  match cs with
  | '.' :: rest => digits? rest
  | _ => some ([], cs)

def exponent? (cs : List Char) : Option (Option (Bool × List Nat)) :=
  match cs with
  | [] => some none
  | c :: rest =>
    if c = 'e' || c = 'E' then
      let (negative, rest) := sign rest
      match digits? rest with
      | some (ds, []) => some (some (negative, ds))
      | _ => none
    else none

def ofChars? (cs : List Char) : Option Numeral :=
  let (negative, unsigned) := if cs.head? = some '-' then (true, cs.drop 1) else (false, cs)
  match whole? unsigned with
  | none => none
  | some (whole, rest) =>
    match fraction? rest with
    | none => none
    | some (fraction, rest) => (exponent? rest).map fun e => ⟨negative, whole, fraction, e⟩

def largest : Nat := 2 ^ 64 - 1

/-- Appends digits to a significand as long as it fits, and counts the ones that do not. -/
def gather : Nat → List Nat → Nat × Nat
  | n, [] => (n, 0)
  | n, d :: rest => if largest < 10 * n + d then (n, rest.length + 1) else gather (10 * n + d) rest

def isInteger (n : Numeral) : Bool := n.fraction.isEmpty && n.exponent.isNone

def powerOfTen (k : Nat) : Float := Float.ofScientific 1 false k

def maxPower : Nat := 308

/-- `x * 10 ^ k`, unless it overflows. -/
def raise? (x : Float) (k : Nat) : Option Float :=
  if maxPower < k then (if x == 0.0 then some x else none)
  else
    let y := x * powerOfTen k
    if y.isInf then none else some y

/--
`x / 10 ^ k` for a significand `x`, in steps of at most the largest power; after two such steps
nothing is left of it.
-/
def lower (x : Float) (k : Nat) : Float :=
  if k ≤ maxPower then x / powerOfTen k
  else if k ≤ 2 * maxPower then x / powerOfTen maxPower / powerOfTen (k - maxPower)
  else 0.0

def ofDigits (ds : List Nat) : Nat := ds.foldl (fun n d => 10 * n + d) 0

/-- Exponents beyond this one are not evaluated. -/
def maxExponent : Nat := 2 ^ 31 - 1

/-- `significand * 10 ^ places * 10 ^ exponent`, unless it overflows. -/
def scale? (significand : Nat) (places : Int) (exponent : Option (Bool × List Nat)) :
    Option Float :=
  let (negative, ds) := exponent.getD (false, [])
  let written := ofDigits ds
  let x := Float.ofNat significand
  if maxExponent < written then (if negative || significand = 0 then some 0.0 else none)
  else
    let total : Int := places + (if negative then -(written : Int) else written)
    if 0 ≤ total then raise? x total.toNat else some (lower x total.natAbs)

def value (n : Numeral) : Value :=
  let (whole, dropped) := gather 0 n.whole
  let (significand, unread) := gather whole n.fraction
  let places : Int := (dropped : Int) - ((n.fraction.length - unread : Nat) : Int)
  if n.isInteger && !n.negative && dropped = 0 then .nat significand
  else
    match scale? significand places n.exponent with
    | none => .unreadable
    | some x => .float (if n.negative then -x else x)

end Numeral

end OppNet.Json
