/-!
# OppNet.Binary64

Doubles as 64-bit words.

- `rankOf` places every word on one line, `-NaN < -∞ < … < -0.0 < 0.0 < … < +∞ < NaN`. This is the
  total order of doubles.
- `meritCompare` is the same line with the two zeros at one point, and all NaNs at another one.
- `Magnitude` is the exact value of a double without its sign.
- `Double` is a double of which nothing is lost: a `Float` has one NaN only, and the total order
  tells many apart.

The operators `==` and `<` of `Float` remain the numeric ones: `-0.0 == 0.0` holds, and a NaN
equals nothing, itself included.
-/

namespace OppNet

/-- Powers are those of core, whatever else is imported. -/
@[default_instance high]
scoped instance (priority := high) corePow : Pow Nat Nat := instPowNat

end OppNet

namespace OppNet.Binary64

def signBit : UInt64 := 0x8000000000000000

def isNegative (x : Float) : Bool :=
  signBit ≤ x.toBits

/-- Position on the line of all words: those with the sign bit set count downwards. -/
def rankOf (word : UInt64) : UInt64 :=
  if signBit ≤ word then ~~~word else word + signBit

def rank (x : Float) : UInt64 := rankOf x.toBits

/-- `rank` with `-0.0` moved onto `0.0`. -/
def meritRank (x : Float) : UInt64 :=
  if x == 0.0 then signBit else rank x

/-- The order of sort keys: both zeros are equal, and the NaN equals itself and is greatest. -/
def meritCompare (x y : Float) : Ordering :=
  compare (meritRank x) (meritRank y)

/-- The larger of two doubles, where a NaN gives way to the other one. -/
def largerOf (x y : Float) : Float :=
  if x.isNaN || x < y then y else x

def infinity : Float := Float.ofBits 0x7ff0000000000000

/-- The most negative finite double. -/
def lowest : Float := Float.ofBits 0xffefffffffffffff

inductive Magnitude where
  /-- Exactly `significand * 2 ^ exponent`. -/
  | finite (significand : Nat) (exponent : Int)
  | infinite
  | nan
  deriving DecidableEq, Repr

def exponentField (x : Float) : Nat :=
  x.toBits.toNat / 2 ^ 52 % 2 ^ 11

def fractionField (x : Float) : Nat :=
  x.toBits.toNat % 2 ^ 52

def minExponent : Int := -1074

/-- An exponent field of zero has no hidden bit and shares the exponent of field one. -/
def magnitude (x : Float) : Magnitude :=
  if exponentField x = 2047 then
    if fractionField x = 0 then .infinite else .nan
  else if exponentField x = 0 then
    .finite (fractionField x) minExponent
  else
    .finite (2 ^ 52 + fractionField x) (exponentField x + minExponent - 1)

end OppNet.Binary64

namespace OppNet

open Binary64 (signBit rankOf)

/-- A double by its word. -/
structure Double where
  word : UInt64
  deriving DecidableEq, Repr, Inhabited

namespace Double

def ofFloat (x : Float) : Double := ⟨x.toBits⟩

/-- The number, or the NaN whichever it is. -/
def toFloat (x : Double) : Float := Float.ofBits x.word

instance : Coe Float Double := ⟨ofFloat⟩

instance : OfScientific Double :=
  ⟨fun m negative e => ofFloat (OfScientific.ofScientific m negative e)⟩

/-- The total order. -/
instance : Ord Double := ⟨fun x y => compare (rankOf x.word) (rankOf y.word)⟩

def isNegative (x : Double) : Bool := signBit ≤ x.word

def unsigned (x : Double) : Double := ⟨x.word &&& ~~~signBit⟩

/--
The outcome of an operation on `x`, of which the number is `y`. If both are NaNs the outcome is that
of `x`. Its sign is up to the machine, and left out here.
-/
def outcome (x : Double) (y : Float) : Double :=
  if x.toFloat.isNaN && y.isNaN then x.unsigned else ofFloat y

instance : Add Double := ⟨fun x y => x.outcome (x.toFloat + y.toFloat)⟩

instance : Sub Double := ⟨fun x y => x.outcome (x.toFloat - y.toFloat)⟩

end Double

end OppNet
