import OppNet.Random.Generator

/-!
# OppNet.Random.Uniform

Uniform draws from an interval of integers and from an interval of doubles.
-/

namespace OppNet.Random.Uniform

variable {σ : Type} [Source σ]

def words : Nat := 2 ^ 64

/--
One attempt at an integer below `range`: the upper half of the product with a word, unless the
lower half is in the part that would favour some integers.
-/
def tryBelow (range : Nat) : Draw σ (Option Nat) := fun g =>
  let (w, g) := Source.next g
  let product := w.toNat * range
  let rejected := (words - range) % range
  .ok (if product % words ≤ words - 1 - rejected then some (product / words) else none, g)

def integer (low high : Nat) : Draw σ Nat :=
  if high ≤ low then Draw.fail .unsampleable
  else fun g =>
    match Draw.untilSome (tryBelow (high - low)) Draw.attempts g with
    | .error f => .error f
    | .ok (n, g) => .ok (low + n, g)

/-- The largest double below one that a mantissa of 52 bits yields. -/
def largestUnit : Float := Float.ofBits 0x3feffffffffffffe

/-- The largest double, given by its bits or fewer, whose multiples stay below `high`. -/
def fitScale (low high : Float) : Nat → Float
  | 0 => 0.0
  | bits + 1 =>
    let scale := Float.ofBits (bits + 1).toUInt64
    if high ≤ scale * largestUnit + low then fitScale low high bits else scale

/-- A double from `low` on and below `high`; the bounds and their distance have to be finite. -/
def double (low high : Float) : Draw σ Float :=
  if low < high && (high - low).isFinite then
    let scale := fitScale low high (high - low).toBits.toNat
    fun g =>
      let (w, g) := Source.next g
      .ok ((Draw.oneToTwo w - 1.0) * scale + low, g)
  else Draw.fail .unsampleable

end OppNet.Random.Uniform
