import OppNet.Binary64

/-!
# OppNet.Random.Generator

Streams of random words.

- A `Source` is any state that yields one word after another.
- `Generator` is the one behind a trace: four words of state, stirred by shifts, rotations and
  exclusive ors (`xoshiro256++`), and seeded from one word by `SplitMix64`.
- `Draw` is a computation that takes words from a source and may fail.
-/

namespace OppNet.Random

class Source (σ : Type) where
  /-- The next word, and the source after it. -/
  next : σ → UInt64 × σ

structure Generator where
  s0 : UInt64
  s1 : UInt64
  s2 : UInt64
  s3 : UInt64
  deriving DecidableEq, Repr

namespace Generator

def rotateLeft (x k : UInt64) : UInt64 := (x <<< k) ||| (x >>> (64 - k))

/-- The step between two states of the seeding sequence. -/
def seedStep : UInt64 := 0x9e3779b97f4a7c15

def seedWord (x : UInt64) : UInt64 :=
  let y := (x ^^^ (x >>> 30)) * 0xbf58476d1ce4e5b9
  let z := (y ^^^ (y >>> 27)) * 0x94d049bb133111eb
  z ^^^ (z >>> 31)

/-- The state grown from a seed: the first four outputs of the seeding sequence. -/
def ofSeed (seed : UInt64) : Generator where
  s0 := seedWord (seed + seedStep)
  s1 := seedWord (seed + 2 * seedStep)
  s2 := seedWord (seed + 3 * seedStep)
  s3 := seedWord (seed + 4 * seedStep)

def next (g : Generator) : UInt64 × Generator :=
  let word := rotateLeft (g.s0 + g.s3) 23 + g.s0
  let s2 := g.s2 ^^^ g.s0
  let s3 := g.s3 ^^^ g.s1
  (word,
    { s0 := g.s0 ^^^ s3
      s1 := g.s1 ^^^ s2
      s2 := s2 ^^^ (g.s1 <<< 17)
      s3 := rotateLeft s3 45 })

instance : Source Generator := ⟨next⟩

end Generator

inductive DrawFailure where
  /-- The parameters of the distribution admit no sample. -/
  | unsampleable
  /-- The bound on the number of attempts was reached. -/
  | exhausted
  deriving DecidableEq, Repr

abbrev Draw (σ : Type) := StateT σ (Except DrawFailure)

namespace Draw

variable {σ : Type}

def fail {α : Type} (f : DrawFailure) : Draw σ α := fun _ => .error f

/-- How often a rejection loop may try: more words than could be drawn in any run. -/
def attempts : Nat := 2 ^ 62

/-- Repeats `attempt` until it yields a result, `fuel` times at most. -/
def untilSome {α : Type} (attempt : Draw σ (Option α)) : Nat → Draw σ α
  | 0 => fail .exhausted
  | fuel + 1 => fun g =>
    match attempt g with
    | .error f => .error f
    | .ok (some a, g) => .ok (a, g)
    | .ok (none, g) => untilSome attempt fuel g

def oneToTwo (w : UInt64) : Float := Float.ofBits ((w >>> 12) ||| 0x3ff0000000000000)

def twoToFour (w : UInt64) : Float := Float.ofBits ((w >>> 12) ||| 0x4000000000000000)

def belowOne : Float := Float.ofBits 0x3fefffffffffffff

def openUnitOf (w : UInt64) : Float := oneToTwo w - belowOne

variable [Source σ]

def word : Draw σ UInt64 := fun g => .ok (Source.next g)

/-- A double in `[0, 1)` from the upper 53 bits of a word. -/
def unit : Draw σ Float := fun g =>
  let (w, g) := Source.next g
  .ok ((w >>> 11).toFloat * Float.ofBits 0x3ca0000000000000, g)

def openUnit : Draw σ Float := fun g =>
  let (w, g) := Source.next g
  .ok (openUnitOf w, g)

end Draw

end OppNet.Random
