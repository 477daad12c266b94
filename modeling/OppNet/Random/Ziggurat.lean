import OppNet.Random.Generator
import OppNet.Random.ZigguratTable

/-!
# OppNet.Random.Ziggurat

Exponential and normal draws by the ziggurat method: a layer and a point across it are taken from
one word; a point within the next narrower layer is accepted at once, one in the base layer beyond
it leads to the tail, and any other is accepted with the density above the layer.
-/

namespace OppNet.Random.Ziggurat

variable {σ : Type} [Source σ]

/-- One attempt with the layer and the point `u` across it that a word stands for. -/
def attempt (table : ZigguratTable) (point : UInt64 → Float) (width : Float → Float)
    (density : Float → Float) (tail : Float → Draw σ Float) : Draw σ (Option Float) := do
  let w ← Draw.word
  let i := (w &&& 0xff).toNat
  let u := point w
  let x := u * table.edge i
  if width x < table.edge (i + 1) then return some x
  else if i = 0 then return some (← tail u)
  else
    let gap := table.height i - table.height (i + 1)
    let v ← Draw.unit
    if table.height (i + 1) + gap * v < density x then return some x else return none

def exponentialTailStart : Float := 7.697117470131050077

/-- Beyond its start the tail is the density itself. -/
def exponentialTail (_ : Float) : Draw σ Float := do
  let v ← Draw.unit
  return exponentialTailStart - v.log

def exponential : Draw σ Float :=
  Draw.untilSome
    (attempt .exponential Draw.openUnitOf (fun x => x) (fun x => (-x).exp) exponentialTail)
    Draw.attempts

def normalTailStart : Float := 3.654152885361008796

/-- One attempt at a distance beyond the start of the tail. -/
def tryNormalTail : Draw σ (Option Float) := do
  let a ← Draw.openUnit
  let b ← Draw.openUnit
  let x := a.log / normalTailStart
  let y := b.log
  if -2.0 * y < x * x then return none else return some x

/-- A point beyond the start of the tail, on the side of `u`. -/
def normalTail (u : Float) : Draw σ Float := do
  let x ← Draw.untilSome tryNormalTail Draw.attempts
  return if u < 0.0 then x - normalTailStart else normalTailStart - x

def normal : Draw σ Float :=
  Draw.untilSome
    (attempt .normal (fun w => Draw.twoToFour w - 3.0) Float.abs (fun x => (-x * x / 2.0).exp)
      normalTail)
    Draw.attempts

end OppNet.Random.Ziggurat
