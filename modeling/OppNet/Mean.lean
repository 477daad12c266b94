import OppNet.Quantity

/-!
# OppNet.Mean

Running arithmetic means. A mean keeps the sum, which starts at the first value and grows in the
order of recording, and the count it is divided by.
-/

namespace OppNet

/-- The values seen so far, as their sum and their number; `none` before the first one. -/
structure Mean where
  total : Option (Float × Nat) := none
  deriving DecidableEq, Repr, Inhabited

namespace Mean

def empty : Mean := {}

def record (m : Mean) (x : Float) : Mean :=
  match m.total with
  | none => ⟨some (x, 1)⟩
  | some (sum, count) => ⟨some (sum + x, count + 1)⟩

/-- The mean so far; there is none of no values. -/
def value? (m : Mean) : Option Float :=
  m.total.map fun (sum, count) => sum / Float.ofNat count

/-- The mean of a list, recorded from the front. -/
def ofList? (xs : List Float) : Option Float :=
  (xs.foldl record empty).value?

end Mean

end OppNet
