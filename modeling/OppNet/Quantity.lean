import OppNet.Decimal.Layout

/-!
# OppNet.Quantity

Instants and durations of the simulation clock, in seconds.

Both are *ordered* by the total order of doubles and *compared for equality* numerically: an
instant at `-0.0` is before one at `0.0` although the two are `==`.
-/

namespace OppNet

structure Time where
  ofDouble ::
  double : Double
  deriving DecidableEq, Repr, Inhabited

/-- A duration in seconds; it may be negative. -/
structure TimeSpan where
  ofDouble ::
  double : Double
  deriving DecidableEq, Repr, Inhabited

namespace Time

abbrev mk (sinceStart : Float) : Time := ⟨sinceStart⟩

def sinceStart (t : Time) : Float := t.double.toFloat

def start : Time := ⟨0.0⟩

/-- The earliest finite instant, where every clock begins. -/
def earliest : Time := ⟨Binary64.lowest⟩

instance : BEq Time := ⟨fun s t => s.sinceStart == t.sinceStart⟩

instance : Ord Time := ⟨fun s t => compare s.double t.double⟩

instance : LT Time := ltOfOrd

instance : LE Time := leOfOrd

instance (s t : Time) : Decidable (s < t) := inferInstanceAs (Decidable (compare s t = .lt))

instance (s t : Time) : Decidable (s ≤ t) := inferInstanceAs (Decidable ((compare s t).isLE))

def since (t s : Time) : TimeSpan := ⟨t.double - s.double⟩

def after (t : Time) (d : TimeSpan) : Time := ⟨t.double + d.double⟩

def before (t : Time) (d : TimeSpan) : Time := ⟨t.double - d.double⟩

/-- Four decimals and a `t`. -/
def text (t : Time) : String :=
  Decimal.fixedText 4 t.double ++ "t"

instance : ToString Time := ⟨text⟩

end Time

namespace TimeSpan

abbrev mk (seconds : Float) : TimeSpan := ⟨seconds⟩

def seconds (a : TimeSpan) : Float := a.double.toFloat

def zero : TimeSpan := ⟨0.0⟩

instance : BEq TimeSpan := ⟨fun a b => a.seconds == b.seconds⟩

instance : Ord TimeSpan := ⟨fun a b => compare a.double b.double⟩

instance : LT TimeSpan := ltOfOrd

instance : LE TimeSpan := leOfOrd

instance (a b : TimeSpan) : Decidable (a < b) := inferInstanceAs (Decidable (compare a b = .lt))

instance (a b : TimeSpan) : Decidable (a ≤ b) := inferInstanceAs (Decidable ((compare a b).isLE))

instance : Add TimeSpan := ⟨fun a b => ⟨a.double + b.double⟩⟩

instance : Sub TimeSpan := ⟨fun a b => ⟨a.double - b.double⟩⟩

def scale (k : Float) (a : TimeSpan) : TimeSpan := .mk (k * a.seconds)

def split (a : TimeSpan) (k : Float) : TimeSpan := .mk (a.seconds / k)

def ratio (a b : TimeSpan) : Float := a.seconds / b.seconds

def isNegative (a : TimeSpan) : Bool := a.seconds < 0.0

/-- Numerically zero, of either sign. -/
def isZero (a : TimeSpan) : Bool := a.seconds == 0.0

/-- Three significant digits, a metric letter and an `s`, where the number has such a text. -/
def text? (a : TimeSpan) : Option String :=
  (Decimal.engineeringText? a.seconds).map (· ++ "s")

end TimeSpan

end OppNet
