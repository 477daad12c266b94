import OppNet.Mean

/-!
# OppNet.History

What went into and out of a buffer, in the order in which it happened. Questions are about a window
of time that ends now: the records are read backwards, up to the first one that is older.
-/

namespace OppNet

inductive RecordKind where
  | inserted
  | dropped
  | expired
  deriving DecidableEq, Repr

structure Record where
  time : Time
  /-- What was left of the packet's lifetime; `none` where packets never expire. -/
  remaining : Option TimeSpan
  kind : RecordKind
  deriving DecidableEq, Repr

/-- What a record does to the number of entries. -/
def Record.change (r : Record) : Int :=
  match r.kind with
  | .inserted => 1
  | .dropped | .expired => -1

structure History where
  /-- The records, the latest one first. -/
  backwards : List Record
  deriving DecidableEq, Repr

namespace History

def empty : History := ⟨[]⟩

def push (r : Record) (h : History) : History := ⟨r :: h.backwards⟩

def size (h : History) : Nat := h.backwards.length

def isEmpty (h : History) : Bool := h.backwards.isEmpty

/-- The records of the last `width` of time, the latest one first. -/
def window (now : Time) (width : TimeSpan) (h : History) : List Record :=
  let start := now.before width
  h.backwards.takeWhile fun r => start ≤ r.time

def netGain (rs : List Record) : Int := rs.foldl (fun n r => n + r.change) 0

/-- Entries gained per second over the window; zero over a window that has no width. -/
def netGrowthRate (now : Time) (width : TimeSpan) (h : History) : Float :=
  if width.seconds ≤ 0.0 then 0.0
  else Float.ofInt (netGain (h.window now width)) / width.seconds

/-- The records of evictions in the window. -/
def drops (now : Time) (width : TimeSpan) (h : History) : List Record :=
  (h.window now width).filter (·.kind = .dropped)

/-- The mean remaining lifetime of what was evicted in the window. -/
def meanDropRemaining? (now : Time) (width : TimeSpan) (h : History) : Option TimeSpan :=
  let remaining := (h.drops now width).filterMap fun r => r.remaining.map (·.seconds)
  (Mean.ofList? remaining).map TimeSpan.mk

def dropsIn (now : Time) (width : TimeSpan) (h : History) : Nat := (h.drops now width).length

end History

end OppNet
