import Std.Data.TreeMap
import OppNet.Event
import OppNet.Fault

/-!
# OppNet.Event.Queue

Pending events, earliest first. Among events of one time the one inserted last comes out first, so
an event is placed in front of the first one that is not earlier.

- `insert` refuses what lies before `now`, the time of the last event taken out.
- `pop?` takes the first event and moves `now` to it.
- `invalidateLink` aborts the pending transfers between two nodes.
- `toList` is the plain list of pending events that all of these act on.
-/

namespace OppNet.Event

/-- The place of an event in the queue; later arrivals have larger turns. -/
structure Slot where
  time : Time
  turn : Nat
  deriving DecidableEq, Repr

/-- By time, then the later arrival first. -/
instance : Ord Slot := ⟨fun a b => (compare a.time b.time).then (compare b.turn a.turn)⟩

structure Queue where
  /-- The time of the last event taken out. -/
  now : Time
  /-- The number of events inserted so far. -/
  turns : Nat
  pending : Std.TreeMap Slot Event

namespace Queue

/-- No events, and the clock before every finite time. -/
def empty : Queue := ⟨Time.earliest, 0, {}⟩

/-- The pending events in the order in which they will be taken out. -/
def toList (q : Queue) : List Event := q.pending.toList.map (·.2)

def size (q : Queue) : Nat := q.pending.size

def isEmpty (q : Queue) : Bool := q.pending.isEmpty

def count (p : Event → Bool) (q : Queue) : Nat :=
  q.pending.foldl (fun n _ e => if p e then n + 1 else n) 0

def first? (q : Queue) : Option (Slot × Event) := Id.run do
  for (slot, event) in q.pending do
    return some (slot, event)
  return none

def peekTime? (q : Queue) : Option Time := q.first?.map (·.1.time)

def insert (e : Event) (q : Queue) : Except Fault Queue :=
  if e.time < q.now then .error .eventInPast
  else
    let turn := q.turns + 1
    .ok { q with turns := turn, pending := q.pending.insert ⟨e.time, turn⟩ e }

def pop? (q : Queue) : Option (Event × Queue) :=
  q.first?.map fun (slot, e) => (e, { q with now := e.time, pending := q.pending.erase slot })

/-- Whether `e` is a transfer between the two nodes that is still valid. -/
def breaksWith (a b : NodeId) (e : Event) : Bool :=
  e.kind.isTransferBetween a b && e.kind.isValidTransfer

/-- `e`, aborted if it is a transfer between the two nodes. -/
def breakLink (a b : NodeId) (e : Event) : Event :=
  if e.kind.isTransferBetween a b then { e with kind := e.kind.abort } else e

/-- Aborts the transfers between two nodes; the number is that of the ones valid until now. -/
def invalidateLink (a b : NodeId) (q : Queue) : Nat × Queue :=
  let broken := q.count (breaksWith a b)
  if broken = 0 then (0, q)
  else (broken, { q with pending := q.pending.map fun _ e => breakLink a b e })

/-- Inserts a list from the front, up to the first event that is refused. -/
def insertAll : List Event → Queue → Except Fault Queue
  | [], q => .ok q
  | e :: rest, q =>
    match q.insert e with
    | .error f => .error f
    | .ok q => insertAll rest q

/-- Takes out every event, `fuel` of them at most. -/
def drainUpTo : Nat → Queue → List Event × Queue
  | 0, q => ([], q)
  | fuel + 1, q =>
    match q.pop? with
    | none => ([], q)
    | some (e, q) =>
      let (rest, q) := drainUpTo fuel q
      (e :: rest, q)

def drain (q : Queue) : List Event × Queue := drainUpTo q.size q

end Queue

end OppNet.Event
