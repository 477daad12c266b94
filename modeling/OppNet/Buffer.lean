import OppNet.Buffer.Note
import OppNet.Eviction
import OppNet.History

/-!
# OppNet.Buffer

The packet buffer of one node, its expiry sweep, and the questions it answers.

- A capacity of zero means unbounded, and a lifetime of zero means that nothing expires.
- `sweep` discards what has expired. Every operation on a buffer sweeps first, so the questions
  below, which take no time, are asked of a swept buffer.
- All questions are about live packets; `livePackets` lists them from the front, both halves of an
  intact coded pair next to each other.
-/

namespace OppNet

/-- Totals of what happened to entries; a coded pair counts once. -/
structure Counters where
  inserted : Nat := 0
  dropped : Nat := 0
  expired : Nat := 0
  removed : Nat := 0
  deriving DecidableEq, Repr

structure Buffer where
  capacity : Nat
  lifetime : TimeSpan
  eviction : EvictionPolicy
  /-- From the front, where the entry that was inserted first is. -/
  entries : List Entry
  counters : Counters
  evictions : EvictionTally
  /-- Kept only where recording is on. -/
  history : Option History
  /-- The latest one first. -/
  notes : List Buffer.Note
  deriving DecidableEq, Repr

namespace Buffer

def new (capacity : Nat) (lifetime : TimeSpan) (eviction : EvictionPolicy) (recording : Bool) :
    Buffer where
  capacity := capacity
  lifetime := lifetime
  eviction := eviction
  entries := []
  counters := {}
  evictions := {}
  history := if recording then some History.empty else none
  notes := []

/-! ### Bookkeeping -/

def note (now : Time) (deed : Deed) (b : Buffer) : Buffer :=
  { b with notes := ⟨now, deed⟩ :: b.notes }

def record (now : Time) (remaining : Option TimeSpan) (kind : RecordKind) (b : Buffer) : Buffer :=
  { b with history := b.history.map (History.push ⟨now, remaining, kind⟩) }

def remainingSince (now created : Time) (b : Buffer) : Option TimeSpan :=
  if b.lifetime.isZero then none else some (b.lifetime - now.since created)

/-! ### Expiry -/

/-- What one entry's expiry does to the totals, the history and the notes. -/
def settle (now : Time) (b : Buffer) (x : Expiry) : Buffer :=
  match x with
  | .fresh => b
  | .half lost _ => b.note now (.halfExpired lost)
  | .gone lost =>
    let b := { b with counters := { b.counters with expired := b.counters.expired + 1 } }
    (b.record now (some TimeSpan.zero) .expired).note now (.expired lost)

/-- Discards what has outlived the lifetime. -/
def sweep (now : Time) (b : Buffer) : Buffer :=
  if b.lifetime.isZero || b.entries.all (fun e => e.expire now b.lifetime == .fresh) then b
  else
    let b' := (b.entries.map (Entry.expire now b.lifetime)).foldl (settle now) b
    { b' with entries := b.entries.filterMap (Entry.surviving? now b.lifetime) }

/-! ### Questions -/

def livePackets (b : Buffer) : List Packet := b.entries.flatMap Entry.livePackets

/-- The live packets, the first one of each number. -/
def distinctPackets (b : Buffer) : List Packet :=
  b.livePackets.eraseDupsBy fun p q => p.id == q.id

def liveIds (b : Buffer) : List PacketId := b.entries.flatMap Entry.liveIds

def find? (id : PacketId) (b : Buffer) : Option Packet := b.entries.findSome? (Entry.find? id)

def holds (id : PacketId) (b : Buffer) : Bool := b.entries.any (Entry.holds id)

def indexOf? (id : PacketId) (b : Buffer) : Option Nat := b.entries.findIdx? (Entry.holds id)

def entryOf? (id : PacketId) (b : Buffer) : Option Entry := b.entries.find? (Entry.holds id)

/-- Whether the packet is the lost half of a coded pair. -/
def hasExtra (id : PacketId) (b : Buffer) : Bool := b.entries.any (Entry.hasExtra id)

def size (b : Buffer) : Nat := b.entries.length

def isFull (b : Buffer) : Bool := 0 < b.capacity && b.capacity ≤ b.size

def availableSpace? (b : Buffer) : Option Nat :=
  if b.capacity = 0 then none else some (b.capacity - b.size)

def candidatesFor (destinations : List NodeId) (b : Buffer) : List PacketId :=
  ((b.livePackets.filter fun p => destinations.contains p.destination).map (·.id)).eraseDups

def allDestinations (b : Buffer) : List NodeId := (b.livePackets.map (·.destination)).eraseDups

def allNative (b : Buffer) : List PacketId := b.liveIds.eraseDups

def packetsFor (destination : NodeId) (b : Buffer) : Nat := (b.candidatesFor [destination]).length

/-- Pairs each packet with its place in the list, counted from `i`; the last place of each. -/
def lastPlaces (i : Nat) : List PacketId → List (PacketId × Nat)
  | [] => []
  | id :: rest =>
    if rest.contains id then lastPlaces (i + 1) rest else (id, i) :: lastPlaces (i + 1) rest

def positions (b : Buffer) : List (PacketId × Nat) := lastPlaces 0 b.liveIds

end Buffer

end OppNet
