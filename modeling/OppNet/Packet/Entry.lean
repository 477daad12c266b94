import OppNet.Packet.CodedPair

/-!
# OppNet.Packet.Entry

What takes one place in a buffer: a packet of its own, or a coded pair. All questions about an
entry are about its live packets.
-/

namespace OppNet

inductive Entry where
  | single (packet : Packet)
  | coded (pair : CodedPair)
  deriving DecidableEq, Repr

/-- What the passing of time has made of an entry. -/
inductive Expiry where
  | fresh
  /-- One half of a coded pair has expired, and the other one is left. -/
  | half (lost : PacketId) (rest : Entry)
  /-- All packets that were live have expired. -/
  | gone (lost : List PacketId)
  deriving DecidableEq, Repr

namespace Entry

def isCoded : Entry → Bool
  | single _ => false
  | coded _ => true

def livePackets : Entry → List Packet
  | single p => [p]
  | coded c => c.livePackets

def liveIds (e : Entry) : List PacketId := e.livePackets.map (·.id)

def find? (id : PacketId) : Entry → Option Packet
  | single p => if p.id = id then some p else none
  | coded c => (c.liveSide? id).map c.half

def holds (id : PacketId) (e : Entry) : Bool := (e.find? id).isSome

def single? (id : PacketId) : Entry → Option Packet
  | single p => if p.id = id then some p else none
  | coded _ => none

def combines (a b : PacketId) : Entry → Bool
  | single _ => false
  | coded c => c.combines a b

def hasExtra (id : PacketId) : Entry → Bool
  | single _ => false
  | coded c => c.extra? == some id

/-- The entry with its live packet of that number changed; `none` if there is no such packet. -/
def update? (id : PacketId) (f : Packet → Packet) : Entry → Option Entry
  | single p => if p.id = id then some (single (f p)) else none
  | coded c => (c.liveSide? id).map fun s => coded (c.setHalf s (f (c.half s)))

/-- The earlier of two times in the total order. -/
def earlier (s t : Time) : Time := if t < s then t else s

def created (e : Entry) : Time :=
  match e.livePackets with
  | [] => Time.earliest
  | p :: rest => rest.foldl (fun t q => earlier t q.created) p.created

/-- No live packet was created at this node. -/
def isRelayed (e : Entry) : Bool := e.livePackets.all Packet.isRelayed

def expire (now : Time) (lifetime : TimeSpan) : Entry → Expiry
  | single p => if p.isExpired now lifetime then .gone [p.id] else .fresh
  | coded c =>
    match c.survivor with
    | some left => if (c.half left).isExpired now lifetime then .gone [(c.half left).id] else .fresh
    | none =>
      match c.first.isExpired now lifetime, c.second.isExpired now lifetime with
      | false, false => .fresh
      | true, true => .gone [c.first.id, c.second.id]
      | true, false => .half c.first.id (coded { c with survivor := some .second })
      | false, true => .half c.second.id (coded { c with survivor := some .first })

def surviving? (now : Time) (lifetime : TimeSpan) (e : Entry) : Option Entry :=
  match e.expire now lifetime with
  | .fresh => some e
  | .half _ rest => some rest
  | .gone _ => none

end Entry

end OppNet
