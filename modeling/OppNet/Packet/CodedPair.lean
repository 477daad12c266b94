import OppNet.Fault
import OppNet.Packet

/-!
# OppNet.Packet.CodedPair

Two packets stored as one network-coded payload. Once one half is deleted or has expired, the pair
mimics the other half: it answers as if it held that one alone, and the lost half stays behind as
side information.
-/

namespace OppNet

inductive Side where
  | first
  | second
  deriving DecidableEq, Repr

def Side.other : Side → Side
  | first => second
  | second => first

def Side.index : Side → Nat
  | first => 0
  | second => 1

structure CodedPair where
  first : Packet
  second : Packet
  /-- The half that is left, once the other one is gone. -/
  survivor : Option Side
  deriving DecidableEq, Repr

namespace CodedPair

/-- Both packets as one payload, if they travel between the same ends in opposite directions. -/
def combine (first second : Packet) : Except Fault CodedPair :=
  if first.encodableWith second then .ok ⟨first, second, none⟩
  else .error (.invalidEncoding first.id second.id)

def half (c : CodedPair) : Side → Packet
  | .first => c.first
  | .second => c.second

/-- Whether the pair holds the packets `a` and `b`, in either order, live or not. -/
def combines (a b : PacketId) (c : CodedPair) : Bool :=
  (c.first.id == a && c.second.id == b) || (c.first.id == b && c.second.id == a)

/-- The half that carries the packet, live or not. -/
def sideOf? (id : PacketId) (c : CodedPair) : Option Side :=
  if c.first.id = id then some .first
  else if c.second.id = id then some .second
  else none

/-- Whether a half is still logically present. -/
def isLive (c : CodedPair) (s : Side) : Bool :=
  match c.survivor with
  | none => true
  | some left => left = s

def liveSide? (id : PacketId) (c : CodedPair) : Option Side :=
  (c.sideOf? id).filter c.isLive

/-- The lost half, of which only side information is left. -/
def extra? (c : CodedPair) : Option PacketId :=
  c.survivor.map fun left => (c.half left.other).id

def partner? (id : PacketId) (c : CodedPair) : Option PacketId :=
  match c.survivor with
  | none => (c.sideOf? id).map fun s => (c.half s.other).id
  | some _ => none

def livePackets (c : CodedPair) : List Packet :=
  match c.survivor with
  | none => [c.first, c.second]
  | some left => [c.half left]

def setHalf (c : CodedPair) (s : Side) (p : Packet) : CodedPair :=
  match s with
  | .first => { c with first := p }
  | .second => { c with second := p }

/-- Deletes the packet from an intact pair; there is nothing to delete from any other. -/
def deleteHalf? (id : PacketId) (c : CodedPair) : Option CodedPair :=
  match c.survivor with
  | some _ => none
  | none => (c.sideOf? id).map fun s => { c with survivor := some s.other }

end CodedPair

end OppNet
