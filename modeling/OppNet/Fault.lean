import OppNet.Identity

/-!
# OppNet.Fault

The ways in which an operation of the library can be refused, and their wording. A refused
operation leaves the state that it was called on as it was, expiry apart.
-/

namespace OppNet

inductive Fault where
  /-- The packet is not live in the buffer. -/
  | packetNotFound (id : PacketId)
  /-- The packet is already live in the buffer. -/
  | duplicatePacket (id : PacketId)
  /-- A coded pair of these two packets is already in the buffer. -/
  | duplicateEncoding (a b : PacketId)
  /-- The packets do not travel between the same two ends in opposite directions. -/
  | invalidEncoding (a b : PacketId)
  | emptyBufferEviction
  /-- Two offered packets cannot be told apart by the scheduling policy. -/
  | tiedSortKeys (a b : PacketId)
  /-- Utilities that add up to zero cannot be normalised. -/
  | zeroDenominator (id : PacketId)
  | missingUtility (id : PacketId)
  | missingReceiverState
  | missingPacketInfo (id : PacketId)
  | replicaOverflow (packet : PacketId) (owned requested : Nat)
  /-- The event lies before the time of the last one taken from the queue. -/
  | eventInPast
  | unknownNode (node : NodeId)
  deriving DecidableEq, Repr

def Fault.message : Fault → String
  | packetNotFound id => s!"packet {id} is not in the buffer"
  | duplicatePacket id => s!"packet {id} is already in the buffer"
  | duplicateEncoding a b => s!"an encoded packet combining {a} and {b} already exists"
  | invalidEncoding a b => s!"packets {a} and {b} cannot be encoded together"
  | emptyBufferEviction => "eviction requested from an empty buffer"
  | tiedSortKeys a b => s!"packets {a} and {b} have identical sort keys"
  | zeroDenominator id => s!"utility sum for packet {id} is zero"
  | missingUtility id => s!"no utility was supplied for packet {id}"
  | missingReceiverState => "packet information supplied without the receiver state"
  | missingPacketInfo id => s!"no admission information was supplied for packet {id}"
  | replicaOverflow packet owned requested =>
    s!"packet {packet} holds {owned} replicas but {requested} were requested"
  | eventInPast => "event scheduled in the past"
  | unknownNode node => s!"node {node} does not exist"

instance : ToString Fault := ⟨Fault.message⟩

end OppNet
