import Std.Data.TreeMap
import Std.Data.TreeSet
import OppNet.Buffer.Update
import OppNet.Scenario

/-!
# OppNet.Node

One simulated device: its buffer, whom it has met, and what has been delivered to it.
-/

namespace OppNet

structure Node where
  id : NodeId
  buffer : Buffer
  scheduling : SchedulingPolicy
  admission : AdmissionPolicy
  /-- How often each other node was met. -/
  encounters : Std.TreeMap NodeId Nat
  /-- The packets delivered here. -/
  received : Std.TreeSet PacketId

namespace Node

def new (id : NodeId) (settings : BufferSettings) (policies : PolicyChoice) : Node where
  id := id
  buffer := Buffer.new settings.capacity settings.lifetime policies.eviction settings.recording
  scheduling := policies.scheduling
  admission := policies.admission
  encounters := {}
  received := {}

def timesMet (other : NodeId) (n : Node) : Nat := n.encounters.getD other 0

def recordEncounter (other : NodeId) (n : Node) : Node :=
  { n with encounters := n.encounters.insert other (n.timesMet other + 1) }

/-- How well placed the node is to reach a destination, between zero and one. -/
def utilityFor (destination : NodeId) (n : Node) : Float :=
  if destination = n.id then 1.0
  else
    let met := Float.ofNat (n.timesMet destination)
    met / (met + 1.0)

def hasReceived (id : PacketId) (n : Node) : Bool := n.received.contains id

/-- Accepts a packet addressed to this node, and says whether it is new. -/
def deliver (id : PacketId) (n : Node) : Bool × Node :=
  (!n.hasReceived id, { n with received := n.received.insert id })

def sweep (now : Time) (n : Node) : Node := { n with buffer := n.buffer.sweep now }

/-- What the node reveals to a neighbour about to send; its buffer has been swept at `now`. -/
def receiverState (now : Time) (senderLength : Nat) (window : TimeSpan) (n : Node) :
    ReceiverState where
  length := n.buffer.size
  capacity := n.buffer.capacity
  senderLength := senderLength
  netGrowthRate := (n.buffer.history.map (·.netGrowthRate now window)).getD 0.0
  meanDropRemaining := n.buffer.history.bind (·.meanDropRemaining? now window)

end Node

end OppNet
