import OppNet.Identity
import OppNet.Quantity

/-!
# OppNet.Event

What happens to the network, and when. A transfer that is still to come can be aborted, which
clears its `valid` mark and leaves it in place.
-/

namespace OppNet

inductive EventKind where
  | contactUp (a b : NodeId)
  | contactDown (a b : NodeId)
  /-- The end of a packet transfer; not `valid` if its contact broke before. -/
  | transmission (sender receiver : NodeId) (packet : PacketId) (valid : Bool)
  /-- A new packet at its source; nothing is created when it is not `valid`. -/
  | generation (source destination : NodeId) (packet : PacketId) (valid : Bool)
  /-- All nodes discard what has expired. -/
  | checkpoint
  deriving DecidableEq, Repr

namespace EventKind

/-- Whether this is a transfer between the two nodes, in either direction, aborted or not. -/
def isTransferBetween (a b : NodeId) : EventKind → Bool
  | transmission sender receiver _ _ =>
    (sender == a && receiver == b) || (sender == b && receiver == a)
  | _ => false

/-- Whether this is a transfer that has not been aborted. -/
def isValidTransfer : EventKind → Bool
  | transmission _ _ _ valid => valid
  | _ => false

/-- A transfer without its `valid` mark; anything else as it is. -/
def abort : EventKind → EventKind
  | transmission sender receiver packet _ => transmission sender receiver packet false
  | k => k

def isContactUp : EventKind → Bool
  | contactUp _ _ => true
  | _ => false

def text : EventKind → String
  | contactUp a b => s!"contact up {a}-{b}"
  | contactDown a b => s!"contact down {a}-{b}"
  | transmission sender receiver packet valid =>
    s!"transmission of {packet} {sender}->{receiver}" ++ (if valid then "" else " (aborted)")
  | generation source destination packet _ =>
    s!"generation of {packet} {source}->{destination}"
  | checkpoint => "checkpoint"

instance : ToString EventKind := ⟨text⟩

end EventKind

structure Event where
  time : Time
  kind : EventKind
  deriving DecidableEq, Repr

end OppNet
