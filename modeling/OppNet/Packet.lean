import OppNet.Identity
import OppNet.Quantity

/-!
# OppNet.Packet

A copy of a packet as one node holds it: who sends what to whom, how it came here, and what the
node has learnt about it.
-/

namespace OppNet

structure Packet where
  id : PacketId
  source : NodeId
  destination : NodeId
  created : Time
  /-- When this copy entered its buffer. -/
  inserted : Time
  /-- How many transfers brought this copy here. -/
  hops : Nat
  /-- The node that handed this copy over. -/
  previousHop : Option NodeId
  /-- Copies this node may still give away. -/
  replicas : Nat
  /-- The best utility seen for the destination, one slot for each metric. -/
  thresholds : List Float
  forwarded : Bool
  /-- The nodes this copy has passed through, without repeats. -/
  previousHops : List NodeId
  /-- The nodes that got a copy from here, without repeats. -/
  forwarders : List NodeId
  deriving DecidableEq, Repr

namespace Packet

def generate (id : PacketId) (source destination : NodeId) (created : Time) : Packet where
  id := id
  source := source
  destination := destination
  created := created
  inserted := created
  hops := 0
  previousHop := none
  replicas := 1
  thresholds := []
  forwarded := false
  previousHops := []
  forwarders := []

def appendNew (n : NodeId) (ns : List NodeId) : List NodeId :=
  if ns.contains n then ns else ns ++ [n]

/-- The copy that a neighbour receives from `via`. -/
def relayedBy (via : NodeId) (p : Packet) : Packet :=
  { p with
    hops := p.hops + 1
    previousHop := some via
    forwarded := false
    previousHops := appendNew via p.previousHops
    forwarders := [] }

/-- Carried for another node. -/
def isRelayed (p : Packet) : Bool := 0 < p.hops

def age (now : Time) (p : Packet) : TimeSpan := now.since p.created

/-- Older than the lifetime; nothing expires under a lifetime of zero. -/
def isExpired (now : Time) (lifetime : TimeSpan) (p : Packet) : Bool :=
  !lifetime.isZero && lifetime < p.age now

/-- What is left of the lifetime, which may be negative; `none` under a lifetime of zero. -/
def remaining? (now : Time) (lifetime : TimeSpan) (p : Packet) : Option TimeSpan :=
  if lifetime.isZero then none else some (lifetime - p.age now)

/--
Two packets can share a coded entry when each is headed to the other's source: either end then
decodes with its own packet.
-/
def encodableWith (p q : Packet) : Bool :=
  p.id != q.id && p.source == q.destination && q.source == p.destination

/-- The threshold of a metric; a missing slot reads as zero. -/
def threshold (metric : Nat) (p : Packet) : Float := p.thresholds.getD metric 0.0

/-- Utilities closer than this count as equal. -/
def utilityEpsilon : Float := 1e-9

def padTo (length : Nat) (xs : List Float) : List Float :=
  xs ++ List.replicate (length - xs.length) 0.0

/-- Whether `value` beats the stored threshold by more than the tolerance. -/
def beatsThreshold (metric : Nat) (value : Float) (p : Packet) : Bool :=
  p.threshold metric + utilityEpsilon < value

/-- Stores `value` if it beats the threshold; the slot exists afterwards in either case. -/
def raiseThreshold (metric : Nat) (value : Float) (p : Packet) : Packet :=
  let padded := padTo (metric + 1) p.thresholds
  if p.beatsThreshold metric value then { p with thresholds := padded.set metric value }
  else { p with thresholds := padded }

def addForwarder (n : NodeId) (p : Packet) : Packet :=
  { p with forwarders := appendNew n p.forwarders }

def addPreviousHop (n : NodeId) (p : Packet) : Packet :=
  { p with previousHops := appendNew n p.previousHops }

/-- The larger of two thresholds; where they do not compare, the second. -/
def largerThreshold (x y : Float) : Float := if x ≥ y then x else y

/-- Slot by slot the larger threshold, over the longer of the two lists. -/
def mergeThresholds : List Float → List Float → List Float
  | [], ys => ys
  | xs, [] => xs
  | x :: xs, y :: ys => largerThreshold x y :: mergeThresholds xs ys

/-- `p` with the better thresholds and the larger replica count of `p` and `q`. -/
def mergedWith (thresholds : List Float) (replicas : Nat) (p : Packet) : Packet :=
  { p with thresholds := thresholds, replicas := replicas }

end Packet

end OppNet
