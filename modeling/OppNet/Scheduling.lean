import OppNet.Binary64
import OppNet.Fault

/-!
# OppNet.Scheduling

The order in which the packets offered during one contact are sent.

- A policy gives every offer a `Priority`; larger merits go first, then smaller slots.
- `order` sorts the offers by priority. Two offers of one priority cannot be ordered, which is a
  fault, and so is an offer for which a policy lacks what it needs.
- A `Scheduler` gathers offers until an order is asked for, and then starts anew.
-/

namespace OppNet

/-- How well each end of a contact is placed to reach a packet's destination. -/
structure UtilityHint where
  sender : Float
  receiver : Float
  deriving DecidableEq, Repr

structure Offer where
  packet : PacketId
  hint : Option UtilityHint
  deriving DecidableEq, Repr

inductive SchedulingPolicy where
  /-- The packet nearest to the front of the buffer first. -/
  | fifo
  /-- The packet nearest to its end first. -/
  | lifo
  /-- The largest utility of the receiver first. -/
  | grtrMax
  /-- The largest gain in utility first. -/
  | grtrSort
  /-- The largest gain relative to the sum of both utilities first. -/
  | hnuv
  deriving DecidableEq, Repr

structure Priority where
  merit : Float
  slot : Int
  deriving DecidableEq, Repr

/-- The larger merit is less, and so is the smaller slot at equal merits. -/
def Priority.compare (p q : Priority) : Ordering :=
  (Binary64.meritCompare q.merit p.merit).then (Ord.compare p.slot q.slot)

structure RankedOffer where
  packet : PacketId
  priority : Priority
  deriving DecidableEq, Repr

namespace SchedulingPolicy

def all : List SchedulingPolicy := [fifo, lifo, grtrMax, grtrSort, hnuv]

def name : SchedulingPolicy → String
  | fifo => "fifo"
  | lifo => "lifo"
  | grtrMax => "grtr_max"
  | grtrSort => "grtr_sort"
  | hnuv => "hnuv"

/-- Whether the policy needs the utilities of both ends. -/
def usesUtilities : SchedulingPolicy → Bool
  | fifo | lifo => false
  | grtrMax | grtrSort | hnuv => true

def merit (policy : SchedulingPolicy) (id : PacketId) (h : UtilityHint) : Except Fault Float :=
  match policy with
  | fifo | lifo => .ok 0.0
  | grtrMax => .ok h.receiver
  | grtrSort => .ok (h.receiver - h.sender)
  | hnuv =>
    let sum := h.receiver + h.sender
    if sum == 0.0 then .error (.zeroDenominator id) else .ok ((h.receiver - h.sender) / sum)

def priority (policy : SchedulingPolicy) (slot : Nat) (o : Offer) : Except Fault Priority :=
  match policy with
  | fifo => .ok ⟨0.0, slot⟩
  | lifo => .ok ⟨0.0, -slot⟩
  | _ =>
    match o.hint with
    | none => .error (.missingUtility o.packet)
    | some h => (policy.merit o.packet h).map fun m => ⟨m, slot⟩

def rank (policy : SchedulingPolicy) (slotOf : PacketId → Option Nat) (o : Offer) :
    Except Fault RankedOffer :=
  match slotOf o.packet with
  | none => .error (.packetNotFound o.packet)
  | some slot => (policy.priority slot o).map fun p => ⟨o.packet, p⟩

/-- All offers with their priorities, or the fault of the first one that has none. -/
def rankAll (policy : SchedulingPolicy) (slotOf : PacketId → Option Nat) :
    List Offer → Except Fault (List RankedOffer)
  | [] => .ok []
  | o :: rest =>
    match policy.rank slotOf o with
    | .error f => .error f
    | .ok r => (rankAll policy slotOf rest).map (r :: ·)

/-- Puts `r` in front of the first offer that it does not come after. -/
def insertRanked (r : RankedOffer) : List RankedOffer → List RankedOffer
  | [] => [r]
  | x :: rest =>
    if (r.priority.compare x.priority).isLE then r :: x :: rest else x :: insertRanked r rest

/-- Sorts by priority; equal ones keep their order. -/
def sortRanked : List RankedOffer → List RankedOffer
  | [] => []
  | r :: rest => insertRanked r (sortRanked rest)

def firstTie? : List RankedOffer → Option (PacketId × PacketId)
  | x :: y :: rest =>
    if x.priority.compare y.priority = .eq then some (x.packet, y.packet) else firstTie? (y :: rest)
  | _ => none

/-- The packets in sending order, given where each one is in the buffer; `none` without offers. -/
def order (policy : SchedulingPolicy) (slotOf : PacketId → Option Nat) (offers : List Offer) :
    Except Fault (Option (List PacketId)) :=
  if offers.isEmpty then .ok none
  else
    match policy.rankAll slotOf offers with
    | .error f => .error f
    | .ok ranked =>
      let sorted := sortRanked ranked
      match firstTie? sorted with
      | some (a, b) => .error (.tiedSortKeys a b)
      | none => .ok (some (sorted.map (·.packet)))

end SchedulingPolicy

structure Scheduler where
  policy : SchedulingPolicy
  /-- In the order in which they were added. -/
  offers : List Offer
  deriving DecidableEq, Repr

namespace Scheduler

def new (policy : SchedulingPolicy) : Scheduler := ⟨policy, []⟩

def add (o : Offer) (s : Scheduler) : Scheduler := { s with offers := s.offers ++ [o] }

/-- The order of what was gathered, which is forgotten whatever the outcome. -/
def computeOrder (slotOf : PacketId → Option Nat) (s : Scheduler) :
    Except Fault (Option (List PacketId)) × Scheduler :=
  (s.policy.order slotOf s.offers, new s.policy)

end Scheduler

end OppNet
