import OppNet.Fault
import OppNet.Quantity

/-!
# OppNet.Admission

Which of the scheduled packets may cross a contact.

- `ReceiverState` is what the receiver reveals about its buffer, `PacketInfo` what is known about
  one packet.
- `AdmissionPolicy.admitted` is the decision itself, on candidates without repeats.
- An `Admitter` gathers the state and the infos of one contact, decides, and starts anew.
-/

namespace OppNet

/-- A snapshot of the receiving buffer at the start of a contact. -/
structure ReceiverState where
  length : Nat
  /-- Zero means unbounded. -/
  capacity : Nat
  /-- The length of the sending buffer. -/
  senderLength : Nat
  /-- Entries that the receiver has gained per second of late. -/
  netGrowthRate : Float
  /-- The mean remaining lifetime of what the receiver has evicted of late. -/
  meanDropRemaining : Option TimeSpan
  deriving DecidableEq, Repr

def ReceiverState.free? (s : ReceiverState) : Option Nat :=
  if s.capacity = 0 then none else some (s.capacity - s.length)

structure PacketInfo where
  packet : PacketId
  /-- `none` where packets never expire. -/
  remaining : Option TimeSpan
  senderUtility : Float
  receiverUtility : Float
  deriving DecidableEq, Repr

/-- The info added last for a packet, in a list with the latest one first. -/
def PacketInfo.lookup? (infos : List PacketInfo) (id : PacketId) : Option PacketInfo :=
  infos.find? (·.packet = id)

inductive AdmissionPolicy where
  | admitAll
  /-- No more packets than the receiver has free places. -/
  | avoidOverflow
  /-- As many packets as bring the receiver's buffer to the length of the sender's. -/
  | fairRoute
  /-- The packets for which the receiver will have room, or which it will not have for long. -/
  | acc
  deriving DecidableEq, Repr

namespace AdmissionPolicy

def all : List AdmissionPolicy := [admitAll, avoidOverflow, fairRoute, acc]

def name : AdmissionPolicy → String
  | admitAll => "none"
  | avoidOverflow => "avoid_overflow"
  | fairRoute => "fair_route"
  | acc => "acc"

/-- Leaves out candidates from the front until the rest fits. -/
def lastFitting (free : Nat) (candidates : List PacketId) : List PacketId :=
  candidates.drop (candidates.length - free)

/-- The receiver can use the packet and the sender cannot. -/
def isBetterCarrier (info : Option PacketInfo) : Bool :=
  match info with
  | none => false
  | some i => 0.0 < i.receiverUtility && i.senderUtility ≤ 0.0

/--
Candidates in turn against a receiver whose length grows with every admission. It is counted in a
machine word, and starts from zero again after the largest one.
-/
def reciprocal (infoOf : PacketId → Option PacketInfo) (senderLength : Nat) :
    Nat → List PacketId → List PacketId
  | _, [] => []
  | length, id :: rest =>
    if length ≤ senderLength || isBetterCarrier (infoOf id) then
      id :: reciprocal infoOf senderLength ((length + 1) % UInt64.size) rest
    else reciprocal infoOf senderLength length rest

/-- Entries that the receiver is going to gain while the packet lives. -/
def projectedGrowth (rate : Float) (info : PacketInfo) : Float :=
  match info.remaining with
  | some left => rate * left.seconds
  | none => if 0.0 < rate then Binary64.infinity else 0.0

/-- The packet expires sooner than what the receiver has been evicting. -/
def isDoomed (state : ReceiverState) (info : PacketInfo) : Bool :=
  match info.remaining, state.meanDropRemaining with
  | some left, some risk => left < risk
  | _, _ => false

/-- The growth projected over the packet's life is less than the free places. -/
def isSafe (state : ReceiverState) (free : Nat) (info : PacketInfo) : Bool :=
  projectedGrowth state.netGrowthRate info < Float.ofNat free

/-- Candidates in turn against free places that every admission lowers by one. -/
def riskAware (infoOf : PacketId → Option PacketInfo) (state : ReceiverState) :
    Nat → List PacketId → Except Fault (List PacketId)
  | _, [] => .ok []
  | free, id :: rest =>
    match infoOf id with
    | none => .error (.missingPacketInfo id)
    | some info =>
      if isSafe state free info || isDoomed state info then
        (riskAware infoOf state (free - 1) rest).map (id :: ·)
      else riskAware infoOf state free rest

/-- The admitted ones among candidates without repeats, in their order. -/
def admitted (policy : AdmissionPolicy) (state : ReceiverState)
    (infoOf : PacketId → Option PacketInfo) (candidates : List PacketId) :
    Except Fault (List PacketId) :=
  match policy, state.free? with
  | admitAll, _ => .ok candidates
  | avoidOverflow, none => .ok candidates
  | avoidOverflow, some free => .ok (lastFitting free candidates)
  | fairRoute, _ => .ok (reciprocal infoOf state.senderLength state.length candidates)
  | acc, none => .ok candidates
  | acc, some free => riskAware infoOf state free candidates

end AdmissionPolicy

structure Admitter where
  policy : AdmissionPolicy
  receiver : Option ReceiverState
  /-- The latest one first. -/
  infos : List PacketInfo
  deriving DecidableEq, Repr

namespace Admitter

def new (policy : AdmissionPolicy) : Admitter := ⟨policy, none, []⟩

def recordState (s : ReceiverState) (a : Admitter) : Admitter := { a with receiver := some s }

def addInfo (i : PacketInfo) (a : Admitter) : Admitter := { a with infos := i :: a.infos }

def someUnlessEmpty (ids : List PacketId) : Option (List PacketId) :=
  if ids.isEmpty then none else some ids

/-- The admitted packets in the order of the candidates; `none` if there are none. -/
def decide (a : Admitter) (candidates : List PacketId) : Except Fault (Option (List PacketId)) :=
  match a.receiver with
  | none =>
    if a.infos.isEmpty && candidates.isEmpty then .ok none else .error .missingReceiverState
  | some state =>
    if candidates.isEmpty then .ok none
    else
      (a.policy.admitted state (PacketInfo.lookup? a.infos) candidates.eraseDups).map
        someUnlessEmpty

/-- The decision, after which everything gathered is forgotten, whatever the outcome. -/
def filter (candidates : List PacketId) (a : Admitter) :
    Except Fault (Option (List PacketId)) × Admitter :=
  (a.decide candidates, new a.policy)

end Admitter

end OppNet
