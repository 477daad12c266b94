import OppNet.Simulator

/-!
# OppNet.Simulator.Contact

The beginning and the end of contacts.

- When two nodes meet, each offers the packets that the other lacks. Its scheduling policy orders
  them, its admission policy trims the list by what the other tells about its buffer, and one
  transmission is queued for every packet left, spaced by the transmission time.
- When the contact ends, the transmissions still pending between the two are aborted.
-/

namespace OppNet

namespace Simulator

def describe (now : Time) (tx rx : Node) (p : Packet) : PacketInfo where
  packet := p.id
  remaining := p.remaining? now tx.buffer.lifetime
  senderUtility := tx.utilityFor p.destination
  receiverUtility := rx.utilityFor p.destination

/-- Whether the receiver has no use for the packet, or it is already on its way there. -/
def isSpared (s : Simulator) (rx : Node) (id : PacketId) : Bool :=
  s.inFlight.contains ⟨rx.id, id⟩ || rx.buffer.holds id || rx.hasReceived id

/-- The packets worth offering, both buffers having been swept. -/
def worthOffering (s : Simulator) (now : Time) (tx rx : Node) : List PacketInfo :=
  let lacking := tx.buffer.distinctPackets.filter fun p => !s.isSpared rx p.id
  let infos := lacking.map (describe now tx rx)
  match s.protocol.forwarding with
  | .epidemic => infos
  | .greedy => infos.filter fun i => !(i.receiverUtility ≤ i.senderUtility)

/-- When the `k`-th packet of a contact has been sent. -/
def sentAt (s : Simulator) (now : Time) (k : Nat) : Time :=
  now.after (s.protocol.transmissionTime.scale (Float.ofNat k))

def queueTransmission (time : Time) (sender receiver : NodeId) (packet : PacketId) :
    Action Unit := do
  let s ← get
  let queue ← ofExcept (s.queue.insert ⟨time, .transmission sender receiver packet true⟩)
  set { s with queue := queue, inFlight := s.inFlight.insert ⟨receiver, packet⟩ }

/-- Queues one transmission after the other, the first of them as the `k`-th of the contact. -/
def queueAll (now : Time) (sender receiver : NodeId) : Nat → List PacketId → Action Unit
  | _, [] => pure ()
  | k, packet :: rest => do
    queueTransmission ((← get).sentAt now k) sender receiver packet
    queueAll now sender receiver (k + 1) rest

/-- The packets to send among those worth offering, in order, and how many were ordered. -/
def choose (now : Time) (tx rx : Node) (window : TimeSpan) (infos : List PacketInfo) :
    Except Fault (Option (Nat × Option (List PacketId))) := do
  let places := tx.buffer.positions
  let offers := infos.map fun i => Offer.mk i.packet (some ⟨i.senderUtility, i.receiverUtility⟩)
  match ← tx.scheduling.order (List.lookup · places) offers with
  | none => return none
  | some order =>
    let state := rx.receiverState now tx.buffer.size window
    let admitter : Admitter :=
      { policy := tx.admission, receiver := some state, infos := infos.reverse }
    return some (order.length, ← admitter.decide order)

/-- One direction of a contact. -/
def offer (now : Time) (sender receiver : NodeId) : Action Unit := do
  sweepNode now sender
  sweepNode now receiver
  let s ← get
  match s.node? sender, s.node? receiver with
  | some tx, some rx =>
    let infos := s.worthOffering now tx rx
    if infos.isEmpty then return
    else
      match ← ofExcept (choose now tx rx s.protocol.historyWindow infos) with
      | none => return
      | some (_, none) => say now (.nothingAdmitted receiver sender)
      | some (offered, some admitted) =>
        say now (.admitted sender receiver offered admitted.length)
        queueAll now sender receiver 1 admitted
  | _, _ => throw (.unknownNode sender)

def timesOpen (a b : NodeId) (s : Simulator) : Nat := s.links.getD (Link.between a b) 0

/-- A contact begins; only the first of overlapping ones has any effect. -/
def contactUp (now : Time) (a b : NodeId) : Action Unit := do
  requireNode a
  requireNode b
  let times := (← get).timesOpen a b
  modify fun s => { s with links := s.links.insert (Link.between a b) (times + 1) }
  if times = 0 then
    count fun t => { t with contacts := t.contacts + 1 }
    visit a fun node => ((), node.recordEncounter b)
    visit b fun node => ((), node.recordEncounter a)
    offer now a b
    offer now b a

/-- A contact ends; the last of overlapping ones aborts what is still pending. -/
def contactDown (a b : NodeId) : Action Unit := do
  let s ← get
  match s.timesOpen a b with
  | 0 => pure ()
  | 1 =>
    let (aborted, queue) := s.queue.invalidateLink a b
    set { s with links := s.links.erase (Link.between a b), queue := queue }
    count fun t => { t with aborted := t.aborted + aborted }
  | more + 2 => set { s with links := s.links.insert (Link.between a b) (more + 1) }

end Simulator

end OppNet
