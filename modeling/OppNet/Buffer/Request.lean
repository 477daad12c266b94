import OppNet.Buffer.Update

/-!
# OppNet.Buffer.Request

The operations of a buffer as data, so that a sequence of them is a list.

- `Query` is a question about a swept buffer, `Request` any operation, `Answer` what comes back.
- `perform` carries out one request and `run` a list of them, each at its own time.
-/

namespace OppNet.Buffer

/-- Questions about the buffer; those that name a packet are refused if it is not live. -/
inductive Query where
  | exists (id : PacketId)
  | existsAsExtra (id : PacketId)
  | isCoded (id : PacketId)
  | partner (id : PacketId)
  | packet (id : PacketId)
  | destination (id : PacketId)
  | source (id : PacketId)
  | creationTime (id : PacketId)
  | hops (id : PacketId)
  | previousHop (id : PacketId)
  | remainingLifetime (id : PacketId)
  | replicas (id : PacketId)
  | threshold (id : PacketId) (metric : Nat)
  | wasForwarded (id : PacketId)
  | forwardedTo (id : PacketId) (node : NodeId)
  | previousHops (id : PacketId)
  | position (id : PacketId)
  | distanceFromEnd (id : PacketId)
  | positions
  | candidatesFor (destinations : List NodeId)
  | allDestinations
  | allNative
  | packetsFor (destination : NodeId)
  | entries
  | size
  | isEmpty
  | isFull
  | availableSpace
  deriving DecidableEq, Repr

inductive Request where
  | insert (packet : Packet)
  | insertCoded (first second : Packet)
  | compact (a b : PacketId)
  | remove (id : PacketId)
  | removeExpired
  | setReplicas (id : PacketId) (count : Nat)
  | splitReplicas (id : PacketId) (give : Nat)
  | updateThreshold (id : PacketId) (metric : Nat) (value : Float)
  | markForwarded (id : PacketId)
  | addForwarder (id : PacketId) (node : NodeId)
  | addPreviousHop (id : PacketId) (node : NodeId)
  | ask (query : Query)
  deriving DecidableEq, Repr

inductive Answer where
  | done
  | flag (value : Bool)
  | count (value : Nat)
  | countOrNone (value : Option Nat)
  | level (value : Float)
  | time (value : Time)
  | spanOrNone (value : Option TimeSpan)
  | node (value : NodeId)
  | nodeOrNone (value : Option NodeId)
  | packetIdOrNone (value : Option PacketId)
  | packet (value : Packet)
  | nodes (value : List NodeId)
  | packetIds (value : List PacketId)
  | places (value : List (PacketId × Nat))
  | entries (value : List Entry)
  deriving DecidableEq, Repr

/-- Answers from a live packet; refused if it is not there. -/
def about (b : Buffer) (id : PacketId) (f : Packet → Answer) : Except Fault Answer :=
  match b.find? id with
  | none => .error (.packetNotFound id)
  | some p => .ok (f p)

def aboutEntry (b : Buffer) (id : PacketId) (f : Entry → Nat → Answer) : Except Fault Answer :=
  match b.entryOf? id, b.indexOf? id with
  | some e, some i => .ok (f e i)
  | _, _ => .error (.packetNotFound id)

/-- The answer of a buffer that has been swept at `now`. -/
def answer (now : Time) (b : Buffer) : Query → Except Fault Answer
  | .exists id => .ok (.flag (b.holds id))
  | .existsAsExtra id => .ok (.flag (b.hasExtra id))
  | .isCoded id => b.aboutEntry id fun e _ => .flag e.isCoded
  | .partner id => b.aboutEntry id fun e _ =>
    match e with
    | .single _ => .packetIdOrNone none
    | .coded c => .packetIdOrNone (c.partner? id)
  | .packet id => b.about id .packet
  | .destination id => b.about id fun p => .node p.destination
  | .source id => b.about id fun p => .node p.source
  | .creationTime id => b.about id fun p => .time p.created
  | .hops id => b.about id fun p => .count p.hops
  | .previousHop id => b.about id fun p => .nodeOrNone p.previousHop
  | .remainingLifetime id => b.about id fun p => .spanOrNone (p.remaining? now b.lifetime)
  | .replicas id => b.about id fun p => .count p.replicas
  | .threshold id metric => b.about id fun p => .level (p.threshold metric)
  | .wasForwarded id => b.about id fun p => .flag p.forwarded
  | .forwardedTo id node => b.about id fun p => .flag (p.forwarders.contains node)
  | .previousHops id => b.about id fun p => .nodes p.previousHops
  | .position id => b.aboutEntry id fun _ i => .count i
  | .distanceFromEnd id => b.aboutEntry id fun _ i => .count (b.size - 1 - i)
  | .positions => .ok (.places b.positions)
  | .candidatesFor destinations => .ok (.packetIds (b.candidatesFor destinations))
  | .allDestinations => .ok (.nodes b.allDestinations)
  | .allNative => .ok (.packetIds b.allNative)
  | .packetsFor destination => .ok (.count (b.packetsFor destination))
  | .entries => .ok (.entries b.entries)
  | .size => .ok (.count b.size)
  | .isEmpty => .ok (.flag b.entries.isEmpty)
  | .isFull => .ok (.flag b.isFull)
  | .availableSpace => .ok (.countOrNone b.availableSpace?)

def Outcome.map {α : Type} (f : α → Answer) (o : Outcome α) : Outcome Answer :=
  (match o.1 with
    | .ok a => .ok (f a)
    | .error e => .error e, o.2)

def perform (now : Time) (r : Request) (b : Buffer) : Outcome Answer :=
  match r with
  | .insert p => Outcome.map (fun _ => .done) (b.insert now p)
  | .insertCoded p q => Outcome.map (fun _ => .done) (b.insertCoded now p q)
  | .compact a c => Outcome.map (fun _ => .done) (b.compact now a c)
  | .remove id =>
    let (answer, b) := b.remove now id
    (.ok (.flag answer), b)
  | .removeExpired =>
    let (answer, b) := b.removeExpired now
    (.ok (.count answer), b)
  | .setReplicas id n => Outcome.map (fun _ => .done) (b.setReplicas now id n)
  | .splitReplicas id give => Outcome.map .count (b.splitReplicas now id give)
  | .updateThreshold id metric value => Outcome.map .flag (b.updateThreshold now id metric value)
  | .markForwarded id => Outcome.map (fun _ => .done) (b.markForwarded now id)
  | .addForwarder id n => Outcome.map (fun _ => .done) (b.addForwarder now id n)
  | .addPreviousHop id n => Outcome.map (fun _ => .done) (b.addPreviousHop now id n)
  | .ask q =>
    let b := b.sweep now
    (b.answer now q, b)

/-- Carries out requests in turn; a refused one is passed over. -/
def run (b : Buffer) : List (Time × Request) → Buffer
  | [] => b
  | (now, r) :: rest => run (b.perform now r).2 rest

end OppNet.Buffer
