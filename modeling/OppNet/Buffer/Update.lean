import OppNet.Buffer

/-!
# OppNet.Buffer.Update

Operations that change a buffer. Each one sweeps first. One that is refused returns its fault
together with the swept buffer, in which nothing else has changed.
-/

namespace OppNet.Buffer

/-- The answer of an operation, or why it was refused, and the buffer afterwards. -/
abbrev Outcome (α : Type) := Except Fault α × Buffer

/-! ### Inserting -/

/-- Evicts one entry if the buffer is full. -/
def makeRoom (now : Time) (b : Buffer) : Except Fault Buffer :=
  if b.isFull then
    match b.eviction.evict b.entries with
    | .error f => .error f
    | .ok (victim, rest) =>
      let counters := { b.counters with dropped := b.counters.dropped + 1 }
      let b' :=
        { b with entries := rest, evictions := b.evictions.add victim, counters := counters }
      let b' := b'.record now (b.remainingSince now victim.created) .dropped
      .ok (b'.note now (.dropped victim.liveIds victim.isRelayed))
  else .ok b

def append (now : Time) (e : Entry) (deed : Deed) (b : Buffer) : Buffer :=
  let b' := { b with
    entries := b.entries ++ [e]
    counters := { b.counters with inserted := b.counters.inserted + 1 } }
  (b'.record now (b.remainingSince now e.created) .inserted).note now deed

def place (now : Time) (e : Entry) (deed : Deed) (b : Buffer) : Outcome Unit :=
  match b.makeRoom now with
  | .error f => (.error f, b)
  | .ok room => (.ok (), room.append now e deed)

def insert (now : Time) (p : Packet) (b : Buffer) : Outcome Unit :=
  let b := b.sweep now
  if b.holds p.id then (.error (.duplicatePacket p.id), b)
  else
    b.place now (.single { p with inserted := now })
      (.inserted p.id p.source p.destination p.hops)

/-- Buffers two packets that arrived as one coded payload. -/
def insertCoded (now : Time) (p q : Packet) (b : Buffer) : Outcome Unit :=
  let b := b.sweep now
  match CodedPair.combine { p with inserted := now } { q with inserted := now } with
  | .error f => (.error f, b)
  | .ok pair =>
    if b.entries.any (Entry.combines p.id q.id) then (.error (.duplicateEncoding p.id q.id), b)
    else
      match [p.id, q.id].find? (b.holds ·) with
      | some id => (.error (.duplicatePacket id), b)
      | none => b.place now (.coded pair) (.insertedCoded p.id q.id)

/-! ### Coding and deleting -/

/-- The packet of that number, if it is an entry of its own. -/
def findSingle? (id : PacketId) (b : Buffer) : Option Packet :=
  b.entries.findSome? (Entry.single? id)

/-- Deletes the first entry that is the packet alone. -/
def eraseSingle (id : PacketId) (entries : List Entry) : List Entry :=
  entries.eraseP fun e => (e.single? id).isSome

/--
Replaces two uncoded packets by one coded pair at the end. Both halves get the larger thresholds
and the larger replica count.
-/
def compact (now : Time) (a b : PacketId) (buffer : Buffer) : Outcome Unit :=
  let buffer := buffer.sweep now
  match buffer.findSingle? a, buffer.findSingle? b with
  | none, _ => (.error (.packetNotFound a), buffer)
  | some _, none => (.error (.packetNotFound b), buffer)
  | some p, some q =>
    let thresholds := Packet.mergeThresholds p.thresholds q.thresholds
    let merge := Packet.mergedWith thresholds (max p.replicas q.replicas)
    match CodedPair.combine (merge p) (merge q) with
    | .error f => (.error f, buffer)
    | .ok pair =>
      let rest := eraseSingle b (eraseSingle a buffer.entries)
      (.ok (), { buffer with entries := rest ++ [Entry.coded pair] }.note now (.encoded a b))

def replaceFirst (id : PacketId) (e : Option Entry) : List Entry → List Entry
  | [] => []
  | x :: rest =>
    if x.holds id then e.toList ++ rest else x :: replaceFirst id e rest

/-- The entry without the packet: nothing, or an intact pair reduced to its other half. -/
def without? (id : PacketId) : Entry → Option Entry
  | .single _ => none
  | .coded c => (c.deleteHalf? id).map Entry.coded

/-- Deletes a live packet, and says whether there was one. -/
def remove (now : Time) (id : PacketId) (b : Buffer) : Bool × Buffer :=
  let b := b.sweep now
  match b.entryOf? id with
  | none => (false, b)
  | some e =>
    let b' := { b with entries := replaceFirst id (without? id e) b.entries }
    match without? id e with
    | none =>
      let counters := { b.counters with removed := b.counters.removed + 1 }
      (true, { b' with counters := counters }.note now (.removed id))
    | some _ => (true, b'.note now (.removedHalf id))

def removeExpired (now : Time) (b : Buffer) : Nat × Buffer :=
  let b' := b.sweep now
  (b'.counters.expired - b.counters.expired, b')

/-! ### Changing one packet -/

def updateFirst (id : PacketId) (f : Packet → Packet) : List Entry → List Entry
  | [] => []
  | e :: rest =>
    match e.update? id f with
    | some e' => e' :: rest
    | none => e :: updateFirst id f rest

/-- Changes a live packet and answers from what it was; refused if there is none. -/
def modify {α : Type} (now : Time) (id : PacketId) (f : Packet → Except Fault (α × Packet))
    (b : Buffer) : Outcome α :=
  let b := b.sweep now
  match b.find? id with
  | none => (.error (.packetNotFound id), b)
  | some p =>
    match f p with
    | .error e => (.error e, b)
    | .ok (answer, p') => (.ok answer, { b with entries := updateFirst id (fun _ => p') b.entries })

def setReplicas (now : Time) (id : PacketId) (n : Nat) : Buffer → Outcome Unit :=
  modify now id fun p => .ok ((), { p with replicas := n })

/-- Gives replicas away and answers how many are left. -/
def splitReplicas (now : Time) (id : PacketId) (give : Nat) : Buffer → Outcome Nat :=
  modify now id fun p =>
    if p.replicas < give then .error (.replicaOverflow id p.replicas give)
    else .ok (p.replicas - give, { p with replicas := p.replicas - give })

/-- Raises a threshold if the value beats it, and answers whether it does. -/
def updateThreshold (now : Time) (id : PacketId) (metric : Nat) (value : Float) :
    Buffer → Outcome Bool :=
  modify now id fun p => .ok (p.beatsThreshold metric value, p.raiseThreshold metric value)

def markForwarded (now : Time) (id : PacketId) : Buffer → Outcome Unit :=
  modify now id fun p => .ok ((), { p with forwarded := true })

def addForwarder (now : Time) (id : PacketId) (n : NodeId) : Buffer → Outcome Unit :=
  modify now id fun p => .ok ((), p.addForwarder n)

def addPreviousHop (now : Time) (id : PacketId) (n : NodeId) : Buffer → Outcome Unit :=
  modify now id fun p => .ok ((), p.addPreviousHop n)

end OppNet.Buffer
