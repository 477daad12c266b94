import OppNet.Simulator

/-!
# OppNet.Simulator.Transfer

Packets that come into being, move from node to node, and arrive. A packet handed to its destination
leaves its sender's buffer; one handed to any other node is copied.
-/

namespace OppNet

namespace Simulator

def arrive (now : Time) (receiver : NodeId) (p : Packet) : Action Unit := do
  if ← visit receiver (Node.deliver p.id) then
    count fun t => { t with delivered := t.delivered + 1 }
    modify fun s => { s with latency := s.latency.record (now.since p.created).seconds }
    say now (.delivered p.id receiver)

/-- A copy is handed to a node on the way, unless it has the packet or has had it. -/
def relay (now : Time) (sender receiver : NodeId) (p : Packet) : Action Unit := do
  sweepNode now receiver
  match (← get).node? receiver with
  | none => throw (.unknownNode receiver)
  | some rx =>
    if rx.buffer.holds p.id || rx.hasReceived p.id then return
    else onBuffer receiver (Buffer.insert now (p.relayedBy sender))

/-- A packet that the sender still has is handed over. -/
def handOver (now : Time) (sender receiver : NodeId) (p : Packet) : Action Unit := do
  onBuffer sender (Buffer.markForwarded now p.id)
  onBuffer sender (Buffer.addForwarder now p.id receiver)
  if p.destination = receiver then
    let _ ← visit sender fun node =>
      let (found, buffer) := node.buffer.remove now p.id
      (found, { node with buffer := buffer })
    count fun t => { t with transmitted := t.transmitted + 1 }
    arrive now receiver p
  else
    count fun t => { t with transmitted := t.transmitted + 1 }
    relay now sender receiver p

/-- A transfer ends; there is nothing left to do if it was aborted. -/
def transmission (now : Time) (sender receiver : NodeId) (packet : PacketId) (valid : Bool) :
    Action Unit := do
  requireNode receiver
  modify fun s => { s with inFlight := s.inFlight.erase ⟨receiver, packet⟩ }
  if valid then
    sweepNode now sender
    match ((← get).node? sender).bind (·.buffer.find? packet) with
    | none => say now (.leftBefore packet sender)
    | some p => handOver now sender receiver p

def generation (now : Time) (source destination : NodeId) (packet : PacketId) (valid : Bool) :
    Action Unit := do
  requireNode destination
  if valid then
    onBuffer source (Buffer.insert now (Packet.generate packet source destination now))
    count fun t => { t with generated := t.generated + 1 }

end Simulator

end OppNet
