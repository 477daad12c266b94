import OppNet.Event.Queue
import OppNet.Journal
import OppNet.Node
import OppNet.Trace

/-!
# OppNet.Simulator

A network of nodes, and what all actions on it are made of: visits to a node, sweeps, remarks and
totals. An action that fails keeps the changes made before the failure.
-/

namespace OppNet

/-- Two nodes without an order between them. -/
structure Link where
  low : NodeId
  high : NodeId
  deriving DecidableEq, Repr

namespace Link

def between (a b : NodeId) : Link := if a.index ≤ b.index then ⟨a, b⟩ else ⟨b, a⟩

instance : Ord Link := ⟨fun k l => (compare k.low l.low).then (compare k.high l.high)⟩

end Link

structure Shipment where
  receiver : NodeId
  packet : PacketId
  deriving DecidableEq, Repr

instance : Ord Shipment :=
  ⟨fun s t => (compare s.receiver t.receiver).then (compare s.packet t.packet)⟩

structure Traffic where
  events : Nat := 0
  contacts : Nat := 0
  generated : Nat := 0
  delivered : Nat := 0
  transmitted : Nat := 0
  /-- Transfers cut short by the end of a contact. -/
  aborted : Nat := 0
  deriving DecidableEq, Repr

structure Report extends Traffic where
  dropped : Nat := 0
  droppedSource : Nat := 0
  droppedRelayed : Nat := 0
  expired : Nat := 0
  /-- The mean time from generation to delivery, where something was delivered. -/
  meanLatency : Option TimeSpan := none
  deriving DecidableEq, Repr

/-- The delivered share of the generated packets; zero if there were none. -/
def Report.deliveryRatio (r : Report) : Float :=
  if r.generated = 0 then 0.0 else Float.ofNat r.delivered / Float.ofNat r.generated

structure Simulator where
  protocol : Protocol
  /-- Events after this time are left in the queue. -/
  stop : Time
  nodes : Array Node
  queue : Event.Queue
  /-- How often each link is open; closed ones are absent. -/
  links : Std.TreeMap Link Nat
  /-- The pending transmissions, aborted ones included. -/
  inFlight : Std.TreeSet Shipment
  latency : Mean
  traffic : Traffic
  /-- The latest line first. -/
  journal : List JournalLine

namespace Simulator

/-- The network of a scenario before the first event of a trace. -/
def ofTrace (scenario : Scenario) (trace : Trace) : Except Fault Simulator :=
  (Event.Queue.empty.insertAll trace.events).map fun queue =>
    { protocol := scenario.protocol
      stop := scenario.stop
      nodes := Array.ofFn fun (i : Fin scenario.nodes) =>
        Node.new ⟨i⟩ scenario.buffer scenario.policies
      queue := queue
      links := {}
      inFlight := {}
      latency := Mean.empty
      traffic := {}
      journal := [] }

abbrev Action := ExceptT Fault (StateM Simulator)

def ofExcept {α : Type} : Except Fault α → Action α
  | .ok a => pure a
  | .error f => throw f

/-! ### Nodes -/

def node? (n : NodeId) (s : Simulator) : Option Node := s.nodes[n.index]?

def requireNode (n : NodeId) : Action Unit := do
  if ((← get).node? n).isNone then throw (.unknownNode n)

/-- Puts a node back, and moves what its buffer noted into the journal. -/
def putNode (n : NodeId) (node : Node) (s : Simulator) : Simulator :=
  { s with
    nodes := s.nodes.setIfInBounds n.index
      { node with buffer := { node.buffer with notes := [] } }
    journal := node.buffer.notes.map (.ofNode n) ++ s.journal }

def visit {α : Type} (n : NodeId) (f : Node → α × Node) : Action α := do
  match (← get).node? n with
  | none => throw (.unknownNode n)
  | some node =>
    let (a, node) := f node
    modify (putNode n node)
    return a

def onBuffer {α : Type} (n : NodeId) (f : Buffer → Buffer.Outcome α) : Action α := do
  let answer ← visit n fun node =>
    let (answer, buffer) := f node.buffer
    (answer, { node with buffer := buffer })
  ofExcept answer

def sweepNode (now : Time) (n : NodeId) : Action Unit :=
  visit n fun node => ((), node.sweep now)

/-- Discards what has expired at every node, from the first to the last. -/
def sweepAll (now : Time) (s : Simulator) : Simulator :=
  (List.range s.nodes.size).foldl (fun s i =>
    match s.node? ⟨i⟩ with
    | none => s
    | some node => s.putNode ⟨i⟩ (node.sweep now)) s

/-! ### Bookkeeping -/

def say (now : Time) (r : Remark) : Action Unit :=
  modify fun s => { s with journal := .ofNetwork now r :: s.journal }

def count (f : Traffic → Traffic) : Action Unit :=
  modify fun s => { s with traffic := f s.traffic }

end Simulator

end OppNet
