import OppNet.Simulator.Contact
import OppNet.Simulator.Transfer

/-!
# OppNet.Simulator.Run

The run of a network: `run` handles every event up to the end of the scenario and reports the
totals. A run may be repeated; the totals go on.
-/

namespace OppNet

namespace Simulator

def handle (e : Event) : Action Unit :=
  match e.kind with
  | .contactUp a b => contactUp e.time a b
  | .contactDown a b => contactDown a b
  | .transmission sender receiver packet valid => transmission e.time sender receiver packet valid
  | .generation source destination packet valid =>
    generation e.time source destination packet valid
  | .checkpoint => modify (sweepAll e.time)

/-- The next event, unless it lies beyond the end. -/
def due? (s : Simulator) : Option (Event × Event.Queue) :=
  s.queue.pop?.filter fun (e, _) => !(s.stop < e.time)

/-- Takes a due event out of the queue and handles it. -/
def process (e : Event) (queue : Event.Queue) : Action Unit := do
  modify fun s => { s with queue := queue }
  count fun t => { t with events := t.events + 1 }
  say e.time (.happened e.kind)
  handle e

/-- Handles due events up to the next beginning of a contact, `fuel` of them at most. -/
def settle : Nat → Action Unit
  | 0 => pure ()
  | fuel + 1 => do
    match (← get).due? with
    | none => pure ()
    | some (e, queue) =>
      if e.kind.isContactUp then pure ()
      else
        process e queue
        settle fuel

/-- Handles due events through `ups` beginnings of a contact at most. -/
def advance : Nat → Action Unit
  | 0 => pure ()
  | ups + 1 => do
    settle (← get).queue.size
    match (← get).due? with
    | none => pure ()
    | some (e, queue) =>
      process e queue
      advance ups

def addNode (r : Report) (n : Node) : Report :=
  { r with
    dropped := r.dropped + n.buffer.counters.dropped
    expired := r.expired + n.buffer.counters.expired
    droppedSource := r.droppedSource + n.buffer.evictions.source
    droppedRelayed := r.droppedRelayed + n.buffer.evictions.relayed }

def report (s : Simulator) : Report :=
  { s.nodes.foldl addNode { toTraffic := s.traffic } with
    meanLatency := s.latency.value?.map TimeSpan.mk }

/--
Handles every event up to the end and reports the totals. Only a beginning contact queues new
events, so the number of pending ones bounds the number of stretches between them.
-/
def run : Action Report := do
  advance ((← get).queue.count (·.kind.isContactUp) + 1)
  modify fun s => s.sweepAll s.stop
  return (← get).report

end Simulator

inductive RunFailure where
  | fault (f : Fault)
  /-- Its trace could not be drawn. -/
  | noTrace (f : Random.DrawFailure)
  deriving DecidableEq, Repr

def Simulator.ofScenario (scenario : Scenario) : Except RunFailure Simulator :=
  match Trace.ofScenario scenario with
  | .error f => .error (.noTrace f)
  | .ok trace =>
    match Simulator.ofTrace scenario trace with
    | .error f => .error (.fault f)
    | .ok s => .ok s

end OppNet
