import OppNet.Event
import OppNet.Scenario

/-!
# OppNet.Trace

A list of contacts, packet generations and checkpoints to run a network on, and the synthetic one
that a scenario's distributions describe.

- Contacts come first, each as its beginning and its end; then the generations, with packet numbers
  counted from zero; then the checkpoints.
- Gaps and contacts are at least `minSpan` long, so time moves on with every draw.
-/

namespace OppNet

open OppNet.Random (Distribution Draw DrawFailure Generator Source)

structure Trace where
  events : List Event
  contacts : Nat
  packets : Nat
  deriving DecidableEq, Repr

structure Contact where
  a : NodeId
  b : NodeId
  start : Float
  length : Float
  deriving DecidableEq, Repr

def Contact.events (c : Contact) : List Event :=
  let start : Time := ⟨c.start⟩
  [⟨start, .contactUp c.a c.b⟩, ⟨start.after ⟨c.length⟩, .contactDown c.a c.b⟩]

/-- A new packet, before it has a number. -/
structure Generation where
  source : NodeId
  destination : NodeId
  time : Float
  deriving DecidableEq, Repr

def Generation.event (g : Generation) (number : Nat) : Event :=
  ⟨⟨g.time⟩, .generation g.source g.destination ⟨number⟩ true⟩

namespace Trace

variable {σ : Type} [Source σ]

/-- The shortest gap or contact, in seconds. -/
def minSpan : Float := 1e-3

def span (d : Distribution) : Draw σ Float := do
  let x ← d.sample
  return Binary64.largerOf x minSpan

/-- Two different nodes: the second is drawn from one fewer and skips over the first. -/
def distinctPair (nodes : Nat) : Draw σ (NodeId × NodeId) := do
  let a ← Random.Uniform.integer 0 nodes
  let b ← Random.Uniform.integer 0 (nodes - 1)
  return (⟨a⟩, ⟨if a ≤ b then b + 1 else b⟩)

/-- Contacts from time `t` on, in front of the ones so far; `fuel` of them at most. -/
def contactsFrom (s : Scenario) : Nat → Float → List Contact → Draw σ (List Contact)
  | 0, _, _ => Draw.fail .exhausted
  | fuel + 1, t, soFar =>
    if t < s.duration.seconds then do
      let (a, b) ← distinctPair s.nodes
      let length ← span s.trace.contactDuration
      let gap ← span s.trace.interContact
      contactsFrom s fuel (t + gap) (⟨a, b, t, length⟩ :: soFar)
    else pure soFar.reverse

/-- Generations from time `t` on, in front of the ones so far; `fuel` of them at most. -/
def generationsFrom (s : Scenario) : Nat → Float → List Generation → Draw σ (List Generation)
  | 0, _, _ => Draw.fail .exhausted
  | fuel + 1, t, soFar =>
    if t < s.duration.seconds then do
      let (source, destination) ← distinctPair s.nodes
      let gap ← span s.trace.interGeneration
      generationsFrom s fuel (t + gap) (⟨source, destination, t⟩ :: soFar)
    else pure soFar.reverse

/-- Checkpoints from time `t` on, in front of the ones so far; `fuel` of them at most. -/
def checkpointsFrom (s : Scenario) : Nat → Float → List Event → Draw σ (List Event)
  | 0, _, _ => Draw.fail .exhausted
  | fuel + 1, t, soFar =>
    if t < s.duration.seconds then
      checkpointsFrom s fuel (t + s.trace.checkpointInterval.seconds) (⟨⟨t⟩, .checkpoint⟩ :: soFar)
    else pure soFar.reverse

/-- The contacts of a scenario; a single node meets nobody. -/
def sampleContacts (s : Scenario) : Draw σ (List Contact) :=
  if s.nodes < 2 then pure []
  else do
    let start ← span s.trace.interContact
    contactsFrom s Draw.attempts start []

/-- The generations of a scenario; a single node has nobody to send to. -/
def sampleGenerations (s : Scenario) : Draw σ (List Generation) :=
  if s.nodes < 2 then pure []
  else do
    let start ← span s.trace.interGeneration
    generationsFrom s Draw.attempts start []

def sampleCheckpoints (s : Scenario) : Draw σ (List Event) :=
  let interval := s.trace.checkpointInterval.seconds
  if 0.0 < interval then checkpointsFrom s Draw.attempts interval [] else pure []

def ofParts (contacts : List Contact) (generations : List Generation) (checkpoints : List Event) :
    Trace where
  events :=
    contacts.flatMap Contact.events
      ++ generations.zipIdx.map (fun (g, i) => g.event i) ++ checkpoints
  contacts := contacts.length
  packets := generations.length

def sample (s : Scenario) : Draw σ Trace := do
  let contacts ← sampleContacts s
  let generations ← sampleGenerations s
  let checkpoints ← sampleCheckpoints s
  return ofParts contacts generations checkpoints

def ofScenario (s : Scenario) : Except DrawFailure Trace :=
  (sample s (Generator.ofSeed s.seed)).map (·.1)

end Trace

end OppNet
