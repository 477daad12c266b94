import OppNet.Admission
import OppNet.Eviction
import OppNet.Random.Distribution
import OppNet.Scheduling

/-!
# OppNet.Scenario

Everything a simulation is configured with. `Scenario.default` is a small network to start from,
and `Scenario.flaw?` finds combinations that would stop a run halfway.
-/

namespace OppNet

open OppNet.Random (Distribution DistributionFlaw)

structure BufferSettings where
  /-- Zero means unbounded. -/
  capacity : Nat
  /-- Zero means that packets never expire. -/
  lifetime : TimeSpan
  /-- Whether the buffer keeps its history, which risk-aware admission needs. -/
  recording : Bool
  deriving DecidableEq, Repr

structure PolicyChoice where
  eviction : EvictionPolicy
  scheduling : SchedulingPolicy
  admission : AdmissionPolicy
  deriving DecidableEq, Repr

inductive ForwardingRule where
  /-- Hand over every packet that the receiver lacks. -/
  | epidemic
  /-- Hand over a packet only to a node that meets its destination more often. -/
  | greedy
  deriving DecidableEq, Repr

def ForwardingRule.all : List ForwardingRule := [epidemic, greedy]

def ForwardingRule.name : ForwardingRule → String
  | epidemic => "epidemic"
  | greedy => "greedy"

structure Protocol where
  forwarding : ForwardingRule
  /-- The time it takes to move one packet across a contact. -/
  transmissionTime : TimeSpan
  /-- How far back a receiver looks when it describes its buffer. -/
  historyWindow : TimeSpan
  deriving DecidableEq, Repr

/-- The distributions of a synthetic trace, in seconds. -/
structure TraceSettings where
  interContact : Distribution
  contactDuration : Distribution
  interGeneration : Distribution
  /-- Zero means no checkpoints. -/
  checkpointInterval : TimeSpan
  deriving DecidableEq, Repr

structure Scenario where
  seed : UInt64
  duration : TimeSpan
  nodes : Nat
  buffer : BufferSettings
  policies : PolicyChoice
  protocol : Protocol
  trace : TraceSettings
  deriving DecidableEq, Repr

inductive ScenarioFlaw where
  | tooFewNodes
  | transmissionTimeNotPositive
  /-- Under epidemic forwarding neither end need have any utility for a packet. -/
  | hnuvWithoutGreedy
  | accWithoutRecording
  | interContact (cause : DistributionFlaw)
  | contactDuration (cause : DistributionFlaw)
  | interGeneration (cause : DistributionFlaw)
  deriving DecidableEq, Repr

namespace ScenarioFlaw

def message : ScenarioFlaw → String
  | tooFewNodes => "A simulation needs at least two nodes!"
  | transmissionTimeNotPositive => "Transmission time must be positive!"
  | hnuvWithoutGreedy => "HNUV scheduling requires greedy forwarding!"
  | accWithoutRecording => "ACC needs buffer recording enabled!"
  | interContact _ => "Invalid inter-contact distribution!"
  | contactDuration _ => "Invalid contact duration distribution!"
  | interGeneration _ => "Invalid inter-generation distribution!"

def cause? : ScenarioFlaw → Option String
  | interContact cause | contactDuration cause | interGeneration cause => some cause.message
  | _ => none

end ScenarioFlaw

namespace Scenario

/-- Twelve nodes for ten thousand seconds. -/
def default : Scenario where
  seed := 0
  duration := ⟨10000.0⟩
  nodes := 12
  buffer := { capacity := 20, lifetime := ⟨3000.0⟩, recording := true }
  policies :=
    { eviction := ⟨.front, true⟩, scheduling := .grtrSort, admission := .acc }
  protocol :=
    { forwarding := .greedy, transmissionTime := ⟨1.0⟩, historyWindow := ⟨500.0⟩ }
  trace :=
    { interContact := .exponential 20.0
      contactDuration := .uniform 5.0 30.0
      interGeneration := .exponential 25.0
      checkpointInterval := ⟨1000.0⟩ }

/-- The first thing that is wrong with the scenario. -/
def flaw? (s : Scenario) : Option ScenarioFlaw :=
  if s.nodes < 2 then some .tooFewNodes
  else if s.protocol.transmissionTime.isNegative || s.protocol.transmissionTime.isZero then
    some .transmissionTimeNotPositive
  else if s.policies.scheduling = .hnuv ∧ s.protocol.forwarding = .epidemic then
    some .hnuvWithoutGreedy
  else if s.policies.admission = .acc ∧ s.buffer.recording = false then
    some .accWithoutRecording
  else
    (s.trace.interContact.flaw?.map .interContact).or
      ((s.trace.contactDuration.flaw?.map .contactDuration).or
        (s.trace.interGeneration.flaw?.map .interGeneration))

def stop (s : Scenario) : Time := Time.start.after s.duration

end Scenario

end OppNet
