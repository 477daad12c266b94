import OppNet.Json.Form
import OppNet.Scenario

/-!
# OppNet.Scenario.Form

The JSON form of scenarios: `toJson` writes it and `ofJson?` reads it. A distribution is a tagged
object whose tag comes first when written and anywhere when read.
-/

namespace OppNet

open Json (Value)
open OppNet.Random (Distribution)

namespace Random.Distribution

def toJson : Distribution → Value
  | always value => .record [("type", .string "always"), ("value", .ofFloat value)]
  | uniform min max =>
    .record [("type", .string "uniform"), ("min", .ofFloat min), ("max", .ofFloat max)]
  | normal mean stdDev =>
    .record [("type", .string "normal"), ("mean", .ofFloat mean), ("std_dev", .ofFloat stdDev)]
  | exponential mean => .record [("type", .string "exponential"), ("mean", .ofFloat mean)]

def parameters? (names : List String) (v : Value) : Option (List Float) := do
  (← v.fields? names).mapM Value.float?

/-- The distribution of a kind with the parameters in a value. -/
def ofTagged? (kind : String) (v : Value) : Option Distribution :=
  match kind with
  | "always" => do
    let [value] ← parameters? ["value"] v | none
    return always value
  | "uniform" => do
    let [min, max] ← parameters? ["min", "max"] v | none
    return uniform min max
  | "normal" => do
    let [mean, stdDev] ← parameters? ["mean", "std_dev"] v | none
    return normal mean stdDev
  | "exponential" => do
    let [mean] ← parameters? ["mean"] v | none
    return exponential mean
  | _ => none

def maxHeight : Nat := 125

/-- Everything in a distribution has to be readable, the members passed over included. -/
def ofJson? (v : Value) : Option Distribution :=
  if v.isReadable && v.height ≤ maxHeight then do
    let (kind, rest) ← v.tagged? "type"
    ofTagged? kind rest
  else none

end Random.Distribution

namespace TimeSpan

def toJson (d : TimeSpan) : Value := .ofFloat d.seconds

def ofJson? (v : Value) : Option TimeSpan := v.float?.map TimeSpan.mk

end TimeSpan

namespace BufferSettings

def names : List String := ["capacity", "ttl", "recording"]

def toJson (b : BufferSettings) : Value :=
  .record (names.zip [.nat b.capacity, b.lifetime.toJson, .bool b.recording])

def ofJson? (v : Value) : Option BufferSettings := do
  let [capacity, lifetime, recording] ← v.fields? names | none
  return {
    capacity := ← capacity.nat?
    lifetime := ← TimeSpan.ofJson? lifetime
    recording := ← recording.bool? }

end BufferSettings

namespace PolicyChoice

def names : List String := ["dropping", "scheduling", "congestion"]

def toJson (p : PolicyChoice) : Value :=
  .record (names.zip
    [.string p.eviction.name, .string p.scheduling.name, .string p.admission.name])

def ofJson? (v : Value) : Option PolicyChoice := do
  let [eviction, scheduling, admission] ← v.fields? names | none
  return {
    eviction := ← eviction.choice? EvictionPolicy.all EvictionPolicy.name
    scheduling := ← scheduling.choice? SchedulingPolicy.all SchedulingPolicy.name
    admission := ← admission.choice? AdmissionPolicy.all AdmissionPolicy.name }

end PolicyChoice

namespace Protocol

def names : List String := ["forwarding", "transmission_time", "history_window"]

def toJson (p : Protocol) : Value :=
  .record (names.zip
    [.string p.forwarding.name, p.transmissionTime.toJson, p.historyWindow.toJson])

def ofJson? (v : Value) : Option Protocol := do
  let [forwarding, transmissionTime, historyWindow] ← v.fields? names | none
  return {
    forwarding := ← forwarding.choice? ForwardingRule.all ForwardingRule.name
    transmissionTime := ← TimeSpan.ofJson? transmissionTime
    historyWindow := ← TimeSpan.ofJson? historyWindow }

end Protocol

namespace TraceSettings

def names : List String :=
  ["inter_contact", "contact_duration", "inter_generation", "checkpoint_interval"]

def toJson (t : TraceSettings) : Value :=
  .record (names.zip
    [t.interContact.toJson, t.contactDuration.toJson, t.interGeneration.toJson,
      t.checkpointInterval.toJson])

def ofJson? (v : Value) : Option TraceSettings := do
  let [interContact, contactDuration, interGeneration, checkpointInterval] ← v.fields? names | none
  return {
    interContact := ← Distribution.ofJson? interContact
    contactDuration := ← Distribution.ofJson? contactDuration
    interGeneration := ← Distribution.ofJson? interGeneration
    checkpointInterval := ← TimeSpan.ofJson? checkpointInterval }

end TraceSettings

namespace Scenario

def names : List String :=
  ["seed", "duration", "nodes", "buffer", "policies", "protocol", "trace"]

def toJson (s : Scenario) : Value :=
  .record (names.zip
    [.nat s.seed.toNat, s.duration.toJson, .nat s.nodes, s.buffer.toJson, s.policies.toJson,
      s.protocol.toJson, s.trace.toJson])

def ofJson? (v : Value) : Option Scenario := do
  let [seed, duration, nodes, buffer, policies, protocol, trace] ← v.fields? names | none
  return {
    seed := ← seed.word64?
    duration := ← TimeSpan.ofJson? duration
    nodes := ← nodes.nat?
    buffer := ← BufferSettings.ofJson? buffer
    policies := ← PolicyChoice.ofJson? policies
    protocol := ← Protocol.ofJson? protocol
    trace := ← TraceSettings.ofJson? trace }

end Scenario

end OppNet
