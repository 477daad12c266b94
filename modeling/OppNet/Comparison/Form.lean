import OppNet.Comparison
import OppNet.Scenario.Form

/-!
# OppNet.Comparison.Form

The JSON forms of reports and of trials. A latency that is missing reads like one that is `null`.
-/

namespace OppNet.Report

open Json (Value)

def names : List String :=
  ["events", "contacts", "generated", "delivered", "transmitted", "aborted", "dropped",
    "dropped_source", "dropped_relayed", "expired", "mean_latency"]

def toJson (r : Report) : Value :=
  .record (names.zip
    [.nat r.events, .nat r.contacts, .nat r.generated, .nat r.delivered, .nat r.transmitted,
      .nat r.aborted, .nat r.dropped, .nat r.droppedSource, .nat r.droppedRelayed, .nat r.expired,
      (r.meanLatency.map TimeSpan.toJson).getD .null])

def ofJson? (v : Value) : Option Report := do
  let [events, contacts, generated, delivered, transmitted, aborted, dropped, droppedSource,
    droppedRelayed, expired, meanLatency] ← (v.nullIfMissing "mean_latency").fields? names | none
  return {
    events := ← events.nat?
    contacts := ← contacts.nat?
    generated := ← generated.nat?
    delivered := ← delivered.nat?
    transmitted := ← transmitted.nat?
    aborted := ← aborted.nat?
    dropped := ← dropped.nat?
    droppedSource := ← droppedSource.nat?
    droppedRelayed := ← droppedRelayed.nat?
    expired := ← expired.nat?
    meanLatency := ← meanLatency.orNull? TimeSpan.ofJson? }

end OppNet.Report

namespace OppNet.Trial

open Json (Value)

def names : List String := ["policies", "report"]

def toJson (t : Trial) : Value := .record (names.zip [t.policies.toJson, t.report.toJson])

def ofJson? (v : Value) : Option Trial := do
  let [policies, report] ← v.fields? names | none
  return { policies := ← PolicyChoice.ofJson? policies, report := ← Report.ofJson? report }

def listToJson (trials : List Trial) : Value := .array (trials.map toJson)

def listOfJson? (v : Value) : Option (List Trial) := v.items? ofJson?

end OppNet.Trial
