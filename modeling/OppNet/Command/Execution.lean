import OppNet.Command
import OppNet.Comparison.Form
import OppNet.Storage
import OppNet.Table

/-!
# OppNet.Command.Execution

What the commands do. A command first reads and checks its scenario, then runs it, prints what came
out, and saves it last. Whatever was printed before a failure stays printed.
-/

namespace OppNet

inductive CommandFailure where
  | file (f : FileFailure)
  | flaw (f : ScenarioFlaw)
  | fault (f : Fault)
  /-- A trace that cannot be drawn. -/
  | noTrace
  /-- A latency that cannot be written. -/
  | unwritable
  deriving DecidableEq, Repr

namespace CommandFailure

def message : CommandFailure → String
  | file f => f.message
  | flaw f => f.message
  | fault f => f.message
  | noTrace => "The trace cannot be drawn!"
  | unwritable => "The mean latency cannot be written!"

def cause? : CommandFailure → Option String
  | flaw f => f.cause?
  | _ => none

def text (f : CommandFailure) : String :=
  "Error: " ++ f.message
    ++ ((f.cause?.map fun cause => "\n\nCaused by:\n    " ++ cause).getD "") ++ "\n"

/-- One, and another code for what no check foresees. -/
def code : CommandFailure → UInt8
  | noTrace | unwritable => 101
  | _ => 1

end CommandFailure

structure Outcome where
  code : UInt8
  output : String
  complaint : String
  deriving DecidableEq, Repr

abbrev Execution (m : Type → Type) := ExceptT CommandFailure (StateT String m)

namespace Execution

variable {m : Type → Type} [Monad m] {α β : Type}

def printLine (line : String) : Execution m Unit :=
  modifyThe String fun printed => printed ++ line ++ "\n"

/-- A value, or the failure that stands in its place. -/
def ofExcept (failure : β → CommandFailure) : Except β α → Execution m α
  | .ok a => pure a
  | .error f => throw (failure f)

def withFiles (action : m (Except FileFailure α)) : Execution m α := do
  ofExcept .file (← (action : StateT String m (Except FileFailure α)))

def outcome (e : Execution m Unit) : m Outcome := do
  match ← e.run.run "" with
  | (.ok (), printed) => return ⟨0, printed, ""⟩
  | (.error f, printed) => return ⟨f.code, printed, f.text⟩

def saveTo (storage : Storage m) (v : Json.Value) : Option String → Execution m Unit
  | none => pure ()
  | some path => withFiles (storage.save v path)

end Execution

namespace RunFailure

def toCommand : RunFailure → CommandFailure
  | fault f => .fault f
  | noTrace _ => .noTrace

end RunFailure

def ratioText (x : Float) : String := Decimal.fixedText 4 x

/-- The totals in a table; a latency without a text has none. -/
def Report.table? (r : Report) : Option Table := do
  let latency ← match r.meanLatency with
    | none => some "-"
    | some d => d.text?
  return {
    heading := ["metric", "value"]
    rows :=
      [["events", toString r.events],
        ["contacts", toString r.contacts],
        ["generated", toString r.generated],
        ["delivered", toString r.delivered],
        ["delivery ratio", ratioText r.deliveryRatio],
        ["mean latency", latency],
        ["transmitted", toString r.transmitted],
        ["aborted", toString r.aborted],
        ["dropped (source)", toString r.droppedSource],
        ["dropped (relayed)", toString r.droppedRelayed],
        ["expired", toString r.expired]] }

def Trial.cells (t : Trial) : List String :=
  [Table.title t.policies.eviction.name, Table.title t.policies.scheduling.name,
    Table.title t.policies.admission.name, ratioText t.report.deliveryRatio,
    toString t.report.delivered, toString t.report.transmitted, toString t.report.dropped]

def Trial.table (trials : List Trial) : Table where
  heading :=
    ["dropping", "scheduling", "congestion", "delivery ratio", "delivered", "transmitted",
      "dropped"]
  rows := trials.map cells

namespace Command

variable {m : Type → Type} [Monad m]

open Execution

def loadScenario (storage : Storage m) (path : String) : Execution m Scenario := do
  let scenario ← withFiles (storage.load Scenario.ofJson? path)
  match scenario.flaw? with
  | some f => throw (.flaw f)
  | none => return scenario

def simulate (scenario : Scenario) (verbose : Bool) : Execution m Report := do
  let network ← ofExcept RunFailure.toCommand (Simulator.ofScenario scenario)
  let (result, network) := Simulator.run.run network
  if verbose then network.journal.reverse.forM fun line => printLine line.signedText
  ofExcept .fault result

def execute (storage : Storage m) : Command → Execution m Unit
  | generate output => withFiles (storage.save Scenario.default.toJson output)
  | run config verbose output => do
    let scenario ← loadScenario storage config
    let report ← simulate scenario verbose
    match report.table? with
    | none => throw .unwritable
    | some table => printLine table.text
    saveTo storage report.toJson output
  | compare config output => do
    let scenario ← loadScenario storage config
    let trials ← ofExcept RunFailure.toCommand (scenario.trials PolicyChoice.all)
    printLine (Trial.table (Trial.ranked trials)).text
    saveTo storage (Trial.listToJson trials) output

end Command

namespace Request

def versionText : String := "adyton 0.1.0\n"

def usageText : String :=
  "gen-config -o FILE\n"
    ++ "run --config FILE [-v] [-o FILE]\n"
    ++ "compare --config FILE [-o FILE]\n"

def answer {m : Type → Type} [Monad m] (storage : Storage m) : Request → m Outcome
  | command c => (c.execute storage).outcome
  | help => return ⟨0, usageText, ""⟩
  | version => return ⟨0, versionText, ""⟩
  | misuse => return ⟨2, "", usageText⟩

end Request

end OppNet
