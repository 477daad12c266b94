import OppNet.Simulator.Run

/-!
# OppNet.Comparison

One scenario under many policy choices, all of them on the same trace. `trials` runs them and
`ranked` puts the best one first.
-/

namespace OppNet

def PolicyChoice.all : List PolicyChoice :=
  EvictionPolicy.all.flatMap fun eviction =>
    SchedulingPolicy.all.flatMap fun scheduling =>
      AdmissionPolicy.all.map fun admission => ⟨eviction, scheduling, admission⟩

structure Trial where
  policies : PolicyChoice
  report : Report
  deriving DecidableEq, Repr

namespace Trial

def onTrace (trace : Trace) (s : Scenario) : Except Fault Trial :=
  match Simulator.ofTrace s trace with
  | .error f => .error f
  | .ok network => (Simulator.run.run network).1.map fun report => ⟨s.policies, report⟩

/-- The larger delivery ratio is less, and so are fewer transmissions at equal ratios. -/
def compare (a b : Trial) : Ordering :=
  (Ord.compare (Double.ofFloat b.report.deliveryRatio) a.report.deliveryRatio).then
    (Ord.compare a.report.transmitted b.report.transmitted)

/-- From the best to the worst; equally good ones keep their order. -/
def ranked (trials : List Trial) : List Trial :=
  trials.mergeSort fun a b => (a.compare b).isLE

end Trial

namespace Scenario

/-- The scenario under those choices that it supports. -/
def variants (s : Scenario) (choices : List PolicyChoice) : List Scenario :=
  (choices.map fun policies => { s with policies := policies }).filter (·.flaw?.isNone)

/-- The trials of the supported choices in their order, or the first failure. -/
def trials (s : Scenario) (choices : List PolicyChoice) : Except RunFailure (List Trial) :=
  let variants := s.variants choices
  if variants.isEmpty then .ok []
  else
    match Trace.ofScenario s with
    | .error f => .error (.noTrace f)
    | .ok trace => (variants.mapM (Trial.onTrace trace)).mapError .fault

end Scenario

end OppNet
