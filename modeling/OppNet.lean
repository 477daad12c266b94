import OppNet.Buffer.Request
import OppNet.Main
import OppNet.Proofs.Buffer.Laziness
import OppNet.Proofs.Event.Agenda
import OppNet.Proofs.Simulator.Conservation
import OppNet.Proofs.Simulator.Coverage
import OppNet.Proofs.Simulator.Delivery
import OppNet.Proofs.Simulator.Link
import OppNet.Proofs.Simulator.Overflow
import OppNet.Proofs.Simulator.Provenance
import OppNet.Proofs.Simulator.Report
import OppNet.Proofs.Simulator.Safety
import OppNet.Proofs.Simulator.Termination
import OppNet.Storage
import OppNet.Proofs.Binary64.Merit
import OppNet.Proofs.Scheduling.Strict
import OppNet.Proofs.Admission.Decision
import OppNet.Proofs.Simulator.Repetition
import OppNet.Proofs.Simulator.Itinerary
import OppNet.Proofs.Buffer.Extra
import OppNet.Proofs.Isolation
import OppNet.Proofs.Scheduling.Repeats
import OppNet.Proofs.Buffer.Coherence
import OppNet.Proofs.Buffer.Timing
import OppNet.Proofs.Buffer.Thresholds
import OppNet.Proofs.Simulator.Offers
import OppNet.Proofs.Simulator.Timing
import OppNet.Proofs.Buffer.Unbounded
import OppNet.Proofs.Simulator.Encounters
import OppNet.Proofs.Simulator.Lifetime
import OppNet.Proofs.Simulator.Forgetting
import OppNet.Proofs.Random.Draw
import OppNet.Proofs.Binary64.Positive
import OppNet.Proofs.Random.Distribution
import OppNet.Proofs.Trace
import OppNet.Proofs.Buffer.Removal
import OppNet.Proofs.Json.Scanner
import OppNet.Proofs.Json.Numeral
import OppNet.Proofs.Json.Reader
import OppNet.Proofs.Json.Form
import OppNet.Proofs.Scenario.Form
import OppNet.Proofs.Comparison.Form
import OppNet.Proofs.Storage
import OppNet.Proofs.Buffer.Compaction
import OppNet.Proofs.Buffer.Locality
import OppNet.Proofs.Buffer.Eviction
import OppNet.Proofs.Admission.Room
import OppNet.Proofs.Admission.Fairness
import OppNet.Proofs.Admission.Risk
import OppNet.Proofs.Packet.Survivor
