import OppNet.Proofs.Binary64.Double
import OppNet.Proofs.Json.Form
import OppNet.Scenario.Form

/-!
# OppNet.Proofs.Scenario.Form

Scenarios are found again in their JSON form, section by section.

* `doubles` and `counts` are the numbers in a section whose text need not tell them.
* `ofJson?_toJson`: a section whose doubles are finite is read from its form as it was.
* `legible_toJson`: the text of the form tells all about it, if the texts of the doubles do.
-/

namespace OppNet

open Json (Value ReadsBack)
open OppNet.Random (Distribution)

namespace Random.Distribution

def kind : Distribution → String
  | always _ => "always"
  | uniform _ _ => "uniform"
  | normal _ _ => "normal"
  | exponential _ => "exponential"

def names : Distribution → List String
  | always _ => ["value"]
  | uniform _ _ => ["min", "max"]
  | normal _ _ => ["mean", "std_dev"]
  | exponential _ => ["mean"]

def doubles : Distribution → List Float
  | always value => [value]
  | uniform min max => [min, max]
  | normal mean stdDev => [mean, stdDev]
  | exponential mean => [mean]

/-- The kind comes first, and then the parameters under their names. -/
theorem toJson_eq (d : Distribution) : d.toJson =
    .record (("type", .string d.kind) :: d.names.zip (d.doubles.map Value.ofFloat)) := by
  cases d <;> rfl

theorem isReadable_toJson (d : Distribution) : d.toJson.isReadable = true := by
  cases d <;> simp [toJson, Value.record, Value.isReadable, Value.membersReadable,
    Value.isReadable_ofFloat]

theorem height_toJson (d : Distribution) : d.toJson.height ≤ maxHeight := by
  cases d <;> simp [toJson, Value.record, Value.height, Value.membersHeight,
    Value.height_ofFloat, maxHeight]

theorem parameters?_record {d : Distribution} (h : ∀ x ∈ d.doubles, x.isFinite = true) :
    parameters? d.names (.record (d.names.zip (d.doubles.map Value.ofFloat))) =
      some d.doubles := by
  have hnames : d.names.Nodup := by cases d <;> simp [names]
  have hlength : d.names.length = (d.doubles.map Value.ofFloat).length := by cases d <;> rfl
  rw [parameters?, Value.fields?_record hnames hlength]
  refine Value.mapM_eq_some ?_
  rw [List.forall₂_map_left_iff, List.forall₂_same]
  exact fun x hx => Value.float?_ofFloat (h x hx)

theorem ofJson?_eq (d : Distribution) : ofJson? d.toJson =
    ofTagged? d.kind (.record (d.names.zip (d.doubles.map Value.ofFloat))) := by
  have htype : "type" ∉ d.names := by cases d <;> simp [names]
  have hnames : ∀ m ∈ d.names.zip (d.doubles.map Value.ofFloat), m.1 ≠ "type" := by
    intro m hm heq
    exact htype (heq ▸ (List.of_mem_zip hm).1)
  have hwhole : (d.toJson.isReadable && d.toJson.height ≤ maxHeight) = true := by
    simp [isReadable_toJson, height_toJson]
  rw [ofJson?, if_pos hwhole, toJson_eq, Value.tagged?_record hnames]
  rfl

theorem ofJson?_toJson {d : Distribution} (h : ∀ x ∈ d.doubles, x.isFinite = true) :
    ofJson? d.toJson = some d := by
  have hparameters := parameters?_record h
  rw [ofJson?_eq]
  cases d with
  | always value => exact congrArg (Option.bind · _) hparameters
  | uniform min max => exact congrArg (Option.bind · _) hparameters
  | normal mean stdDev => exact congrArg (Option.bind · _) hparameters
  | exponential mean => exact congrArg (Option.bind · _) hparameters

theorem legible_toJson {d : Distribution} (h : ∀ x ∈ d.doubles, ReadsBack x) :
    d.toJson.Legible := by
  rw [toJson_eq]
  refine Value.legible_record fun m hm => ?_
  rcases List.mem_cons.mp hm with rfl | hm
  · exact .string d.kind
  · obtain ⟨x, hx, hval⟩ := List.mem_map.mp (List.of_mem_zip hm).2
    rw [← hval]
    exact Value.legible_ofFloat (h x hx)

end Random.Distribution

namespace TimeSpan

theorem ofJson?_toJson {d : TimeSpan} (h : d.seconds.isFinite = true) :
    ofJson? d.toJson = some d := by
  rw [ofJson?, toJson, Value.float?_ofFloat h, Option.map_some, mk_seconds h]

end TimeSpan

namespace BufferSettings

def doubles (b : BufferSettings) : List Float := [b.lifetime.seconds]

theorem ofJson?_toJson {b : BufferSettings} (h : ∀ x ∈ b.doubles, x.isFinite = true) :
    ofJson? b.toJson = some b := by
  have hlifetime := TimeSpan.ofJson?_toJson (h b.lifetime.seconds (by simp [doubles]))
  rw [ofJson?, toJson, Value.fields?_record (by decide) rfl]
  simp [hlifetime, Value.nat?, Value.bool?]

theorem legible_toJson {b : BufferSettings} (h : ∀ x ∈ b.doubles, ReadsBack x)
    (hcapacity : b.capacity ≤ Json.Numeral.largest) : b.toJson.Legible := by
  have hlifetime := Value.legible_ofFloat (h b.lifetime.seconds (by simp [doubles]))
  refine Value.legible_record ?_
  simp [names, TimeSpan.toJson, hlifetime, Value.Legible.nat hcapacity, Value.Legible.bool]

end BufferSettings

/-! ### Policies -/

theorem EvictionPolicy.choice?_name (p : EvictionPolicy) :
    (Value.string p.name).choice? all name = some p := by
  refine Value.choice?_name (by decide) ?_
  obtain ⟨rule, spares⟩ := p
  cases rule <;> cases spares <;> decide

theorem SchedulingPolicy.choice?_name (p : SchedulingPolicy) :
    (Value.string p.name).choice? all name = some p :=
  Value.choice?_name (by decide) (by cases p <;> decide)

theorem AdmissionPolicy.choice?_name (p : AdmissionPolicy) :
    (Value.string p.name).choice? all name = some p :=
  Value.choice?_name (by decide) (by cases p <;> decide)

theorem ForwardingRule.choice?_name (r : ForwardingRule) :
    (Value.string r.name).choice? all name = some r :=
  Value.choice?_name (by decide) (by cases r <;> decide)

namespace PolicyChoice

theorem ofJson?_toJson (p : PolicyChoice) : ofJson? p.toJson = some p := by
  rw [ofJson?, toJson, Value.fields?_record (by decide) rfl]
  simp [EvictionPolicy.choice?_name, SchedulingPolicy.choice?_name, AdmissionPolicy.choice?_name]

theorem legible_toJson (p : PolicyChoice) : p.toJson.Legible := by
  refine Value.legible_record ?_
  simp [names, Value.Legible.string]

end PolicyChoice

/-! ### Protocols and traces -/

namespace Protocol

def doubles (p : Protocol) : List Float := [p.transmissionTime.seconds, p.historyWindow.seconds]

theorem ofJson?_toJson {p : Protocol} (h : ∀ x ∈ p.doubles, x.isFinite = true) :
    ofJson? p.toJson = some p := by
  have htime := TimeSpan.ofJson?_toJson (h p.transmissionTime.seconds (by simp [doubles]))
  have hwindow := TimeSpan.ofJson?_toJson (h p.historyWindow.seconds (by simp [doubles]))
  rw [ofJson?, toJson, Value.fields?_record (by decide) rfl]
  simp [ForwardingRule.choice?_name, htime, hwindow]

theorem legible_toJson {p : Protocol} (h : ∀ x ∈ p.doubles, ReadsBack x) : p.toJson.Legible := by
  have htime := Value.legible_ofFloat (h p.transmissionTime.seconds (by simp [doubles]))
  have hwindow := Value.legible_ofFloat (h p.historyWindow.seconds (by simp [doubles]))
  refine Value.legible_record ?_
  simp [names, TimeSpan.toJson, htime, hwindow, Value.Legible.string]

end Protocol

namespace TraceSettings

def doubles (t : TraceSettings) : List Float :=
  t.interContact.doubles ++ t.contactDuration.doubles ++ t.interGeneration.doubles ++
    [t.checkpointInterval.seconds]

theorem ofJson?_toJson {t : TraceSettings} (h : ∀ x ∈ t.doubles, x.isFinite = true) :
    ofJson? t.toJson = some t := by
  simp only [doubles, List.forall_mem_append, List.forall_mem_singleton] at h
  obtain ⟨⟨⟨hcontact, hduration⟩, hgeneration⟩, hcheckpoint⟩ := h
  rw [ofJson?, toJson, Value.fields?_record (by decide) rfl]
  simp [Distribution.ofJson?_toJson hcontact, Distribution.ofJson?_toJson hduration,
    Distribution.ofJson?_toJson hgeneration, TimeSpan.ofJson?_toJson hcheckpoint]

theorem legible_toJson {t : TraceSettings} (h : ∀ x ∈ t.doubles, ReadsBack x) :
    t.toJson.Legible := by
  simp only [doubles, List.forall_mem_append, List.forall_mem_singleton] at h
  obtain ⟨⟨⟨hcontact, hduration⟩, hgeneration⟩, hcheckpoint⟩ := h
  refine Value.legible_record ?_
  simp [names, TimeSpan.toJson, Distribution.legible_toJson hcontact,
    Distribution.legible_toJson hduration, Distribution.legible_toJson hgeneration,
    Value.legible_ofFloat hcheckpoint]

end TraceSettings

/-! ### Scenarios -/

namespace Scenario

def doubles (s : Scenario) : List Float :=
  [s.duration.seconds] ++ s.buffer.doubles ++ s.protocol.doubles ++ s.trace.doubles

def counts (s : Scenario) : List Nat := [s.nodes, s.buffer.capacity]

theorem ofJson?_toJson {s : Scenario} (h : ∀ x ∈ s.doubles, x.isFinite = true) :
    ofJson? s.toJson = some s := by
  simp only [doubles, List.forall_mem_append, List.forall_mem_singleton] at h
  obtain ⟨⟨⟨hduration, hbuffer⟩, hprotocol⟩, htrace⟩ := h
  have hseed : (Value.nat s.seed.toNat).word64? = some s.seed := by
    simp [Value.word64?, s.seed.toNat_lt]
  rw [ofJson?, toJson, Value.fields?_record (by decide) rfl]
  simp [hseed, Value.nat?, TimeSpan.ofJson?_toJson hduration,
    BufferSettings.ofJson?_toJson hbuffer, PolicyChoice.ofJson?_toJson,
    Protocol.ofJson?_toJson hprotocol, TraceSettings.ofJson?_toJson htrace]

theorem legible_toJson {s : Scenario} (h : ∀ x ∈ s.doubles, ReadsBack x)
    (hcounts : ∀ n ∈ s.counts, n ≤ Json.Numeral.largest) : s.toJson.Legible := by
  have hseed : s.seed.toNat ≤ Json.Numeral.largest := Nat.le_sub_one_of_lt s.seed.toNat_lt
  have hnodes : s.nodes ≤ Json.Numeral.largest := hcounts _ (by simp [counts])
  have hcapacity : s.buffer.capacity ≤ Json.Numeral.largest := hcounts _ (by simp [counts])
  simp only [doubles, List.forall_mem_append, List.forall_mem_singleton] at h
  obtain ⟨⟨⟨hduration, hbuffer⟩, hprotocol⟩, htrace⟩ := h
  refine Value.legible_record ?_
  simp [names, TimeSpan.toJson, Value.legible_ofFloat hduration,
    Value.Legible.nat hseed, Value.Legible.nat hnodes,
    BufferSettings.legible_toJson hbuffer hcapacity, PolicyChoice.legible_toJson,
    Protocol.legible_toJson hprotocol, TraceSettings.legible_toJson htrace]

end Scenario

end OppNet
