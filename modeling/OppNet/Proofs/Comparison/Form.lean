import OppNet.Comparison.Form
import OppNet.Proofs.Scenario.Form

/-!
# OppNet.Proofs.Comparison.Form

Reports and lists of trials are found again in their JSON form, with a mean latency or without.
-/

namespace OppNet

open Json (Value ReadsBack)

namespace Report

def doubles (r : Report) : List Float := (r.meanLatency.map TimeSpan.seconds).toList

def counts (r : Report) : List Nat :=
  [r.events, r.contacts, r.generated, r.delivered, r.transmitted, r.aborted, r.dropped,
    r.droppedSource, r.droppedRelayed, r.expired]

theorem orNull?_latency {latency : Option TimeSpan}
    (h : ∀ x ∈ (latency.map TimeSpan.seconds).toList, x.isFinite = true) :
    ((latency.map TimeSpan.toJson).getD .null).orNull? TimeSpan.ofJson? = some latency := by
  cases latency with
  | none => rfl
  | some d =>
    have hd := h d.seconds (by simp)
    have hjson : d.toJson = .float d.seconds := if_pos hd
    have hread : TimeSpan.ofJson? (.float d.seconds) = some d := by
      rw [← hjson, TimeSpan.ofJson?_toJson hd]
    rw [Option.map_some, Option.getD_some, hjson]
    exact congrArg (Option.map some) hread

theorem ofJson?_toJson {r : Report} (h : ∀ x ∈ r.doubles, x.isFinite = true) :
    ofJson? r.toJson = some r := by
  have hkept : r.toJson.nullIfMissing "mean_latency" = r.toJson := rfl
  have hlatency := orNull?_latency h
  rw [ofJson?, hkept, toJson, Value.fields?_record (by decide) rfl]
  -- The counts are there as they stand; only the latency is decoded.
  exact congrArg (Option.bind · _) hlatency

theorem legible_toJson {r : Report} (h : ∀ x ∈ r.doubles, ReadsBack x)
    (hcounts : ∀ n ∈ r.counts, n ≤ Json.Numeral.largest) : r.toJson.Legible := by
  have hlatency : ((r.meanLatency.map TimeSpan.toJson).getD .null).Legible := by
    cases hl : r.meanLatency with
    | none => exact .null
    | some d => exact Value.legible_ofFloat (h d.seconds (by simp [doubles, hl]))
  have hcount : ∀ n ∈ r.counts, (Value.nat n).Legible := fun n hn => .nat (hcounts n hn)
  simp only [counts, List.forall_mem_cons] at hcount
  refine Value.legible_record ?_
  simp [names, hcount, hlatency]

end Report

namespace Trial

def doubles (trials : List Trial) : List Float := trials.flatMap fun t => t.report.doubles

def counts (trials : List Trial) : List Nat := trials.flatMap fun t => t.report.counts

theorem ofJson?_toJson {t : Trial} (h : ∀ x ∈ t.report.doubles, x.isFinite = true) :
    ofJson? t.toJson = some t := by
  rw [ofJson?, toJson, Value.fields?_record (by decide) rfl]
  simp [PolicyChoice.ofJson?_toJson, Report.ofJson?_toJson h]

theorem legible_toJson {t : Trial} (h : ∀ x ∈ t.report.doubles, ReadsBack x)
    (hcounts : ∀ n ∈ t.report.counts, n ≤ Json.Numeral.largest) : t.toJson.Legible := by
  refine Value.legible_record ?_
  simp [names, PolicyChoice.legible_toJson, Report.legible_toJson h hcounts]

theorem listOfJson?_listToJson {trials : List Trial}
    (h : ∀ x ∈ doubles trials, x.isFinite = true) :
    listOfJson? (listToJson trials) = some trials := by
  refine Value.mapM_eq_some ?_
  rw [List.forall₂_map_left_iff, List.forall₂_same]
  exact fun t ht => ofJson?_toJson fun x hx => h x (List.mem_flatMap.mpr ⟨t, ht, hx⟩)

theorem legible_listToJson {trials : List Trial} (h : ∀ x ∈ doubles trials, ReadsBack x)
    (hcounts : ∀ n ∈ counts trials, n ≤ Json.Numeral.largest) : (listToJson trials).Legible := by
  refine .array fun v hv => ?_
  obtain ⟨t, ht, rfl⟩ := List.mem_map.mp hv
  exact legible_toJson (fun x hx => h x (List.mem_flatMap.mpr ⟨t, ht, hx⟩))
    fun n hn => hcounts n (List.mem_flatMap.mpr ⟨t, ht, hn⟩)

end Trial

end OppNet
