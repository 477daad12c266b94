import OppNet.Proofs.Buffer.Contents
import OppNet.Proofs.Buffer.Expiry
import OppNet.Proofs.Packet.Thresholds

/-!
# OppNet.Proofs.Buffer.Thresholds

What requests do to the thresholds of live packets, as far as these can be compared.

* `Learnt now b p r`: where the thresholds of a packet come from that is live after a request.
  `learnt_perform`: every request.
* `Undercut`: a packet is combined with one that has a threshold below zero where it has none.
* `thresholds_grow`: no threshold of a live packet goes down unless it is undercut, and then it
  does. An offer is answered with whether it has raised the threshold.
-/

namespace OppNet.Buffer

open Binary64 Packet

variable {now : Time} {b : Buffer} {r : Request} {id : PacketId} {p p' : Packet}

def Request.packets : Request → List Packet
  | .insert p => [p]
  | .insertCoded p q => [p, q]
  | _ => []

/-- No threshold that the request stores or offers is the NaN. -/
def Request.Comparable : Request → Prop
  | .updateThreshold _ _ value => value.isNaN = false
  | r => ∀ p ∈ r.packets, p.Comparable

/-- No threshold of a live packet is the NaN. -/
def Comparable (b : Buffer) : Prop := ∀ p ∈ b.livePackets, p.Comparable

def Combines (now : Time) (b : Buffer) (r : Request) (id partner : PacketId) : Prop :=
  (r = .compact id partner ∨ r = .compact partner id) ∧ (b.perform now r).1 = .ok .done

/-- The request combines the packet with one that undercuts its threshold. -/
def Undercut (now : Time) (b : Buffer) (r : Request) (id : PacketId) (metric : Nat) : Prop :=
  ∃ partner p q, Combines now b r id partner ∧
    (b.perform now (.ask (.packet id))).1 = .ok (.packet p) ∧
    (b.perform now (.ask (.packet partner))).1 = .ok (.packet q) ∧ q.Undercuts p metric

/-- Where the thresholds of a packet come from that is live after the request. -/
inductive Learnt (now : Time) (b : Buffer) (p : Packet) : Request → Prop
  | kept {r : Request} {q : Packet} (hq : q ∈ (b.sweep now).livePackets) (hid : p.id = q.id)
    (hth : p.thresholds = q.thresholds) (hapart : ∀ partner, ¬ Combines now b r p.id partner) :
    Learnt now b p r
  | brought {r : Request} {q : Packet} (hq : q ∈ r.packets) (hnew : q.id ∉ (b.sweep now).liveIds)
    (hid : p.id = q.id) (hth : p.thresholds = q.thresholds) : Learnt now b p r
  | raised {id : PacketId} {metric : Nat} {value : Float} {q : Packet}
    (hq : q ∈ (b.sweep now).livePackets) (hid : q.id = id)
    (hp : p = q.raiseThreshold metric value) : Learnt now b p (.updateThreshold id metric value)
  | merged {q q' : Packet} (hq : q ∈ (b.sweep now).livePackets)
    (hq' : q' ∈ (b.sweep now).livePackets)
    (hok : (b.perform now (.compact q.id q'.id)).1 = .ok .done) (hid : p.id = q.id ∨ p.id = q'.id)
    (hth : p.thresholds = mergeThresholds q.thresholds q'.thresholds) :
    Learnt now b p (.compact q.id q'.id)

theorem not_combines {partner : PacketId} (hr : r.isCompact = false) :
    ¬ Combines now b r id partner := by
  rintro ⟨rfl | rfl, -⟩ <;> cases hr

theorem Learnt.of_swept (hp : p ∈ (b.sweep now).livePackets) (hr : r.isCompact = false) :
    Learnt now b p r :=
  .kept hp rfl rfl fun _ => not_combines hr

theorem learnt_modify {α : Type} {f : Packet → Except Fault (α × Packet)}
    (hf : ∀ q a q', f q = .ok (a, q') → q'.id = q.id ∧ q'.thresholds = q.thresholds)
    (hp : p ∈ ((b.sweep now).modify now id f).2.livePackets) (hr : r.isCompact = false) :
    Learnt now b p r := by
  rcases mem_livePackets_modify hp with hp | ⟨q, hq, -, a, hfq⟩
  · exact .of_swept hp hr
  · obtain ⟨hid, hth⟩ := hf q a p hfq
    exact .kept hq hid hth fun _ => not_combines hr

theorem perform_sweep_snd (now : Time) (b : Buffer) (r : Request) :
    ((b.sweep now).perform now r).2 = (b.perform now r).2 := by
  by_cases hr : r = .removeExpired
  · rw [hr]
    exact sweep_sweep now b
  · rw [perform_sweep hr]

theorem compact_accepted_iff {x y : PacketId} :
    (b.perform now (.compact x y)).1 = .ok .done ↔ (b.compact now x y).1 = .ok () := by
  simp only [perform, Outcome.map]
  cases (b.compact now x y).1 with
  | ok u => simp
  | error f => simp

theorem learnt_perform (hb : Integrity b.entries) (hp : p ∈ (b.perform now r).2.livePackets) :
    Learnt now b p r := by
  have hs := integrity_sweep hb now
  rw [← perform_sweep_snd] at hp
  cases r with
  | insert q =>
    rcases mem_livePackets_insert hp with hp | ⟨hnew, rfl⟩
    · exact .of_swept hp rfl
    · rw [sweep_sweep] at hnew
      exact .brought (List.mem_singleton_self q) (hs.not_mem_liveIds_of_holds hnew) rfl rfl
  | insertCoded q q' =>
    rcases mem_livePackets_insertCoded hp with hp | ⟨r, hr, hnew, rfl⟩
    · exact .of_swept hp rfl
    · rw [sweep_sweep] at hnew
      exact .brought hr (hs.not_mem_liveIds_of_holds hnew) rfl rfl
  | compact x y =>
    have hcompact : (b.sweep now).compact now x y = b.compact now x y := by
      simp only [compact, sweep_sweep]
    have hp' : p ∈ (b.compact now x y).2.livePackets := hcompact ▸ hp
    rcases mem_livePackets_compact hb hp' with
      ⟨hp, hapart⟩ | ⟨hok, hid, q, hq, q', hq', rfl, rfl, hth⟩
    · refine .kept hp rfl rfl ?_
      rintro partner ⟨heq | heq, hdone⟩
      · cases heq
        exact (hapart (compact_accepted_iff.mp hdone)).1 rfl
      · cases heq
        exact (hapart (compact_accepted_iff.mp hdone)).2 rfl
    · exact .merged hq hq' (compact_accepted_iff.mpr hok) hid hth
  | remove id => exact .of_swept (mem_livePackets_remove hp) rfl
  | removeExpired => exact .of_swept (mem_of_mem_livePackets_sweep hp) rfl
  | ask q => exact .of_swept (mem_of_mem_livePackets_sweep hp) rfl
  | updateThreshold id metric value =>
    rcases mem_livePackets_modify hp with hp | ⟨q, hq, hid, _, hf⟩
    · exact .of_swept hp rfl
    · cases hf
      exact .raised hq hid rfl
  | setReplicas id n => exact learnt_modify (fun _ _ _ hf => by cases hf; exact ⟨rfl, rfl⟩) hp rfl
  | splitReplicas id give =>
    refine learnt_modify (fun q a q' hf => ?_) hp rfl
    split at hf
    · cases hf
    · cases hf
      exact ⟨rfl, rfl⟩
  | markForwarded id => exact learnt_modify (fun _ _ _ hf => by cases hf; exact ⟨rfl, rfl⟩) hp rfl
  | addForwarder id n => exact learnt_modify (fun _ _ _ hf => by cases hf; exact ⟨rfl, rfl⟩) hp rfl
  | addPreviousHop id n =>
    exact learnt_modify (fun _ _ _ hf => by cases hf; exact ⟨rfl, rfl⟩) hp rfl

/-! ### Thresholds that can be compared -/

theorem Learnt.comparable (h : Learnt now b p r) (hb : b.Comparable) (hr : r.Comparable) :
    p.Comparable := by
  have hswept : ∀ q ∈ (b.sweep now).livePackets, q.Comparable :=
    fun q hq => hb q (mem_of_mem_livePackets_sweep hq)
  cases h with
  | @kept _ q hq _ hth _ =>
    rw [Packet.Comparable, hth]
    exact hswept q hq
  | @brought _ q hq _ _ hth =>
    rw [Packet.Comparable, hth]
    cases r with
    | insert => exact hr q hq
    | insertCoded => exact hr q hq
    | _ => cases hq
  | raised hq _ hp =>
    rw [hp]
    exact (hswept _ hq).raiseThreshold hr
  | merged hq hq' _ _ hth =>
    rw [Packet.Comparable, hth]
    exact fun t ht => (mem_mergeThresholds ht).elim (hswept _ hq t) (hswept _ hq' t)

/-- As long as no NaN is brought in, none is stored. -/
theorem comparable_run (capacity : Nat) (lifetime : TimeSpan) (eviction : EvictionPolicy)
    (recording : Bool) {rs : List (Time × Request)} (hrs : ∀ x ∈ rs, x.2.Comparable) :
    ((Buffer.new capacity lifetime eviction recording).run rs).Comparable := by
  have hrun : ∀ (b : Buffer), Integrity b.entries → b.Comparable → (b.run rs).Comparable := by
    induction rs with
    | nil => exact fun _ _ hb => hb
    | cons x rest ih =>
      intro b hi hb
      refine ih (fun y hy => hrs y (List.mem_cons_of_mem x hy)) _ (integrity_perform hi x.1 x.2) ?_
      exact fun p hp => (learnt_perform hi hp).comparable hb (hrs x List.mem_cons_self)
  exact hrun _ (integrity_run capacity lifetime eviction recording []) nofun

/-! ### Thresholds before and after -/

theorem ask_packet_iff :
    (b.perform now (.ask (.packet id))).1 = .ok (.packet p) ↔ (b.sweep now).find? id = some p := by
  simp only [perform, answer, about]
  cases (b.sweep now).find? id with
  | none => simp
  | some q => simp

theorem undercut_iff {partner : PacketId} {q : Packet} {metric : Nat}
    (h : Combines now b r id partner) (hp : (b.sweep now).find? id = some p)
    (hq : (b.sweep now).find? partner = some q) :
    Undercut now b r id metric ↔ q.Undercuts p metric := by
  constructor
  · rintro ⟨partner', p₁, q₁, h', hp₁, hq₁, hlow⟩
    have hsame : partner' = partner := by
      rcases h.1 with rfl | rfl <;> rcases h'.1 with heq | heq <;> cases heq <;> rfl
    subst hsame
    rw [ask_packet_iff, hp, Option.some_inj] at hp₁
    rw [ask_packet_iff, hq, Option.some_inj] at hq₁
    rw [hp₁, hq₁]
    exact hlow
  · exact fun hlow => ⟨partner, p, q, h, ask_packet_iff.mpr hp, ask_packet_iff.mpr hq, hlow⟩

/-- The thresholds of a packet that is live before and after go down where they are undercut. -/
theorem threshold_le_iff (hb : Integrity b.entries) (hnum : b.Comparable) (hr : r.Comparable)
    (hp : (b.sweep now).find? id = some p) (hp' : p' ∈ (b.perform now r).2.livePackets)
    (hid' : p'.id = id) (metric : Nat) :
    p.threshold metric ≤ p'.threshold metric ↔ ¬ Undercut now b r id metric := by
  have hs := integrity_sweep hb now
  obtain ⟨rfl, hlive⟩ := mem_liveIds_of_find? hp
  have hmem := mem_livePackets_of_find? hp
  have hpnum : p.Comparable := hnum p (mem_of_mem_livePackets_sweep hmem)
  cases learnt_perform hb hp' with
  | @kept _ q hq hid hth hapart =>
    obtain rfl : q = p := eq_of_live hs hq hmem (hid.symm.trans hid')
    refine iff_of_true ?_ fun ⟨partner, _, _, hcombines, _⟩ => hapart partner (hid' ▸ hcombines)
    rw [threshold_eq, threshold_eq, hth, ← threshold_eq]
    exact le_refl_of_number (hpnum.threshold metric)
  | brought _ hnew hid _ => exact absurd (hid'.symm.trans hid ▸ hlive) hnew
  | @raised id slot value q hq hid heq =>
    obtain ⟨_, hraised⟩ := q.raiseThreshold_eq slot value
    obtain rfl : q = p := eq_of_live hs hq hmem (by rw [← hid', heq, hraised])
    refine iff_of_true ?_ fun ⟨partner, _, _, hcombines, _⟩ => not_combines rfl hcombines
    rw [heq, threshold_raiseThreshold]
    split
    · rename_i hbeats
      exact hbeats.1 ▸ le_of_lt_of_numbers (hpnum.threshold slot) hr
        (lt_of_beatsThreshold hpnum hbeats.2)
    · exact le_refl_of_number (hpnum.threshold metric)
  | @merged q q' hq hq' hok hid hth =>
    have hqnum : q.Comparable := hnum q (mem_of_mem_livePackets_sweep hq)
    have hqnum' : q'.Comparable := hnum q' (mem_of_mem_livePackets_sweep hq')
    obtain ⟨hfirst, hsecond⟩ := le_mergeThresholds_iff hqnum hqnum' metric
    rw [threshold_eq metric p', hth]
    rcases hid with hid | hid
    · obtain rfl : q = p := eq_of_live hs hq hmem (hid.symm.trans hid')
      rw [hfirst, undercut_iff ⟨.inl rfl, hok⟩ hp (find?_of_live hs hq')]
    · obtain rfl : q' = p := eq_of_live hs hq' hmem (hid.symm.trans hid')
      rw [hsecond, undercut_iff ⟨.inr rfl, hok⟩ hp (find?_of_live hs hq)]

/-- An offer is answered from the packet, which is the raised one afterwards. -/
theorem perform_updateThreshold (hb : Integrity b.entries) (metric : Nat) (value : Float)
    (hp : (b.sweep now).find? id = some p) :
    (b.perform now (.updateThreshold id metric value)).1 =
        .ok (.flag (p.beatsThreshold metric value)) ∧
      ∀ p' ∈ (b.perform now (.updateThreshold id metric value)).2.livePackets, p'.id = id →
        p' = p.raiseThreshold metric value := by
  obtain ⟨_, hraised⟩ := p.raiseThreshold_eq metric value
  obtain ⟨hanswer, hfind⟩ := find?_modify
    (f := fun p => .ok (p.beatsThreshold metric value, p.raiseThreshold metric value)) hp rfl
    (by rw [hraised]; rfl)
  constructor
  · simp only [perform, Outcome.map, updateThreshold, hanswer]
  · intro p' hp' hid
    exact eq_of_live (integrity_perform hb now _) hp'
      (mem_of_mem_livePackets_sweep (mem_livePackets_of_find? hfind))
      (hid.trans (mem_liveIds_of_find? hfind).1.symm)

theorem ask_threshold_eq_ok {metric : Nat} {x : Float}
    (h : (b.perform now (.ask (.threshold id metric))).1 = .ok (.level x)) :
    ∃ p, (b.sweep now).find? id = some p ∧ p.threshold metric = x := by
  obtain ⟨p, hp, hx⟩ := about_eq_ok h
  cases hx
  exact ⟨p, hp, rfl⟩

/--
Thresholds grow. If no NaN is brought in, the threshold of a packet that is live before a request
and after it does not go down, unless the request combines the packet with one that undercuts it,
and then it does go down. An offer is answered with whether the threshold reads differently now.
-/
theorem thresholds_grow (capacity : Nat) (lifetime : TimeSpan) (eviction : EvictionPolicy)
    (recording : Bool) {rs : List (Time × Request)} (hrs : ∀ x ∈ rs, x.2.Comparable) (now : Time)
    {r : Request} (hr : r.Comparable) :
    let b := (Buffer.new capacity lifetime eviction recording).run rs
    ∀ (later : Time) (id : PacketId) (metric : Nat) (x y : Float),
      (b.perform now (.ask (.threshold id metric))).1 = .ok (.level x) →
      ((b.perform now r).2.perform later (.ask (.threshold id metric))).1 = .ok (.level y) →
      (x ≤ y ↔ ¬ Undercut now b r id metric) ∧
      ∀ value, r = .updateThreshold id metric value →
        ∃ raised, (b.perform now r).1 = .ok (.flag raised) ∧ (raised = true ↔ y ≠ x) ∧
          (raised = true → y = value) := by
  intro b later id metric x y hbefore hafter
  have hb : Integrity b.entries := integrity_run capacity lifetime eviction recording rs
  have hnum : b.Comparable := comparable_run capacity lifetime eviction recording hrs
  obtain ⟨p, hp, rfl⟩ := ask_threshold_eq_ok hbefore
  obtain ⟨p', hp', rfl⟩ := ask_threshold_eq_ok hafter
  have hlive := mem_of_mem_livePackets_sweep (mem_livePackets_of_find? hp')
  have hid' := (mem_liveIds_of_find? hp').1
  refine ⟨threshold_le_iff hb hnum hr hp hlive hid' metric, ?_⟩
  rintro value rfl
  obtain ⟨hanswer, hafter⟩ := perform_updateThreshold hb metric value hp
  rw [hafter p' hlive hid']
  refine ⟨p.beatsThreshold metric value, hanswer, beatsThreshold_iff ?_, fun hbeats => ?_⟩
  · exact hnum p (mem_of_mem_livePackets_sweep (mem_livePackets_of_find? hp))
  · rw [threshold_raiseThreshold, if_pos ⟨rfl, hbeats⟩]

/-- Two packets that can be combined. The second one has a threshold below zero. -/
def lopsided : List (Time × Request) :=
  [(⟨0.0⟩, .insert (.generate ⟨1⟩ ⟨0⟩ ⟨1⟩ ⟨0.0⟩)),
    (⟨0.0⟩, .insert { Packet.generate ⟨2⟩ ⟨1⟩ ⟨0⟩ ⟨0.0⟩ with thresholds := [-1.0] })]

theorem lopsided_comparable : ∀ x ∈ lopsided, x.2.Comparable := by
  intro x hx
  rcases List.mem_cons.mp hx with rfl | hx
  · intro p hp t ht
    obtain rfl := List.mem_singleton.mp hp
    cases ht
  · obtain rfl := List.mem_singleton.mp hx
    intro p hp t ht
    obtain rfl := List.mem_singleton.mp hp
    obtain rfl := List.mem_singleton.mp ht
    decide +kernel

/-- The first packet is undercut when it is combined with the second one. -/
theorem lopsided_undercut :
    let b := (Buffer.new 10 ⟨0.0⟩ ⟨.front, false⟩ false).run lopsided
    (∀ x ∈ lopsided, x.2.Comparable) ∧ Undercut ⟨1.0⟩ b (.compact ⟨1⟩ ⟨2⟩) ⟨1⟩ 0 := by
  obtain ⟨hgrows, -⟩ := thresholds_grow 10 ⟨0.0⟩ ⟨.front, false⟩ false lopsided_comparable ⟨1.0⟩
    (r := .compact ⟨1⟩ ⟨2⟩) nofun ⟨1.0⟩ ⟨1⟩ 0 0.0 (-1.0) (by decide +kernel) (by decide +kernel)
  have hlower : ¬ (0.0 : Float) ≤ -1.0 := by decide +kernel
  exact ⟨lopsided_comparable, Classical.not_not.mp fun hnot => hlower (hgrows.mpr hnot)⟩

/-- Thresholds do not always grow. -/
theorem lopsided_drops :
    ¬ ∀ (capacity : Nat) (lifetime : TimeSpan) (eviction : EvictionPolicy) (recording : Bool)
      (rs : List (Time × Request)), (∀ x ∈ rs, x.2.Comparable) → ∀ (now : Time) (r : Request),
      r.Comparable →
      let b := (Buffer.new capacity lifetime eviction recording).run rs
      ∀ (later : Time) (id : PacketId) (metric : Nat) (x y : Float),
        (b.perform now (.ask (.threshold id metric))).1 = .ok (.level x) →
        ((b.perform now r).2.perform later (.ask (.threshold id metric))).1 = .ok (.level y) →
        x ≤ y := by
  intro hclaim
  have hgrown := hclaim 10 ⟨0.0⟩ ⟨.front, false⟩ false lopsided lopsided_comparable ⟨1.0⟩
    (.compact ⟨1⟩ ⟨2⟩) nofun ⟨1.0⟩ ⟨1⟩ 0 0.0 (-1.0) (by decide +kernel) (by decide +kernel)
  exact absurd hgrown (by decide +kernel)

end OppNet.Buffer
