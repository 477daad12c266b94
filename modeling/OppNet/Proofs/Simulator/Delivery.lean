import Mathlib.Data.List.Nodup
import Mathlib.Data.List.Perm.Subperm
import OppNet.Proofs.Binary64.Quotient
import OppNet.Proofs.Simulator.Visit

/-!
# OppNet.Proofs.Simulator.Delivery

Nothing arrives that was not generated for the node where it arrives, and the totals tell of every
delivery once.

* `After scenario trace past s`: a reachable network, and the events that have led to it.
* `Accounted made s`: the packets in `made` were generated, as many as are counted, and whatever a
  node carries or has received is among them. Every event keeps this (`Course.accounted`), the
  copies at other nodes and the packets that are transferred more than once included.
* `deliveries_accounted`: what the report says of deliveries.
-/

namespace OppNet

namespace EventKind

/-- The packet that is generated and its destination, if any. -/
def order? : EventKind → Option Shipment
  | generation _ destination packet true => some ⟨destination, packet⟩
  | _ => none

theorem order?_eq_some {k : EventKind} {x : Shipment} (h : k.order? = some x) :
    ∃ source, k = .generation source x.receiver x.packet true := by
  cases k with
  | generation source destination packet valid =>
    cases valid with
    | true =>
      cases h
      exact ⟨source, rfl⟩
    | false => cases h
  | _ => cases h

end EventKind

theorem Packet.Same.shipment {p q : Packet} (h : p.Same q) :
    (⟨p.destination, p.id⟩ : Shipment) = ⟨q.destination, q.id⟩ := by
  rw [Shipment.mk.injEq]
  exact ⟨congrArg (·.2.2) h.route, Packet.id_eq_of_route h.route⟩

namespace Simulator

variable {k : EventKind} {n : NodeId} {node node' : Node} {made made' : List Shipment}
  {s s' : Simulator} {scenario : Scenario} {trace : Trace}

/-! ### What has happened -/

/-- The networks between two events of a run, after the events of a list, the latest one first. -/
inductive After (scenario : Scenario) (trace : Trace) : List Event → Simulator → Prop where
  | start {s : Simulator} (h : ofTrace scenario trace = .ok s) : After scenario trace [] s
  | event {past : List Event} {s : Simulator} {e : Event} {q : Event.Queue}
      (h : After scenario trace past s) (hd : s.due? = some (e, q)) :
      After scenario trace (e :: past) ((process e q).run s).2
  | finish {past : List Event} {s : Simulator} (h : After scenario trace past s)
      (hd : s.due? = none) : After scenario trace past (s.sweepAll s.stop)

theorem Reachable.exists_after (h : Reachable scenario trace s) :
    ∃ past, After scenario trace past s := by
  induction h with
  | start h => exact ⟨[], .start h⟩
  | event _ hd ih =>
    obtain ⟨past, hpast⟩ := ih
    exact ⟨_, hpast.event hd⟩
  | finish _ hd ih =>
    obtain ⟨past, hpast⟩ := ih
    exact ⟨past, hpast.finish hd⟩

/-! ### One node -/

/-- What the node carries was generated, and what it has received was generated for it. -/
structure Earned (made : List Shipment) (n : NodeId) (node : Node) : Prop where
  carried : ∀ p ∈ node.buffer.livePackets, ⟨p.destination, p.id⟩ ∈ made
  received : ∀ id, node.hasReceived id = true → ⟨n, id⟩ ∈ made

theorem Earned.mono (h : Earned made n node) (hsub : made ⊆ made') : Earned made' n node :=
  ⟨fun p hp => hsub (h.carried p hp), fun id hid => hsub (h.received id hid)⟩

theorem mem_received_deliver {id id' : PacketId} (h : (node.deliver id).2.hasReceived id' = true) :
    id' = id ∨ node.hasReceived id' = true := by
  have hmem : (node.received.insert id).contains id' = true := h
  rw [Std.TreeSet.contains_insert, Bool.or_eq_true, beq_iff_eq] at hmem
  exact hmem.imp_left fun heq => (Std.LawfulEqOrd.eq_of_compare heq).symm

theorem size_received_deliver (id : PacketId) (node : Node) : (node.deliver id).2.received.size =
    if node.hasReceived id then node.received.size else node.received.size + 1 :=
  Std.TreeSet.size_insert

theorem Earned.deliver {id : PacketId} (h : Earned made n node) (hid : ⟨n, id⟩ ∈ made) :
    Earned made n (node.deliver id).2 := by
  refine ⟨h.carried, fun id' hid' => ?_⟩
  rcases mem_received_deliver hid' with rfl | hold
  · exact hid
  · exact h.received id' hold

/-- A packet that comes in was generated, for the destination that it has. -/
theorem Earned.inserting {p : Packet} (h : Earned made n node) (now : Time)
    (hp : ⟨p.destination, p.id⟩ ∈ made) : Earned made n (node.inserting now p) := by
  refine ⟨fun q hq => ?_, h.received⟩
  rcases Buffer.mem_livePackets_insert hq with hq | ⟨-, rfl⟩
  · exact h.carried q hq
  · exact hp

/-- Only deliveries that are counted bring anything that was not received before. -/
theorem Touched.hasReceived {id : PacketId} (ht : Touched s n node node')
    (hid : node'.hasReceived id = true) : node.hasReceived id = true := by
  cases ht with
  | @again id' hold =>
    rcases mem_received_deliver hid with rfl | hid
    · exact hold
    · exact hid
  | _ => exact hid

theorem Touched.size_received (ht : Touched s n node node') :
    node'.received.size = node.received.size := by
  cases ht with
  | again hold => rw [size_received_deliver, if_pos hold]
  | _ => rfl

theorem Touched.earned (hs : ∀ m tx, s.node? m = some tx → Earned made m tx)
    (h : Earned made n node) (ht : Touched s n node node') : Earned made n node' := by
  refine ⟨fun p hp => ?_, fun id hid => h.received id (ht.hasReceived hid)⟩
  rcases ht.origin hp with ⟨q, hq, hsame⟩ | ⟨sender, tx, q, htx, hq, hsame⟩
  · rw [hsame.shipment]
    exact h.carried q hq
  · rw [hsame.shipment]
    exact (hs sender tx htx).carried q hq

/-! ### All nodes -/

/-- The books on deliveries, given the packets that were generated and their destinations. -/
structure Accounted (made : List Shipment) (s : Simulator) : Prop where
  earned : ∀ n node, s.node? n = some node → Earned made n node
  generated : s.traffic.generated = made.length
  delivered : s.traffic.delivered = s.total (·.received.size)
  transmitted : s.traffic.delivered ≤ s.traffic.transmitted
  latency : s.latency.total.isSome = true ↔ 0 < s.traffic.delivered

theorem received_putNode {d : Nat} (hn : s.node? n = some node)
    (hsize : node'.received.size = node.received.size + d) :
    (s.putNode n node').total (·.received.size) = s.total (·.received.size) + d := by
  have htotal := total_putNode (·.received.size) hn node'
  have hsilenced : (silenced node').received.size = node.received.size + d := hsize
  omega

namespace Accounted

theorem aside (h : Accounted made s) (hn : s'.nodes = s.nodes) (ha : s'.accounts = s.accounts) :
    Accounted made s' := by
  simp only [accounts, Prod.mk.injEq] at ha
  obtain ⟨hg, hd, ht, hl⟩ := ha
  refine ⟨fun n node hnode => ?_, hg.trans h.generated, ?_, ?_, ?_⟩
  · rw [node?, hn] at hnode
    exact h.earned n node hnode
  · rw [hd, h.delivered, total, total, hn]
  · rw [hd, ht]
    exact h.transmitted
  · rw [hd, hl]
    exact h.latency

theorem touched (h : Accounted made s) (hn : s.node? n = some node) (he : Earned made n node')
    (hsize : node'.received.size = node.received.size) : Accounted made (s.putNode n node') :=
  ⟨forall_putNode h.earned hn ⟨he.carried, he.received⟩, h.generated,
    h.delivered.trans (received_putNode (d := 0) hn hsize).symm, h.transmitted, h.latency⟩

theorem sent (h : Accounted made s) : Accounted made s.withTransfer :=
  ⟨h.earned, h.generated, h.delivered, Nat.le_succ_of_le h.transmitted, h.latency⟩

theorem born {x : Shipment} (h : Accounted made s) (hn : s.node? n = some node)
    (he : Earned (x :: made) n node') (hsize : node'.received.size = node.received.size) :
    Accounted (x :: made) (s.putNode n node').withBirth := by
  have hmore : made ⊆ x :: made := List.subset_cons_self x made
  exact ⟨forall_putNode (fun m other hm => (h.earned m other hm).mono hmore) hn
      ⟨he.carried, he.received⟩, congrArg (· + 1) h.generated,
    h.delivered.trans (received_putNode (d := 0) hn hsize).symm, h.transmitted, h.latency⟩

theorem arrived (h : Accounted made s) (hn : s.node? n = some node) (he : Earned made n node')
    (hsize : node'.received.size = node.received.size + 1) (seconds : Float) :
    Accounted made ((s.withTransfer.putNode n node').withDelivery seconds) := by
  refine ⟨forall_putNode h.earned hn ⟨he.carried, he.received⟩, h.generated, ?_,
    Nat.succ_le_succ h.transmitted, ?_⟩
  · exact (congrArg (· + 1) h.delivered).trans (received_putNode hn hsize).symm
  · refine iff_of_true ?_ (Nat.succ_pos _)
    change (s.latency.record seconds).total.isSome = true
    unfold Mean.record
    split <;> rfl

end Accounted

/-- Whatever an event does, what it leaves is accounted for. -/
theorem Course.accounted (h : Accounted made s) (hc : Course k s s') :
    ∃ made', Accounted made' s' ∧ made ⊆ made' ∧
      ∀ x ∈ made', x ∈ made ∨ k.order? = some x := by
  -- What a sender had when the event began stays generated, whatever is added to it.
  have hs : ∀ made', made ⊆ made' → ∀ m tx, s.node? m = some tx → Earned made' m tx :=
    fun _ hsub m tx htx => (h.earned m tx htx).mono hsub
  induction hc with
  | refl => exact ⟨made, h, fun _ hx => hx, fun _ hx => .inl hx⟩
  | aside _ hn ha ih =>
    obtain ⟨made', h', hsub, hback⟩ := ih
    exact ⟨made', h'.aside hn ha, hsub, hback⟩
  | touch _ hn ht ih =>
    obtain ⟨made', h', hsub, hback⟩ := ih
    have he := ht.earned (hs made' hsub) (h'.earned _ _ hn)
    exact ⟨made', h'.touched hn he ht.size_received, hsub, hback⟩
  | sent _ ih =>
    obtain ⟨made', h', hsub, hback⟩ := ih
    exact ⟨made', h'.sent, hsub, hback⟩
  | @born s₁ n destination id node now _ hk hn ih =>
    obtain ⟨made', h', hsub, hback⟩ := ih
    have hmore : made' ⊆ ⟨destination, id⟩ :: made' := List.subset_cons_self _ _
    have he := ((h'.earned n node hn).mono hmore).inserting (p := .generate id n destination now)
      now (List.mem_cons_self ..)
    refine ⟨_, h'.born hn he rfl, fun x hx => hmore (hsub hx), fun x hx => ?_⟩
    rcases List.mem_cons.mp hx with rfl | hx
    · exact .inr (by rw [hk]; rfl)
    · exact hback x hx
  | @delivered s₁ n sender node tx p seconds _ hn htx hp hd hnew ih =>
    obtain ⟨made', h', hsub, hback⟩ := ih
    have hmade : ⟨n, p.id⟩ ∈ made' := hd ▸ (hs made' hsub sender tx htx).carried p hp
    have hsize : (node.deliver p.id).2.received.size = node.received.size + 1 := by
      rw [size_received_deliver, hnew]
      rfl
    exact ⟨made', h'.arrived hn ((h'.earned n node hn).deliver hmade) hsize seconds, hsub, hback⟩

theorem Fresh.accounted (h : Fresh scenario trace s) : Accounted [] s := by
  have hd : s.traffic.delivered = 0 := congrArg Traffic.delivered h.traffic
  refine ⟨fun n node hn => ?_, congrArg Traffic.generated h.traffic, ?_, ?_, ?_⟩
  · rw [h.nodes n node hn]
    exact ⟨nofun, nofun⟩
  · exact hd.trans (h.total_eq_zero fun _ => rfl).symm
  · omega
  · rw [hd, h.latency]
    exact iff_of_false nofun (Nat.lt_irrefl 0)

/-- Everything that was ever generated, delivered or transferred is accounted for. -/
theorem After.accounted {past : List Event} (h : After scenario trace past s) :
    ∃ made, Accounted made s ∧ ∀ x ∈ made, ∃ e ∈ past, e.kind.order? = some x := by
  induction h with
  | start h => exact ⟨[], (fresh_of_ofTrace h).accounted, nofun⟩
  | @event past s e q _ hd ih =>
    obtain ⟨made, hacc, hpast⟩ := ih
    obtain ⟨made', hacc', _, hback⟩ := (Course.process e q s).accounted hacc
    refine ⟨made', hacc', fun x hx => ?_⟩
    rcases hback x hx with hx | hx
    · obtain ⟨e', he', hx'⟩ := hpast x hx
      exact ⟨e', List.mem_cons_of_mem e he', hx'⟩
    · exact ⟨e, List.mem_cons_self .., hx⟩
  | @finish past s _ _ ih =>
    obtain ⟨made, hacc, hpast⟩ := ih
    have hcourse : Course .checkpoint s (s.sweepAll s.stop) := Course.refl.sweepAll s.stop
    obtain ⟨made', hacc', _, hback⟩ := hcourse.accounted hacc
    refine ⟨made', hacc', fun x hx => ?_⟩
    rcases hback x hx with hx | hx
    · exact hpast x hx
    · cases hx

/-! ### Receipts -/

/-- Everything that was received, with the nodes that received it. -/
def receipts (s : Simulator) : List Shipment :=
  s.nodes.toList.flatMap fun node => node.received.toList.map fun id => ⟨node.id, id⟩

theorem length_receipts (s : Simulator) : s.receipts.length = s.total (·.received.size) := by
  simp [receipts, total, List.length_flatMap, Std.TreeSet.length_toList]

/-- Nodes have different names, and receive nothing twice. -/
theorem nodup_receipts (h : Sane scenario s) : s.receipts.Nodup := by
  rw [receipts, List.nodup_flatMap]
  constructor
  · intro node _
    have hdistinct : node.received.toList.Nodup := by
      refine node.received.distinct_toList.imp fun hne heq => hne ?_
      rw [heq]
      exact Std.compare_self
    exact hdistinct.map fun _ _ heq => (Shipment.mk.inj heq).2
  · refine List.pairwise_iff_getElem.mpr fun i j hi hj hij x hxi hxj => ?_
    have hname : ∀ m (hm : m < s.nodes.toList.length), s.nodes.toList[m].id = ⟨m⟩ := by
      intro m hm
      refine (h.nodes ⟨m⟩ _ ?_).id
      exact (Array.getElem?_toList.symm.trans (List.getElem?_eq_getElem hm))
    obtain ⟨_, _, rfl⟩ := List.mem_map.mp hxi
    obtain ⟨_, _, heq⟩ := List.mem_map.mp hxj
    have hids := (Shipment.mk.inj heq).1
    rw [hname i hi, hname j hj] at hids
    have := NodeId.mk.inj hids
    omega

theorem receipts_subset (h : Accounted made s) (hs : Sane scenario s) : s.receipts ⊆ made := by
  intro x hx
  obtain ⟨node, hnode, hx⟩ := List.mem_flatMap.mp hx
  obtain ⟨id, hid, rfl⟩ := List.mem_map.mp hx
  obtain ⟨n, hn⟩ := exists_node? hnode
  rw [(hs.nodes n node hn).id]
  refine (h.earned n node hn).received id ?_
  exact Std.TreeSet.mem_iff_contains.mp (Std.TreeSet.mem_toList.mp hid)

/-- What was received was generated, each receipt by itself. -/
theorem Accounted.delivered_le (h : Accounted made s) (hs : Sane scenario s) :
    s.traffic.delivered ≤ s.traffic.generated := by
  rw [h.delivered, h.generated, ← length_receipts]
  exact ((nodup_receipts hs).subperm (receipts_subset h hs)).length_le

/-! ### Reports -/

theorem deliveryRatio_between {r : Report} (h : r.delivered ≤ r.generated)
    (hlt : r.generated < UInt64.size) : 0.0 ≤ r.deliveryRatio ∧ r.deliveryRatio ≤ 1.0 := by
  unfold Report.deliveryRatio
  split
  · decide
  · exact Binary64.share_between (by omega) h hlt

/--
Whatever the trace, and whether events failed or not: the deliveries in the report are what the
nodes have received, which was generated for them by events before. So there are no more deliveries
than packets or transfers, their ratio lies between zero and one, and there is a mean latency as
soon as there is a delivery. Counts that are too large for a double have no ratio: it is about those
of 64 bits.
-/
theorem deliveries_accounted (h : Reachable scenario trace s) :
    s.report.delivered = s.total (·.received.size) ∧
    (∃ past, After scenario trace past s) ∧
    (∀ past n node id, After scenario trace past s → s.node? n = some node →
      node.hasReceived id = true → ∃ e ∈ past, ∃ source, e.kind = .generation source n id true) ∧
    s.report.delivered ≤ s.report.generated ∧ s.report.delivered ≤ s.report.transmitted ∧
    (s.report.generated < UInt64.size →
      0.0 ≤ s.report.deliveryRatio ∧ s.report.deliveryRatio ≤ 1.0) ∧
    (s.report.meanLatency.isSome = true ↔ 0 < s.report.delivered) := by
  obtain ⟨past, hpast⟩ := h.exists_after
  obtain ⟨made, hacc, _⟩ := hpast.accounted
  have hle := hacc.delivered_le h.sane
  have hlatency : s.report.meanLatency.isSome = s.latency.total.isSome := by
    simp [report, Mean.value?]
  rw [← toTraffic_report s] at hle
  refine ⟨?_, ⟨past, hpast⟩, fun past n node id hpast hn hid => ?_, hle, ?_,
    deliveryRatio_between hle, ?_⟩
  · rw [toTraffic_report]
    exact hacc.delivered
  · obtain ⟨made, hacc, hmade⟩ := hpast.accounted
    obtain ⟨e, he, horder⟩ := hmade _ ((hacc.earned n node hn).received id hid)
    exact ⟨e, he, EventKind.order?_eq_some horder⟩
  · rw [toTraffic_report]
    exact hacc.transmitted
  · rw [hlatency, toTraffic_report]
    exact hacc.latency

end Simulator

/-- A packet that is generated and sent twice, and another one that is sent to nobody. -/
def Trace.repeated : Trace where
  events :=
    [⟨⟨1.0⟩, .generation ⟨0⟩ ⟨1⟩ ⟨0⟩ true⟩, ⟨⟨2.0⟩, .transmission ⟨0⟩ ⟨1⟩ ⟨0⟩ true⟩,
      ⟨⟨3.0⟩, .generation ⟨0⟩ ⟨1⟩ ⟨0⟩ true⟩, ⟨⟨4.0⟩, .transmission ⟨0⟩ ⟨1⟩ ⟨0⟩ true⟩,
      ⟨⟨5.0⟩, .generation ⟨0⟩ ⟨1⟩ ⟨1⟩ true⟩, ⟨⟨6.0⟩, .transmission ⟨0⟩ ⟨5⟩ ⟨1⟩ true⟩]
  contacts := 0
  packets := 3

namespace Simulator

/-- A run that ends in a failure, after two transfers of one packet to its destination. -/
theorem repeated_deliveries : ∃ s, Reachable Scenario.pair Trace.repeated s ∧
    (run.run s).1 = .error (.unknownNode ⟨5⟩) ∧ (run.run s).2.report.generated = 3 ∧
    (run.run s).2.report.transmitted = 2 ∧ (run.run s).2.report.delivered = 1 ∧
    (run.run s).2.total (·.received.size) = 1 ∧
    (∃ past, After Scenario.pair Trace.repeated past (run.run s).2 ∧
      ∃ e ∈ past, ∃ source, e.kind = .generation source ⟨1⟩ ⟨0⟩ true) ∧
    0.0 ≤ (run.run s).2.report.deliveryRatio ∧ (run.run s).2.report.deliveryRatio ≤ 1.0 ∧
    (run.run s).2.report.meanLatency.isSome = true := by
  obtain ⟨s, hs, hp⟩ := exists_reachable Scenario.pair Trace.repeated 0
    (fun s => decide ((match (run.run s).1 with
        | .ok _ => none
        | .error f => some f) = some (.unknownNode ⟨5⟩) ∧
      (run.run s).2.report.generated = 3 ∧ (run.run s).2.report.transmitted = 2 ∧
      (run.run s).2.report.delivered = 1) &&
      ((run.run s).2.node? ⟨1⟩).any (·.hasReceived ⟨0⟩)) (by decide +kernel)
  obtain ⟨hreport, hreceived⟩ := Bool.and_eq_true_iff.mp hp
  obtain ⟨hfault, hg, ht, hd⟩ := of_decide_eq_true hreport
  obtain ⟨node, hn, hid⟩ := (Option.any_eq_true _ _).mp hreceived
  have hreach := (Reaches.run hs).reachable
  obtain ⟨htotal, ⟨past, hpast⟩, horigin, _, _, hratio, hlatency⟩ := deliveries_accounted hreach
  obtain ⟨hlow, hhigh⟩ := hratio (by rw [hg]; decide)
  refine ⟨s, hs, ?_, hg, ht, hd, htotal.symm.trans hd,
    ⟨past, hpast, horigin past _ _ _ hpast hn hid⟩, hlow, hhigh, ?_⟩
  · cases hr : (run.run s).1 with
    | ok r =>
      rw [hr] at hfault
      cases hfault
    | error f =>
      rw [hr] at hfault
      cases hfault
      rfl
  · rw [hlatency, hd]
    decide

end Simulator

end OppNet
