import OppNet.Proofs.Simulator.Birth
import OppNet.Proofs.Simulator.Exclusive

/-!
# OppNet.Proofs.Simulator.Conservation

Where nobody but the network itself queues transfers, none is wasted.

* `Orderly`: the marks are exactly the pending transfers, no transfer is pending twice, and the
  receiver of a valid one neither has the packet nor has had it. `Orderly.handled`: every event
  keeps this, since a packet reaches a node by its birth or by the one transfer pending to it.
* `Handled.balance`: what one event adds to the totals.
* `copies_conserved`: every copy in the network is accounted for.
-/

namespace OppNet.Simulator

variable {now : Time} {s s' : Simulator} {es es' : List Event} {scenario : Scenario} {trace : Trace}

/-- The pending transfers are marked, and the valid ones are of use. -/
structure Orderly (es : List Event) (s : Simulator) : Prop where
  received : ∀ n node id, s.node? n = some node → node.hasReceived id = true → id ∉ births es
  born : ∀ x ∈ shipments es, x.packet ∉ births es
  apart : (shipments es).Nodup
  marks : ∀ x, x ∈ s.inFlight ↔ x ∈ shipments es
  receivers : ∀ x ∈ shipments es, s.node? x.receiver ≠ none
  lacking : ∀ x ∈ underway es, ∀ rx, s.node? x.receiver = some rx →
    x.packet ∉ rx.buffer.liveIds ∧ rx.hasReceived x.packet = false

namespace Orderly

theorem matched (h : Orderly es s) : Matched es s := ⟨h.apart, h.marks, h.receivers⟩

theorem of_cons {e : Event} (h : Orderly (e :: es) s) (he : e.kind.shipment? = none) :
    Orderly es s := by
  have hship := shipments_cons_of_none he es
  have hsub := (births_sublist_cons e es).subset
  have hvalid : underway (e :: es) = underway es := by
    refine List.filterMap_cons_none ?_
    cases hv : e.kind.validShipment? with
    | none => rfl
    | some x =>
      rw [EventKind.shipment?_of_valid hv] at he
      cases he
  constructor
  · exact fun n node id hn hid hbirth => h.received n node id hn hid (hsub hbirth)
  · exact fun x hx hbirth => h.born x (hship ▸ hx) (hsub hbirth)
  · exact hship ▸ h.apart
  · exact fun x => hship ▸ h.marks x
  · exact fun x hx => h.receivers x (hship ▸ hx)
  · exact fun x hx => h.lacking x (hvalid ▸ hx)

/-- Nothing reaches a node but what has been born and is not under way to it. -/
theorem of_advanced {new : NodeId → PacketId → Prop} (h : Orderly es s) (ha : Advanced new s s')
    (hm : s'.inFlight = s.inFlight)
    (hnew : ∀ n id, new n id → id ∉ births es ∧ ⟨n, id⟩ ∉ underway es) : Orderly es s' where
  received n node' id hn' hid := by
    obtain ⟨node, hn, hadv⟩ := ha.back hn'
    rcases hadv.received id hid with hold | hid
    · exact h.received n node id hn hold
    · exact (hnew n id hid).1
  born := h.born
  apart := h.apart
  marks x := by rw [hm]; exact h.marks x
  receivers x hx hnone := h.receivers x hx (ha.node?_eq_none.mp hnone)
  lacking x hx rx' hrx' := by
    obtain ⟨rx, hrx, hadv⟩ := ha.back hrx'
    obtain ⟨hlive, hold⟩ := h.lacking x hx rx hrx
    have hx' : ¬ new x.receiver x.packet := fun hn => (hnew _ _ hn).2 hx
    refine ⟨fun hin => ?_, Bool.not_eq_true _ ▸ fun hin => ?_⟩
    · exact (hadv.live _ hin).elim hlive hx'
    · exact (hadv.received _ hin).elim (by rw [hold]; nofun) hx'

theorem of_same_nodes (h : Orderly es s) (hn : s'.nodes = s.nodes)
    (hm : s'.inFlight = s.inFlight) : Orderly es s' :=
  h.of_advanced (.of_nodes_eq hn fun _ _ => False) hm fun _ _ => False.elim

theorem of_quiet (h : Orderly s.queue.toList s) (hq : Quiet now s s') :
    Orderly s'.queue.toList s' := by
  rw [hq.queue]
  exact h.of_advanced (.of_quiet hq fun _ _ => False) hq.inFlight fun _ _ => False.elim

theorem of_shipped {sender receiver : NodeId} {ids : List PacketId} (h : Orderly s.queue.toList s)
    (hs : Sane scenario s) (hu : Unborn s.queue.toList s) (ho : Offered sender receiver ids s)
    (hship : Shipped sender receiver ids s s') : Orderly s'.queue.toList s' := by
  have hnew : ∀ x ∈ ids.map (⟨receiver, ·⟩ : PacketId → Shipment),
      x.packet ∉ births s.queue.toList ∧ ∃ rx, s.node? x.receiver = some rx ∧
        x.packet ∉ rx.buffer.liveIds ∧ rx.hasReceived x.packet = false := by
    intro x hx
    obtain ⟨id, hid, rfl⟩ := List.mem_map.mp hx
    obtain ⟨tx, rx, htx, hrx, hlive, hspare⟩ := ho.source id hid
    obtain ⟨_, huse⟩ := (hs.isSpared_eq_false hrx).mp hspare
    exact ⟨hu.live sender tx id htx hlive, rx, hrx, huse⟩
  have hbirths : ∀ id, id ∈ births s'.queue.toList ↔ id ∈ births s.queue.toList :=
    fun _ => hship.births_perm.mem_iff
  have hnodes : ∀ n, s'.node? n = s.node? n := fun n => by rw [node?, node?, hship.nodes]
  obtain ⟨apart, marks, receivers⟩ := h.matched.exchanged rfl (.of_shipped hs ho hship)
  refine ⟨?_, ?_, apart, marks, receivers, ?_⟩
  · intro n node id hn hid
    rw [hbirths]
    exact h.received n node id (hnodes n ▸ hn) hid
  · intro x hx
    rw [hbirths]
    rcases List.mem_append.mp (hship.shipments_perm.mem_iff.mp hx) with hx | hx
    · exact (hnew x hx).1
    · exact h.born x hx
  · intro x hx rx hrx
    rw [hnodes] at hrx
    rcases List.mem_append.mp (hship.underway_perm.mem_iff.mp hx) with hx | hx
    · obtain ⟨rx', hrx', huse⟩ := (hnew x hx).2
      obtain rfl : rx' = rx := Option.some_inj.mp (hrx'.symm.trans hrx)
      exact huse
    · exact h.lacking x hx rx hrx

theorem unmarked {e : Event} {receiver : NodeId} {packet : PacketId} (h : Orderly (e :: es) s)
    (he : e.kind.shipment? = some ⟨receiver, packet⟩) :
    Orderly es (s.unmarked receiver packet) := by
  have hcons := shipments_cons_of_some he es
  have hsub : ∀ x ∈ shipments es, x ∈ shipments (e :: es) :=
    fun x hx => hcons ▸ List.mem_cons_of_mem _ hx
  have hbirths : births (e :: es) = births es :=
    List.filterMap_cons_none (EventKind.birth?_of_shipment? he)
  have happart := h.apart
  rw [hcons, List.nodup_cons] at happart
  constructor
  · exact fun n node id hn hid => hbirths ▸ h.received n node id hn hid
  · exact fun x hx => hbirths ▸ h.born x (hsub x hx)
  · exact happart.2
  · intro x
    change x ∈ s.inFlight.erase _ ↔ _
    rw [Std.TreeSet.mem_erase, h.marks, hcons, List.mem_cons]
    constructor
    · rintro ⟨hne, rfl | hx⟩
      · exact absurd Std.ReflCmp.compare_self hne
      · exact hx
    · intro hx
      refine ⟨fun heq => happart.1 ?_, .inr hx⟩
      rwa [Std.LawfulEqCmp.eq_of_compare heq]
  · exact fun x hx => h.receivers x (hsub x hx)
  · exact fun x hx => h.lacking x ((List.sublist_cons_self e es).filterMap _ |>.subset hx)

theorem severed {a b : NodeId} (h : Orderly s.queue.toList s) (links : Std.TreeMap Link Nat)
    (aborted : Nat) : Orderly (s.severed a b links aborted).queue.toList
      (s.severed a b links aborted) := by
  change Orderly (s.queue.invalidateLink a b).2.toList _
  rw [(s.queue.toList_invalidateLink a b).2.1]
  have hbirths := births_breakLink a b s.queue.toList
  have hship := shipments_breakLink a b s.queue.toList
  constructor
  · exact fun n node id hn hid => hbirths ▸ h.received n node id hn hid
  · exact fun x hx => hbirths ▸ h.born x (hship ▸ hx)
  · exact hship ▸ h.apart
  · exact fun x => hship ▸ h.marks x
  · exact fun x hx => h.receivers x (hship ▸ hx)
  · exact fun x hx => h.lacking x (underway_of_breakLink hx)

/-- A packet reaches a node by its birth, or by the one transfer that is pending to it. -/
theorem handled {e : Event} (h : Orderly (e :: s.queue.toList) s) (hs : Sane scenario s)
    (hu : Unborn (e :: s.queue.toList) s) (hh : Handled e.time e.kind s s') :
    Orderly s'.queue.toList s' := by
  obtain ⟨now, kind⟩ := e
  cases hh with
  | quiet hk hq => exact (h.of_cons hk).of_quiet hq
  | overlap hk => exact (h.of_cons hk).of_same_nodes rfl rfl
  | opened links contacts h₁ ho h₂ h₃ ho' h₄ =>
    have h₀ : Orderly s.queue.toList (s.relinked links contacts) :=
      (h.of_cons rfl).of_same_nodes rfl rfl
    have hu₀ : Unborn s.queue.toList (s.relinked links contacts) := hu.of_cons.of_same_nodes rfl
    have hs₁ := (hs.relinked links contacts).of_quiet h₁
    have hu₁ := Unborn.of_quiet hu₀ h₁
    have hs₃ := (hs₁.of_shipped h₂).of_quiet h₃
    have hu₃ := (hu₁.of_shipped h₂).of_quiet h₃
    exact (((of_quiet h₀ h₁).of_shipped hs₁ hu₁ ho h₂).of_quiet h₃).of_shipped hs₃ hu₃ ho' h₄
  | closed links aborted => exact (h.of_cons rfl).severed links aborted
  | @stray _ receiver packet _ _ hnone =>
    refine absurd hnone (h.receivers ⟨receiver, packet⟩ ?_)
    rw [shipments_cons_of_some rfl]
    exact List.mem_cons_self
  | idle _ hq => exact of_quiet (h.unmarked rfl) hq
  | @moved sender receiver packet _ _ hm =>
    rw [hm.steady.queue]
    have hcons := shipments_cons_of_some
      (e := ⟨now, .transmission sender receiver packet true⟩) rfl s.queue.toList
    have happart := h.apart
    rw [hcons, List.nodup_cons] at happart
    refine (h.unmarked rfl).of_advanced hm.advanced hm.steady.inFlight ?_
    rintro n id ⟨rfl, rfl⟩
    refine ⟨fun hbirth => h.born ⟨n, id⟩ ?_ ((births_sublist_cons _ _).subset hbirth),
      fun hx => happart.1 (mem_shipments_of_underway hx)⟩
    rw [hcons]
    exact List.mem_cons_self
  | @born source destination packet _ _ hst ha _ =>
    rw [hst.queue]
    have hcons := births_cons_of_some
      (e := ⟨now, .generation source destination packet true⟩) rfl s.queue.toList
    have hnodup := hu.nodup
    rw [hcons, List.nodup_cons] at hnodup
    refine (h.of_cons rfl).of_advanced ha hst.inFlight ?_
    rintro n id ⟨_, rfl⟩
    refine ⟨hnodup.1, fun hx => h.born ⟨n, id⟩ ?_ ?_⟩
    · rw [shipments_cons_of_none rfl]
      exact mem_shipments_of_underway hx
    · rw [hcons]
      exact List.mem_cons_self

end Orderly

theorem Fresh.orderly (h : Fresh scenario trace s) (hx : shipments trace.events = []) :
    Orderly s.queue.toList s := by
  have hperm : (shipments s.queue.toList).Perm (shipments trace.events) := h.pending.filterMap _
  have hnone : shipments s.queue.toList = [] := List.perm_nil.mp (hx ▸ hperm)
  obtain ⟨apart, marks, receivers⟩ := h.matched hx
  refine ⟨?_, ?_, apart, marks, receivers, ?_⟩
  · intro n node id hn hid
    rw [h.nodes n node hn] at hid
    change (∅ : Std.TreeSet PacketId).contains id = true at hid
    simp at hid
  · exact fun x hx => absurd (hnone ▸ hx) List.not_mem_nil
  · exact fun x hx => absurd (hnone ▸ mem_shipments_of_underway hx) List.not_mem_nil

/-- Where the trace has no transfers of its own, all pending ones are marked and of use. -/
theorem Reachable.orderly (h : Reachable scenario trace s) (hb : (births trace.events).Nodup)
    (hx : shipments trace.events = []) : Orderly s.queue.toList s := by
  induction h with
  | start h => exact (fresh_of_ofTrace h).orderly hx
  | @event s e q h hd ih =>
    rw [(due?_eq_some hd).1] at ih
    have htaken : Orderly (e :: q.toList) (s.taken e q) := ih.of_same_nodes rfl rfl
    exact htaken.handled (h.sane.taken hd) ((h.unborn hb).taken hd) (h.handled hd)
  | @finish s _ _ ih => exact ih.of_quiet (quiet_sweepAll s.stop s)

/-! ### What is counted -/

/--
A valid transfer that was of use: to the destination of the packet, which had never received it, or
to another node that did not have it.
-/
def Worthwhile (e : Event) (s s' : Simulator) : Prop :=
  ∃ sender receiver packet rx rx', e.kind = .transmission sender receiver packet true ∧
    s.node? receiver = some rx ∧ s'.node? receiver = some rx' ∧
    packet ∉ rx.buffer.liveIds ∧ rx.hasReceived packet = false ∧
    (((∃ tx, s.node? sender = some tx ∧
          ∃ p ∈ tx.buffer.livePackets, p.id = packet ∧ p.destination = receiver) ∧
        rx'.hasReceived packet = true ∧ s'.traffic.delivered = s.traffic.delivered + 1) ∨
      packet ∈ rx'.buffer.liveIds)

/-- One event counts no transmission, or one that was of use. -/
theorem Handled.balance {e : Event} (h : Orderly (e :: s.queue.toList) s)
    (hh : Handled e.time e.kind s s') :
    (∃ g, Tally s s' g 0 0 g 0) ∨
      ((Tally s s' 0 1 1 0 1 ∨ Tally s s' 0 0 1 1 0) ∧ Worthwhile e s s') := by
  obtain ⟨now, kind⟩ := e
  cases hh with
  | quiet _ hq => exact .inl ⟨0, .of_quiet hq⟩
  | overlap => exact .inl ⟨0, .of_nodes_eq rfl rfl rfl rfl⟩
  | opened links contacts h₁ _ h₂ h₃ _ h₄ =>
    have h₀ : Tally s (s.relinked links contacts) 0 0 0 0 0 := .of_nodes_eq rfl rfl rfl rfl
    exact .inl ⟨0, ((h₀.trans (.of_quiet h₁)).trans h₂.tally).trans (.after_quiet h₃ h₄.tally)⟩
  | closed => exact .inl ⟨0, .of_nodes_eq rfl rfl rfl rfl⟩
  | stray => exact .inl ⟨0, .of_nodes_eq rfl rfl rfl rfl⟩
  | @idle _ receiver packet _ _ _ _ hq =>
    have h₀ : Tally s (s.unmarked receiver packet) 0 0 0 0 0 := .of_nodes_eq rfl rfl rfl rfl
    exact .inl ⟨0, h₀.trans (.of_quiet hq)⟩
  | @moved sender receiver packet _ _ hm =>
    have h₀ : Tally s (s.unmarked receiver packet) 0 0 0 0 0 := .of_nodes_eq rfl rfl rfl rfl
    obtain ⟨tx, p, rx, rx', htx, hp, hid, hrx, hrx', hcourse⟩ := hm.course
    have huse := h.lacking ⟨receiver, packet⟩ List.mem_cons_self rx hrx
    refine .inr ?_
    rcases hcourse with ⟨hdest, hgot, d, htally, hd⟩ | ⟨hgot, htally⟩ | ⟨hhad, _⟩
    · obtain rfl := hd huse.2
      have htally' := h₀.trans htally
      exact ⟨.inl htally', sender, receiver, packet, rx, rx', rfl, hrx, hrx', huse.1, huse.2,
        .inl ⟨⟨tx, htx, p, hp, hid, hdest⟩, hgot, htally'.delivered⟩⟩
    · exact ⟨.inr (h₀.trans htally), sender, receiver, packet, rx, rx', rfl, hrx, hrx', huse.1,
        huse.2, .inr hgot⟩
    · rcases hhad with hlive | hold
      · exact absurd hlive huse.1
      · exact absurd (huse.2.symm.trans hold) nofun
  | born _ _ ht => exact .inl ⟨1, ht⟩

/-- Copies come from births and transmissions, and leave on delivery. -/
structure Balanced (s : Simulator) : Prop where
  inserted : s.total (·.buffer.counters.inserted) + s.traffic.delivered =
    s.traffic.generated + s.traffic.transmitted
  removed : s.total (·.buffer.counters.removed) = s.traffic.delivered

theorem Balanced.of_tally {g d t i r : Nat} (h : Balanced s) (ht : Tally s s' g d t i r)
    (hi : i + d = g + t) (hr : r = d) : Balanced s' := by
  have hinserted := h.inserted
  have hremoved := h.removed
  constructor
  · rw [ht.inserted, ht.delivered, ht.generated, ht.transmitted]
    omega
  · rw [ht.removed, ht.delivered]
    omega

/-- Every entry that was inserted is in a buffer, or was counted on its way out of one. -/
theorem Sane.total_inserted (h : Sane scenario s) :
    s.total (·.buffer.size) + s.total (·.buffer.counters.dropped) +
      s.total (·.buffer.counters.expired) + s.total (·.buffer.counters.removed) =
        s.total (·.buffer.counters.inserted) := by
  rw [← total_add, ← total_add, ← total_add]
  exact total_congr fun n node hn => (h.nodes n node hn).balanced

theorem Fresh.balanced (h : Fresh scenario trace s) : Balanced s := by
  constructor
  · rw [h.total_eq_zero fun _ => rfl, h.traffic]
  · rw [h.total_eq_zero fun _ => rfl, h.traffic]

theorem Reachable.balanced (h : Reachable scenario trace s) (hb : (births trace.events).Nodup)
    (hx : shipments trace.events = []) : Balanced s := by
  induction h with
  | start h => exact (fresh_of_ofTrace h).balanced
  | @event s e q h hd ih =>
    have hord := h.orderly hb hx
    rw [(due?_eq_some hd).1] at hord
    have htaken : Orderly (e :: q.toList) (s.taken e q) := hord.of_same_nodes rfl rfl
    have hbal : Balanced (s.taken e q) := ⟨ih.inserted, ih.removed⟩
    rcases (h.handled hd).balance htaken with ⟨g, ht⟩ | ⟨ht | ht, _⟩
    · exact hbal.of_tally ht rfl rfl
    · exact hbal.of_tally ht rfl rfl
    · exact hbal.of_tally ht rfl rfl
  | @finish s _ _ ih => exact ih.of_tally (.of_quiet (quiet_sweepAll s.stop s)) rfl rfl

/--
On a trace without transfers of its own and with packets of different numbers, every counted
transmission was of use, and every copy is accounted for: by births, transmissions and deliveries,
and in the buffers by what was dropped or has expired.
-/
theorem copies_conserved (hb : (births trace.events).Nodup) (hx : shipments trace.events = [])
    (h : Reachable scenario trace s) :
    (∀ e q, s.due? = some (e, q) →
      ((process e q).run s).2.traffic.transmitted = s.traffic.transmitted ∨
        (((process e q).run s).2.traffic.transmitted = s.traffic.transmitted + 1 ∧
          Worthwhile e s ((process e q).run s).2)) ∧
    s.total (·.buffer.counters.inserted) + s.traffic.delivered =
      s.traffic.generated + s.traffic.transmitted ∧
    s.total (·.buffer.counters.removed) = s.traffic.delivered ∧
    s.total (·.buffer.size) + 2 * s.traffic.delivered + s.total (·.buffer.counters.dropped) +
      s.total (·.buffer.counters.expired) = s.traffic.generated + s.traffic.transmitted := by
  obtain ⟨hinserted, hremoved⟩ := h.balanced hb hx
  refine ⟨fun e q hd => ?_, hinserted, hremoved, ?_⟩
  · have hord := h.orderly hb hx
    rw [(due?_eq_some hd).1] at hord
    have htaken : Orderly (e :: q.toList) (s.taken e q) := hord.of_same_nodes rfl rfl
    rcases (h.handled hd).balance htaken with ⟨g, ht⟩ | ⟨ht | ht, huse⟩
    · exact .inl ht.transmitted
    · exact .inr ⟨ht.transmitted, huse⟩
    · exact .inr ⟨ht.transmitted, huse⟩
  · have hsize := h.sane.total_inserted
    omega

/-- One transmission, which delivers the packet. -/
theorem reopened_conserved : (births Trace.reopened.events).Nodup ∧
    shipments Trace.reopened.events = [] ∧ ∃ s, Reachable Scenario.pair Trace.reopened s ∧
      s.traffic.transmitted = 1 ∧ s.traffic.delivered = 1 ∧
      s.total (·.buffer.counters.inserted) + s.traffic.delivered =
        s.traffic.generated + s.traffic.transmitted ∧
      s.total (·.buffer.counters.removed) = s.traffic.delivered := by
  obtain ⟨s, hs, hp⟩ := exists_reachable Scenario.pair Trace.reopened 8
    (fun s => decide (s.traffic.transmitted = 1 ∧ s.traffic.delivered = 1)) (by decide +kernel)
  obtain ⟨ht, hd⟩ := of_decide_eq_true hp
  obtain ⟨_, hinserted, hremoved, _⟩ := copies_conserved (by decide) rfl hs
  exact ⟨by decide, rfl, s, hs, ht, hd, hinserted, hremoved⟩

end OppNet.Simulator
