import Mathlib.Data.List.Pairwise
import OppNet.Proofs.Simulator.Chronicle
import OppNet.Proofs.Simulator.Provenance

/-!
# OppNet.Proofs.Simulator.Itinerary

What the copies of a packet tell of it and of the way they came.

* `Everywhere Q s`: all packets of all nodes have the property `Q`. `Hereditary.upheld`: every event
  keeps it, if it is passed on to the copy that a neighbour receives and to the copy that is left.
* `Packet.Itinerary n p`: how hops, previous hops and forwarders of the copy `p` at the node `n` go
  together.
* `Chronicle.copies`: every copy has an itinerary and goes back to a generation that has happened.
* `Chronicle.generation_unique`: there is no other one of that number if the trace has none.
* `copies_keep_their_path`: all of this for every copy in a network of a run.
-/

namespace OppNet

/-! ### Itineraries -/

namespace Packet

variable {n m : NodeId} {p : Packet}

/-- What a copy at this node says of its way here and of its own copies. -/
structure Itinerary (n : NodeId) (p : Packet) : Prop where
  home : p.hops = 0 → p.source = n ∧ p.previousHop = none ∧ p.previousHops = []
  last : 0 < p.hops → ∃ m ∈ p.previousHops, p.previousHop = some m
  first : 0 < p.hops → p.previousHops.head? = some p.source
  nodup : p.previousHops.Nodup
  length_le : p.previousHops.length ≤ p.hops
  forwarders : p.forwarders.Nodup
  forwarded : p.forwarded = true ↔ p.forwarders ≠ []

namespace Itinerary

theorem generate (id : PacketId) (n destination : NodeId) (now : Time) :
    Itinerary n (.generate id n destination now) where
  home _ := ⟨rfl, rfl, rfl⟩
  last := nofun
  first := nofun
  nodup := .nil
  length_le := Nat.le_refl 0
  forwarders := .nil
  forwarded := iff_of_false nofun nofun

theorem inserted (h : Itinerary n p) (now : Time) : Itinerary n { p with inserted := now } :=
  ⟨h.home, h.last, h.first, h.nodup, h.length_le, h.forwarders, h.forwarded⟩

/-- The copy that a neighbour receives names its sender last, unless it has been there before. -/
theorem relayedBy (h : Itinerary m p) (n : NodeId) : Itinerary n (p.relayedBy m) where
  home := nofun
  last _ := ⟨m, mem_appendNew.mpr (.inl rfl), rfl⟩
  first _ := by
    change (appendNew m p.previousHops).head? = some p.source
    rcases Nat.eq_zero_or_pos p.hops with hz | hpos
    · obtain ⟨hsource, -, hnone⟩ := h.home hz
      rw [hnone, hsource]
      rfl
    · exact head?_appendNew (h.first hpos)
  nodup := nodup_appendNew h.nodup
  length_le := Nat.le_trans (length_appendNew_le m p.previousHops) (Nat.succ_le_succ h.length_le)
  forwarders := .nil
  forwarded := iff_of_false nofun nofun

theorem handed (h : Itinerary n p) (m : NodeId) :
    Itinerary n (({ p with forwarded := true } : Packet).addForwarder m) :=
  ⟨h.home, h.last, h.first, h.nodup, h.length_le, nodup_appendNew h.forwarders,
    iff_of_true rfl (appendNew_ne_nil m p.forwarders)⟩

end Itinerary

end Packet

namespace Simulator

variable {now : Time} {k : EventKind} {n : NodeId} {p : Packet} {s s₀ : Simulator}
  {scenario : Scenario} {trace : Trace} {queued : List (Event.Slot × Event)}
  {past past' : List Occurrence}

/-! ### What is passed on with a packet -/

def Everywhere (Q : NodeId → Packet → Prop) (s : Simulator) : Prop :=
  ∀ n node, s.node? n = some node → ∀ p ∈ node.buffer.livePackets, Q n p

/-- A property that a packet keeps while it is handed on, and that its copy has as well. -/
structure Hereditary (now : Time) (Q : NodeId → Packet → Prop) : Prop where
  inserted : ∀ {n : NodeId} {p : Packet}, Q n p → Q n { p with inserted := now }
  relayed : ∀ {n m : NodeId} {p : Packet}, Q m p → Q n (p.relayedBy m)
  handed : ∀ {n m : NodeId} {p : Packet}, Q n p →
    Q n (({ p with forwarded := true } : Packet).addForwarder m)

theorem node?_putNode_putNode {node : Node} (hn : s.node? n = some node) (before after : Node)
    (m : NodeId) :
    ((s.putNode n before).putNode n after).node? m = (s.putNode n after).node? m := by
  by_cases hmn : m = n
  · subst hmn
    have hlt := index_lt_of_node? hn
    rw [node?_putNode_self (by rwa [size_putNode]), node?_putNode_self hlt]
  · rw [node?_putNode_ne hmn, node?_putNode_ne hmn, node?_putNode_ne hmn]

theorem Everywhere.putNode {Q : NodeId → Packet → Prop} {node node' : Node} (h : Everywhere Q s)
    (hn : s.node? n = some node) (hlive : ∀ p ∈ node'.buffer.livePackets,
      p ∈ node.buffer.livePackets ∨ Q n p) : Everywhere Q (s.putNode n node') :=
  forall_putNode h hn fun p hp => (hlive p hp).elim (h n node hn p) id

/-- What is passed on with packets, and what is born has, is kept everywhere. -/
theorem Hereditary.upheld {Q : NodeId → Packet → Prop} (hq : Hereditary now Q)
    (hs₀ : Everywhere Q s₀) (hborn : ∀ n destination id,
      k = .generation n destination id true → Q n (.generate id n destination now)) :
    Upheld now k s₀ (Everywhere Q) where
  aside h hn _ := by
    intro n node hnode
    rw [node?, hn] at hnode
    exact h n node hnode
  swept h hn := h.putNode hn fun _ hp => .inl (Buffer.mem_of_mem_livePackets_sweep hp)
  met _ h _ hn := h.putNode hn fun _ => .inl
  again h hn _ := h.putNode hn fun _ => .inl
  relayed h hn htx hp := h.putNode hn fun q hmem => by
    rcases Buffer.mem_livePackets_insert hmem with hmem | ⟨-, rfl⟩
    · exact .inl hmem
    · exact .inr (hq.inserted (hq.relayed (hs₀ _ _ htx _ hp)))
  handed other h hn hmark := by
    intro m node hm
    rw [node?_putNode_putNode hn] at hm
    refine h.putNode hn (fun q hmem => ?_) m node hm
    rcases Buffer.mem_livePackets_modify_modify (f := fun q => { q with forwarded := true })
      (g := fun q => q.addForwarder other) (fun _ => rfl) hmark hmem with hold | ⟨q₀, hold, rfl⟩
    · exact .inl hold
    · exact .inr (hq.handed (h _ _ hn q₀ hold))
  removed _ h hn := h.putNode hn fun _ hp => .inl (Buffer.mem_livePackets_remove hp)
  sent h _ _ := h
  born h hk hn := h.putNode hn fun q hmem => by
    rcases Buffer.mem_livePackets_insert hmem with hmem | ⟨-, rfl⟩
    · exact .inl hmem
    · exact .inr (hq.inserted (hborn _ _ _ hk))
  delivered h hn _ _ _ _ := Everywhere.putNode h hn fun _ => .inl

/-! ### Copies and their packets -/

/-- A copy with an itinerary, of a packet that was generated as the copy says. -/
structure Copy (past : List Occurrence) (n : NodeId) (p : Packet) : Prop where
  itinerary : p.Itinerary n
  origin : ∃ o ∈ past, o.event.kind = .generation p.source p.destination p.id true ∧
    o.event.time = p.created

theorem Copy.mono (h : Copy past n p) (hsub : past ⊆ past') : Copy past' n p := by
  obtain ⟨o, ho, hgenerated⟩ := h.origin
  exact ⟨h.itinerary, o, hsub ho, hgenerated⟩

theorem hereditary_copy (now : Time) (past : List Occurrence) : Hereditary now (Copy past) where
  inserted h := ⟨h.itinerary.inserted now, h.origin⟩
  relayed h := ⟨h.itinerary.relayedBy _, h.origin⟩
  handed h := ⟨h.itinerary.handed _, h.origin⟩

/-- Every copy goes back to a generation, on the way that it tells. -/
theorem Chronicle.copies (h : Chronicle scenario trace queued past s) :
    Everywhere (Copy past) s := by
  induction h with
  | start h =>
    intro n node hn p hp
    rw [(fresh_of_ofTrace h).nodes n node hn] at hp
    cases hp
  | @event _ past s slot e q _ _ _ ih =>
    have hs : Everywhere (Copy (past ++ [⟨slot, e, s⟩])) s :=
      fun n node hn p hp => (ih n node hn p hp).mono (List.subset_append_left _ _)
    refine ((hereditary_copy e.time _).upheld hs fun n destination id hk => ?_).process q hs
    exact ⟨.generate id n destination e.time, ⟨slot, e, s⟩,
      List.mem_append_right _ List.mem_cons_self, hk, rfl⟩
  | @finish _ past s _ _ ih =>
    exact ((hereditary_copy s.stop past).upheld (k := .checkpoint) ih nofun).sweepAll ih

/-! ### One generation for every packet -/

theorem births_aborted (es : List Event) : births (es.map Event.aborted) = births es := by
  rw [births, births, List.filterMap_map]
  refine List.filterMap_congr fun e _ => ?_
  rw [Function.comp_apply, Event.kind_aborted, EventKind.birth?_abort]

theorem births_of_genuine {es : List Event} (h : ∀ e ∈ es, Genuine scenario e) :
    births es = [] := by
  refine List.filterMap_eq_nil_iff.mpr fun e he => ?_
  obtain ⟨sender, receiver, packet, hkind, -, -⟩ := h e he
  rw [hkind]
  rfl

/-- What the trace generates once happens at most once. -/
theorem Chronicle.nodup_births (h : Chronicle scenario trace queued past s)
    (hb : (births trace.events).Nodup) : (births (past.map (·.event))).Nodup := by
  have hbalance := (h.balance.map (·.2)).filterMap (·.kind.birth?)
  have hstripped (xs : List (Event.Slot × Event)) :
      ((xs.map Event.Queue.stripped).map (·.2)).filterMap (·.kind.birth?) =
        births (xs.map (·.2)) := by
    rw [← births_aborted, births, List.map_map, List.map_map]
    rfl
  obtain ⟨handed, horigin, hgenuine⟩ := h.origin
  have hqueued : (births (queued.map (·.2))).Perm (births trace.events) := by
    have hperm := horigin.filterMap (·.kind.birth?)
    rw [List.filterMap_append] at hperm
    change (births _).Perm (births _ ++ births handed) at hperm
    rwa [births_of_genuine hgenuine, List.append_nil] at hperm
  rw [hstripped, hstripped, List.map_append, births_append] at hbalance
  have hnodup := (hbalance.trans hqueued).nodup_iff.mpr hb
  rw [List.map_map] at hnodup
  exact (List.nodup_append.mp hnodup).1

def Occurrence.Apart (o o' : Occurrence) : Prop :=
  ∀ id, o.event.kind.birth? = some id → o'.event.kind.birth? ≠ some id

instance : Std.Symm Occurrence.Apart := ⟨fun _ _ h id hid hid' => h id hid' hid⟩

/-- A packet is generated by one event alone. -/
theorem Chronicle.generation_unique (h : Chronicle scenario trace queued past s)
    (hb : (births trace.events).Nodup) {o o' : Occurrence} (ho : o ∈ past) (ho' : o' ∈ past)
    {id : PacketId} (hid : o.event.kind.birth? = some id)
    (hid' : o'.event.kind.birth? = some id) : o = o' := by
  have hapart : past.Pairwise Occurrence.Apart := by
    have hnodup := h.nodup_births hb
    rw [births, List.filterMap_map, List.Nodup, List.pairwise_filterMap] at hnodup
    exact hnodup.imp fun h id hid hid' => h id hid id hid' rfl
  by_contra hne
  exact hapart.forall ho ho' hne id hid hid'

/-- Every copy of a packet agrees with the one event that has generated the packet, and says how it
came here: a packet that has made no hop is at its source, and one that has made some has been there
first, and at its last sender. -/
theorem copies_keep_their_path (h : Chronicle scenario trace queued past s)
    (hb : (births trace.events).Nodup) {node : Node} (hn : s.node? n = some node)
    (hp : p ∈ node.buffer.livePackets) :
    (∃ o ∈ past, ∃ source destination,
      o.event.kind = .generation source destination p.id true) ∧
    (∀ o ∈ past, ∀ source destination,
      o.event.kind = .generation source destination p.id true →
        p.source = source ∧ p.destination = destination ∧ p.created = o.event.time) ∧
    (p.hops = 0 → p.source = n ∧ p.previousHop = none ∧ p.previousHops = []) ∧
    (0 < p.hops → (∃ m ∈ p.previousHops, p.previousHop = some m) ∧
      p.previousHops.head? = some p.source ∧ p.previousHops.Nodup ∧
      p.previousHops.length ≤ p.hops) ∧
    p.forwarders.Nodup ∧ (p.forwarded = true ↔ p.forwarders ≠ []) := by
  obtain ⟨hway, origin, horigin, hkind, htime⟩ := h.copies n node hn p hp
  refine ⟨⟨origin, horigin, _, _, hkind⟩, fun o ho source destination hk => ?_, hway.home,
    fun hpos => ⟨hway.last hpos, hway.first hpos, hway.nodup, hway.length_le⟩,
    hway.forwarders, hway.forwarded⟩
  have hbirth : origin.event.kind.birth? = some p.id := by rw [hkind]; rfl
  have hbirth' : o.event.kind.birth? = some p.id := by rw [hk]; rfl
  obtain rfl := h.generation_unique hb horigin ho hbirth hbirth'
  rw [hkind] at hk
  cases hk
  exact ⟨rfl, rfl, htime.symm⟩

/-- A packet that is back at its source after two hops. -/
theorem returned_keeps_its_path : ∃ queued past s node p,
    Chronicle Scenario.trio Trace.returning queued past s ∧
    (births Trace.returning.events).Nodup ∧ s.node? ⟨0⟩ = some node ∧
    p ∈ node.buffer.livePackets ∧ p.source = ⟨0⟩ ∧ p.hops = 2 ∧
    p.previousHops = [⟨0⟩, ⟨1⟩] ∧ p.previousHops.head? = some p.source := by
  obtain ⟨queued, past, s, h, hp⟩ := exists_chronicle Scenario.trio Trace.returning 12
    (fun _ _ s => (s.node? ⟨0⟩).any fun node => node.buffer.livePackets.any fun p =>
      decide (p.source = ⟨0⟩ ∧ p.hops = 2 ∧ p.previousHops = [⟨0⟩, ⟨1⟩])) (by decide +kernel)
  obtain ⟨node, hn, hany⟩ := (Option.any_eq_true _ _).mp hp
  obtain ⟨p, hlive, hback⟩ := List.any_eq_true.mp hany
  obtain ⟨hsource, hhops, hpath⟩ := of_decide_eq_true hback
  have hb : (births Trace.returning.events).Nodup := by decide
  obtain ⟨-, -, -, haway, -⟩ := copies_keep_their_path h hb hn hlive
  exact ⟨queued, past, s, node, p, h, hb, hn, hlive, hsource, hhops, hpath,
    (haway (by rw [hhops]; decide)).2.1⟩

end Simulator

end OppNet
