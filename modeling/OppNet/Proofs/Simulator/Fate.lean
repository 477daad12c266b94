import OppNet.Proofs.Simulator.Chronicle

/-!
# OppNet.Proofs.Simulator.Fate

What becomes of the transfers that are queued.

* `Occurrence.sent`, `Occurrence.strayed`: the two ends of a valid transfer. Its packet is sent, or
  has left the sender before.
* `Handled.transmitted_eq`: a packet is counted as transmitted whenever it is sent.
* `Handled.aborted_add`: a transfer is counted as aborted when it loses its mark, and not again when
  it is taken out.
* `one_fate_each`: every transfer was sent, strayed, was aborted, or is still under way.
-/

namespace OppNet

namespace EventKind

/-- The packet and its receiver, if this is a transfer that has been aborted. -/
def abortedShipment? : EventKind → Option Shipment
  | transmission _ receiver packet false => some ⟨receiver, packet⟩
  | _ => none

end EventKind

def abandoned (es : List Event) : List Shipment := es.filterMap (·.kind.abortedShipment?)

theorem abandoned_append (es es' : List Event) :
    abandoned (es ++ es') = abandoned es ++ abandoned es' :=
  List.filterMap_append

/-- What is counted is one of two things, and never both. -/
theorem countP_eq_add {α : Type} {p q r : α → Bool} {xs : List α}
    (h : ∀ x ∈ xs, (p x).toNat = (q x).toNat + (r x).toNat) :
    xs.countP p = xs.countP q + xs.countP r := by
  induction xs with
  | nil => rfl
  | cons x rest ih =>
    have hrest := ih fun y hy => h y (List.mem_cons_of_mem _ hy)
    have hx : (bif p x then 1 else 0) = (bif q x then 1 else 0) + bif r x then 1 else 0 :=
      h x List.mem_cons_self
    simp only [Bool.cond_eq_ite] at hx
    simp only [List.countP_cons, hrest]
    omega

/-- A transfer has been aborted or it has not. -/
theorem length_shipments (es : List Event) :
    (shipments es).length = (underway es).length + (abandoned es).length := by
  simp only [shipments, underway, abandoned, List.length_filterMap_eq_countP]
  refine countP_eq_add fun e _ => ?_
  obtain ⟨time, kind⟩ := e
  cases kind with
  | transmission sender receiver packet valid => cases valid <;> rfl
  | _ => rfl

theorem length_underway_breakLink (a b : NodeId) (es : List Event) :
    (underway es).length = (underway (es.map (Event.Queue.breakLink a b))).length +
      es.countP (Event.Queue.breaksWith a b) := by
  simp only [underway, List.length_filterMap_eq_countP, List.countP_map]
  refine countP_eq_add fun e _ => ?_
  obtain ⟨time, kind⟩ := e
  simp only [Function.comp, Event.Queue.breakLink, Event.Queue.breaksWith]
  by_cases hlink : kind.isTransferBetween a b = true
  · rw [if_pos hlink, hlink, EventKind.validShipment?_abort]
    cases kind with
    | transmission sender receiver packet valid => cases valid <;> rfl
    | _ => rfl
  · rw [if_neg hlink]
    simp [hlink]

theorem length_abandoned_breakLink (a b : NodeId) (es : List Event) :
    (abandoned (es.map (Event.Queue.breakLink a b))).length =
      (abandoned es).length + es.countP (Event.Queue.breaksWith a b) := by
  have hall := length_shipments es
  have hall' := length_shipments (es.map (Event.Queue.breakLink a b))
  have hvalid := length_underway_breakLink a b es
  rw [shipments_breakLink] at hall'
  omega

namespace Simulator

/-! ### The two ends of a valid transfer -/

def stillHas (now : Time) (n : NodeId) (packet : PacketId) (s : Simulator) : Bool :=
  (s.node? n).any fun node => (node.buffer.sweep now).holds packet

/-- Whether this is a valid transfer of a packet that its sender still has. -/
def sends (now : Time) (s : Simulator) : EventKind → Bool
  | .transmission sender receiver packet true =>
    (s.node? receiver).isSome && s.stillHas now sender packet
  | _ => false

/-- Whether this is a valid transfer of a packet that has left its sender. -/
def strays (now : Time) (s : Simulator) : EventKind → Bool
  | .transmission sender _ packet true => !s.stillHas now sender packet
  | _ => false

def Occurrence.sent (o : Occurrence) : Bool := o.before.sends o.event.time o.event.kind

/-- A packet should have been sent, and had left its sender. -/
def Occurrence.strayed (o : Occurrence) : Bool := o.before.strays o.event.time o.event.kind

variable {now : Time} {k : EventKind} {s s' : Simulator} {scenario : Scenario} {trace : Trace}
  {queued : List (Event.Slot × Event)} {past : List Occurrence}

theorem sends_of_shipment?_eq_none (h : k.shipment? = none) : s.sends now k = false := by
  cases k with
  | transmission => cases h
  | _ => rfl

theorem Handled.transmitted_eq (h : Handled now k s s') :
    s'.traffic.transmitted = s.traffic.transmitted + (s.sends now k).toNat := by
  cases h with
  | quiet hk hq =>
    rw [hq.traffic, sends_of_shipment?_eq_none hk]
    rfl
  | overlap hk =>
    rw [sends_of_shipment?_eq_none hk]
    rfl
  | opened _ _ h₁ _ h₂ h₃ _ h₄ =>
    rw [h₄.traffic, h₃.traffic, h₂.traffic, h₁.traffic]
    rfl
  | closed => rfl
  | @stray sender receiver packet valid _ hrx =>
    cases valid with
    | false => rfl
    | true => simp [sends, hrx]
  | @idle sender receiver packet valid _ _ hrx hq hgone =>
    rw [hq.traffic]
    cases valid with
    | false => rfl
    | true =>
      have hlost : s.stillHas now sender packet = false := by
        unfold stillHas
        cases htx : s.node? sender with
        | none => rfl
        | some tx => exact hgone rfl tx htx
      simp [sends, hlost, Simulator.unmarked]
  | @moved sender receiver packet _ _ hm hhad =>
    obtain ⟨_, _, rx, _, _, _, _, hrx, _, hcourse⟩ := hm.course
    obtain ⟨tx, htx, hheld⟩ := hhad
    have hrx' : s.node? receiver = some rx := hrx
    have hhas : s.stillHas now sender packet = true := by simp [stillHas, htx, hheld]
    have hcount : s'.traffic.transmitted = s.traffic.transmitted + 1 := by
      rcases hcourse with ⟨_, _, _, htally, _⟩ | ⟨_, htally⟩ | ⟨_, htally⟩
      · exact htally.transmitted
      · exact htally.transmitted
      · exact htally.transmitted
    simp [sends, hrx', hhas, hcount]
  | born _ _ ht => exact ht.transmitted

theorem Shipped.abandoned_perm {sender receiver : NodeId} {ids : List PacketId}
    (h : Shipped sender receiver ids s s') :
    (abandoned s'.queue.toList).Perm (abandoned s.queue.toList) := by
  have hnone : (ids.filterMap fun id =>
      (EventKind.transmission sender receiver id true).abortedShipment?) = [] :=
    List.filterMap_eq_nil_iff.mpr fun _ _ => rfl
  have hperm := h.filterMap_perm EventKind.abortedShipment?
  rwa [hnone] at hperm

theorem aborted_of_upkeep (h : s'.upkeep = s.upkeep) : s'.traffic.aborted = s.traffic.aborted :=
  congrArg (·.2.2) h

/-- A transfer is counted as aborted when it loses its mark, and not before or after. -/
theorem Handled.aborted_add (h : Handled now k s s') :
    s'.traffic.aborted + (abandoned s.queue.toList).length =
      s.traffic.aborted + (abandoned s'.queue.toList).length := by
  cases h with
  | quiet _ hq => rw [hq.traffic, hq.queue]
  | overlap => rfl
  | opened _ _ h₁ _ h₂ h₃ _ h₄ =>
    have hlen := h₄.abandoned_perm.length_eq
    rw [h₃.queue, h₂.abandoned_perm.length_eq, h₁.queue] at hlen
    rw [h₄.traffic, h₃.traffic, h₂.traffic, h₁.traffic, hlen]
    rfl
  | @closed a b _ links aborted _ _ ha =>
    change aborted + _ = _ + (abandoned (s.queue.invalidateLink a b).2.toList).length
    rw [(s.queue.toList_invalidateLink a b).2.1, length_abandoned_breakLink, ha]
    omega
  | stray => rfl
  | idle _ hq =>
    rw [hq.traffic, hq.queue]
    rfl
  | moved hm =>
    rw [hm.steady.queue, aborted_of_upkeep hm.steady.upkeep]
    rfl
  | born hst => rw [hst.queue, aborted_of_upkeep hst.upkeep]

/-! ### All transfers -/

namespace Chronicle

theorem transmitted_eq (h : Chronicle scenario trace queued past s) :
    s.traffic.transmitted = past.countP (·.sent) := by
  induction h with
  | start h =>
    rw [(fresh_of_ofTrace h).traffic]
    rfl
  | @event _ past s slot e q h _ hd ih =>
    have hcount := (h.reachable.handled hd).transmitted_eq
    have hsends : (s.taken e q).sends e.time e.kind = Occurrence.sent ⟨slot, e, s⟩ := rfl
    rw [hsends] at hcount
    rw [hcount, List.countP_append, List.countP_singleton]
    change s.traffic.transmitted + _ = _
    rw [ih]
    cases Occurrence.sent ⟨slot, e, s⟩ <;> rfl
  | @finish _ _ s _ _ ih =>
    rw [(quiet_sweepAll s.stop s).traffic]
    exact ih

theorem aborted_eq (ht : abandoned trace.events = [])
    (h : Chronicle scenario trace queued past s) : s.traffic.aborted =
      (abandoned (past.map (·.event))).length + (abandoned s.queue.toList).length := by
  induction h with
  | start h =>
    have hfresh := fresh_of_ofTrace h
    have hperm : (abandoned _).Perm (abandoned _) := hfresh.pending.filterMap _
    rw [hfresh.traffic, hperm.length_eq, ht]
    rfl
  | @event _ past s slot e q h _ hd ih =>
    have hcount := (h.reachable.handled hd).aborted_add
    change _ + (abandoned q.toList).length = s.traffic.aborted + _ at hcount
    -- The event goes from the pending ones to the past ones, with its mark or without.
    rw [(due?_eq_some hd).1, ← List.singleton_append, abandoned_append, List.length_append] at ih
    rw [List.map_append, abandoned_append, List.length_append]
    change _ = _ + (abandoned [e]).length + _
    omega
  | @finish _ _ s _ _ ih =>
    rw [(quiet_sweepAll s.stop s).traffic, (quiet_sweepAll s.stop s).queue]
    exact ih

end Chronicle

/-! ### Genuine transfers -/

def AllGenuine (scenario : Scenario) (es : List Event) : Prop :=
  ∀ e ∈ es, e.kind.shipment? ≠ none → Genuine scenario e

theorem AllGenuine.abandoned_eq {es : List Event} (h : AllGenuine scenario es) :
    abandoned es = [] := by
  refine List.filterMap_eq_nil_iff.mpr fun e he => ?_
  cases hk : e.kind with
  | transmission sender receiver packet valid =>
    obtain ⟨_, _, _, hvalid, _⟩ := h e he (by rw [hk]; nofun)
    rw [hk] at hvalid
    cases hvalid
    rfl
  | _ => rfl

namespace Chronicle

/-- Every transfer, past or pending, is between nodes of the scenario. -/
theorem addressed (h : Chronicle scenario trace queued past s)
    (ht : AllGenuine scenario trace.events) {x : Event.Slot × Event}
    (hx : x ∈ past.map (·.entry) ++ s.queue.pending.toList) {sender receiver : NodeId}
    {packet : PacketId} {valid : Bool} (hk : x.2.kind = .transmission sender receiver packet valid) :
    sender.index < scenario.nodes ∧ receiver.index < scenario.nodes := by
  have hmem := h.balance.mem_iff.mp (List.mem_map_of_mem (f := Event.Queue.stripped) hx)
  obtain ⟨y, hy, hsame⟩ := List.mem_map.mp hmem
  obtain ⟨_, hevent⟩ := Prod.mk.inj hsame
  -- It may have lost its mark since it was queued, and nothing else.
  have hkind : y.2.kind.abort = .transmission sender receiver packet false := by
    have hkind := congrArg Event.kind hevent
    rw [Event.kind_aborted, Event.kind_aborted, hk] at hkind
    exact hkind
  have hgenuine : Genuine scenario y.2 := by
    obtain ⟨handed, hperm, hnew⟩ := h.origin
    rcases List.mem_append.mp (hperm.mem_iff.mp (List.mem_map_of_mem hy)) with hold | hhanded
    · refine ht y.2 hold ?_
      rw [← EventKind.shipment?_abort, hkind]
      nofun
    · exact hnew y.2 hhanded
  obtain ⟨tx, rx, id, hsent, htx, hrx⟩ := hgenuine
  rw [hsent] at hkind
  cases hkind
  exact ⟨htx, hrx⟩

theorem valid_add (h : Chronicle scenario trace queued past s)
    (ht : AllGenuine scenario trace.events) : ∀ o ∈ past,
    o.event.kind.validShipment?.isSome.toNat = o.sent.toNat + o.strayed.toNat := by
  intro o ho
  have hx : o.entry ∈ past.map (·.entry) ++ s.queue.pending.toList :=
    List.mem_append_left _ (List.mem_map_of_mem ho)
  obtain ⟨hreach, _, _⟩ := h.due o ho
  unfold Occurrence.sent Occurrence.strayed
  cases hk : o.event.kind with
  | transmission sender receiver packet valid =>
    cases valid with
    | false => rfl
    | true =>
      have hrx := (h.addressed ht hx hk).2
      rw [← hreach.sane.node?_ne_none, ← Option.isSome_iff_ne_none] at hrx
      simp only [sends, strays, hrx, Bool.true_and, EventKind.validShipment?, Option.isSome_some]
      cases o.before.stillHas o.event.time sender packet <;> rfl
  | _ => rfl

theorem fate_add (h : Chronicle scenario trace queued past s)
    (ht : AllGenuine scenario trace.events) : ∀ o ∈ past, o.event.kind.shipment? ≠ none →
    o.sent.toNat + o.strayed.toNat + o.event.kind.abortedShipment?.isSome.toNat = 1 := by
  intro o ho hship
  rw [← h.valid_add ht o ho]
  cases hk : o.event.kind with
  | transmission sender receiver packet valid => cases valid <;> rfl
  | _ =>
    rw [hk] at hship
    exact absurd rfl hship

theorem length_shipments_queued (h : Chronicle scenario trace queued past s) :
    (shipments (queued.map (·.2))).length = (shipments (past.map (·.event))).length +
      (shipments s.queue.toList).length := by
  have hstripped : ∀ xs : List (Event.Slot × Event),
      shipments ((xs.map Event.Queue.stripped).map (·.2)) = shipments (xs.map (·.2)) := by
    intro xs
    simp [shipments, List.filterMap_map, Function.comp_def, Event.Queue.stripped]
  have hperm : (shipments _).Perm (shipments _) := (h.balance.map (·.2)).filterMap _
  rw [hstripped, hstripped, List.map_append, List.map_map] at hperm
  rw [← hperm.length_eq, shipments, List.filterMap_append, List.length_append]
  rfl

/-- A transfer that was aborted is taken out and counted as an event, and moves nothing. -/
theorem process_aborted (h : Chronicle scenario trace queued past s)
    (ht : AllGenuine scenario trace.events) {e : Event} {q : Event.Queue}
    (hd : s.due? = some (e, q)) (hcut : e.kind.abortedShipment? ≠ none) :
    ((process e q).run s).1 = .ok () ∧ ((process e q).run s).2.nodes = s.nodes ∧
      ((process e q).run s).2.traffic = { s.traffic with events := s.traffic.events + 1 } := by
  obtain ⟨slot, hf⟩ := exists_first? hd
  have hx : (slot, e) ∈ past.map (·.entry) ++ s.queue.pending.toList :=
    List.mem_append_right _ (Event.Queue.mem_of_first? hf)
  cases hk : e.kind with
  | transmission sender receiver packet valid =>
    cases valid with
    | true =>
      rw [hk] at hcut
      exact absurd rfl hcut
    | false =>
      have hreceiver := (h.addressed ht hx hk).2
      rw [← h.reachable.sane.node?_ne_none] at hreceiver
      obtain ⟨rx, hrx⟩ := Option.ne_none_iff_exists'.mp hreceiver
      have hrx' : (s.taken e q).node? receiver = some rx := hrx
      have hrun : (process e q).run s = (handle e).run (s.taken e q) := rfl
      rw [hrun, handle, hk, transmission_run_aborted hrx']
      exact ⟨rfl, rfl, rfl⟩
  | _ =>
    rw [hk] at hcut
    exact absurd rfl hcut

end Chronicle

/-- The end of a contact moves nothing, and what it takes from the transfers under way is counted. -/
theorem contactDown_aborts (a b : NodeId) (s : Simulator) :
    ((contactDown a b).run s).2.nodes = s.nodes ∧
    ((contactDown a b).run s).2.traffic.transmitted = s.traffic.transmitted ∧
    ((contactDown a b).run s).2.traffic.aborted +
        (underway ((contactDown a b).run s).2.queue.toList).length =
      s.traffic.aborted + (underway s.queue.toList).length := by
  rcases contactDown_cases a b s with ⟨_, hrun⟩ | ⟨_, hrun⟩ | ⟨_, _, hrun⟩
  · rw [hrun]
    exact ⟨rfl, rfl, rfl⟩
  · rw [hrun]
    refine ⟨rfl, rfl, ?_⟩
    change _ + (underway (s.queue.invalidateLink a b).2.toList).length = _
    rw [(s.queue.toList_invalidateLink a b).2.1]
    change s.traffic.aborted + _ + _ = _
    have hbroken := length_underway_breakLink a b s.queue.toList
    omega
  · rw [hrun]
    exact ⟨rfl, rfl, rfl⟩

/--
Every transfer that was ever queued has exactly one fate: it was sent, its packet had left its
sender, it was aborted, or it is still under way. It is aborted only once, and from then on it moves
nothing, neither when the contact ends nor when it is taken out.
-/
theorem one_fate_each (ht : AllGenuine scenario trace.events)
    (h : Chronicle scenario trace queued past s) :
    (shipments (queued.map (·.2))).length = s.report.transmitted + s.report.aborted +
      past.countP (·.strayed) + (underway s.queue.toList).length ∧
    s.report.transmitted = past.countP (·.sent) ∧
    s.report.aborted = (abandoned (past.map (·.event))).length +
      (abandoned s.queue.toList).length ∧
    (∀ o ∈ past, o.event.kind.shipment? ≠ none → o.sent.toNat + o.strayed.toNat +
      o.event.kind.abortedShipment?.isSome.toNat = 1) ∧
    (∀ e q, s.due? = some (e, q) → e.kind.abortedShipment? ≠ none →
      ((process e q).run s).1 = .ok () ∧ ((process e q).run s).2.nodes = s.nodes ∧
        ((process e q).run s).2.traffic = { s.traffic with events := s.traffic.events + 1 }) ∧
    ∀ a b, ((contactDown a b).run s).2.nodes = s.nodes ∧
      ((contactDown a b).run s).2.traffic.transmitted = s.traffic.transmitted ∧
      ((contactDown a b).run s).2.traffic.aborted +
          (underway ((contactDown a b).run s).2.queue.toList).length =
        s.traffic.aborted + (underway s.queue.toList).length := by
  have htransmitted := h.transmitted_eq
  have haborted := h.aborted_eq ht.abandoned_eq
  have hvalid : (underway (past.map (·.event))).length =
      past.countP (·.sent) + past.countP (·.strayed) := by
    rw [underway, List.length_filterMap_eq_countP, List.countP_map]
    exact countP_eq_add (h.valid_add ht)
  -- What was queued, by where it is now and by its mark.
  have hall := h.length_shipments_queued
  have hpast := length_shipments (past.map (·.event))
  have hpending := length_shipments s.queue.toList
  rw [toTraffic_report]
  refine ⟨by omega, htransmitted, haborted, h.fate_add ht, ?_, ?_⟩
  · intro e q hd hcut
    exact h.process_aborted ht hd hcut
  · intro a b
    exact contactDown_aborts a b s

end Simulator

/--
Of the transfers of the trace, one has no packet to send, one goes through, and one is far off. The
first contact is too short for its transfer.
-/
def Trace.mixed : Trace where
  events :=
    [⟨⟨0.5⟩, .transmission ⟨0⟩ ⟨1⟩ ⟨9⟩ true⟩, ⟨⟨1.0⟩, .generation ⟨0⟩ ⟨1⟩ ⟨0⟩ true⟩,
      ⟨⟨1.5⟩, .generation ⟨0⟩ ⟨1⟩ ⟨1⟩ true⟩, ⟨⟨2.0⟩, .transmission ⟨0⟩ ⟨1⟩ ⟨1⟩ true⟩,
      ⟨⟨5.0⟩, .contactUp ⟨0⟩ ⟨1⟩⟩, ⟨⟨6.0⟩, .contactDown ⟨0⟩ ⟨1⟩⟩,
      ⟨⟨90.0⟩, .transmission ⟨0⟩ ⟨0⟩ ⟨5⟩ true⟩]
  contacts := 1
  packets := 2

namespace Simulator

/-- Four transfers with four fates, of which the aborted one is due. -/
theorem mixed_fates : AllGenuine Scenario.pair Trace.mixed.events ∧
    ∃ queued past s, Chronicle Scenario.pair Trace.mixed queued past s ∧
      (shipments (queued.map (·.2))).length = 4 ∧ s.report.transmitted = 1 ∧
      s.report.aborted = 1 ∧ past.countP (·.strayed) = 1 ∧
      (underway s.queue.toList).length = 1 ∧
      ∃ e q, s.due? = some (e, q) ∧ e.kind = .transmission ⟨0⟩ ⟨1⟩ ⟨0⟩ false ∧
        ((process e q).run s).2.nodes = s.nodes := by
  have ht : AllGenuine Scenario.pair Trace.mixed.events := by
    intro e he hship
    simp only [Trace.mixed, List.mem_cons, List.not_mem_nil, or_false] at he
    rcases he with rfl | rfl | rfl | rfl | rfl | rfl | rfl
    case inl => exact ⟨_, _, _, rfl, by decide, by decide⟩
    case inr.inr.inr.inl => exact ⟨_, _, _, rfl, by decide, by decide⟩
    case inr.inr.inr.inr.inr.inr => exact ⟨_, _, _, rfl, by decide, by decide⟩
    all_goals exact absurd rfl hship
  obtain ⟨queued, past, s, h, hp⟩ := exists_chronicle Scenario.pair Trace.mixed 6
    (fun _ past s => decide (s.report.aborted = 1 ∧ past.countP (·.strayed) = 1 ∧
      past.countP (·.sent) = 1 ∧ (underway s.queue.toList).length = 1 ∧
      s.due?.map (·.1.kind) = some (.transmission ⟨0⟩ ⟨1⟩ ⟨0⟩ false))) (by decide +kernel)
  obtain ⟨haborted, hstrayed, hsent, hunderway, hdue⟩ := of_decide_eq_true hp
  obtain ⟨htotal, htransmitted, _, _, hnothing, _⟩ := one_fate_each ht h
  rw [hsent] at htransmitted
  rw [htransmitted, haborted, hstrayed, hunderway] at htotal
  obtain ⟨⟨e, q⟩, hd, hk⟩ := Option.map_eq_some_iff.mp hdue
  refine ⟨ht, queued, past, s, h, htotal, htransmitted, haborted, hstrayed, hunderway, e, q, hd,
    hk, (hnothing e q hd ?_).2.1⟩
  rw [hk]
  nofun

end Simulator

end OppNet
