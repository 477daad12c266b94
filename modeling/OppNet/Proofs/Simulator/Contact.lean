import OppNet.Proofs.Admission
import OppNet.Proofs.Event.Queue
import OppNet.Proofs.Scheduling
import OppNet.Proofs.Simulator.Change
import OppNet.Simulator.Contact

/-!
# OppNet.Proofs.Simulator.Contact

What the beginning and the end of a contact do.

* `Shipped sender receiver ids s s'`: transmissions of the packets `ids` were queued and marked, and
  nothing else was done. `queueAll_outcome`: queueing stops early only at an instant in the past,
  and what it has queued by then are the first ones of the `transfers`.
* `choose_sound`, `exists_choose`, `choose_admitAll`: what is chosen was worth offering.
* `offer_cases`: every course one direction of a contact can take. `Direction`: what all of them
  have in common.
* `contactUp_cases`, `contactDown_cases`: the courses of the two events. `contactUp_opens`: what a
  contact does to the nodes (`greeted`) before either direction. `Meeting`: all that it does.
-/

namespace OppNet.Simulator

variable {now : Time} {sender receiver : NodeId} {s s' s'' : Simulator}

/-! ### Queueing -/

theorem exists_of_kinds {events : List Event} {ids : List PacketId} {f : PacketId → EventKind}
    (h : events.map (·.kind) = ids.map f) {e : Event} (he : e ∈ events) :
    ∃ id ∈ ids, e.kind = f id := by
  have hkind := List.mem_map_of_mem (f := (·.kind)) he
  rw [h] at hkind
  obtain ⟨id, hid, heq⟩ := List.mem_map.mp hkind
  exact ⟨id, hid, heq.symm⟩

/-- Transmissions of the packets were queued and marked, and nothing else was done. -/
structure Shipped (sender receiver : NodeId) (ids : List PacketId) (s s' : Simulator) : Prop where
  protocol : s'.protocol = s.protocol
  stop : s'.stop = s.stop
  nodes : s'.nodes = s.nodes
  links : s'.links = s.links
  latency : s'.latency = s.latency
  traffic : s'.traffic = s.traffic
  before : s.queue.Sound
  inserted : ∃ events : List Event,
    events.map (·.kind) = ids.map (fun id => .transmission sender receiver id true) ∧
      Event.Queue.insertAll events s.queue = .ok s'.queue
  inFlight : ∀ x, x ∈ s'.inFlight ↔ (∃ id ∈ ids, x = ⟨receiver, id⟩) ∨ x ∈ s.inFlight

namespace Shipped

/-- The new transmissions join the events that were pending. -/
theorem queue {ids : List PacketId} (h : Shipped sender receiver ids s s') :
    ∃ events : List Event,
      events.map (·.kind) = ids.map (fun id => .transmission sender receiver id true) ∧
        s'.queue.toList.Perm (events ++ s.queue.toList) := by
  obtain ⟨events, hkinds, hins⟩ := h.inserted
  exact ⟨events, hkinds, (Event.Queue.insertAll_eq_ok hins h.before).1⟩

theorem clock {ids : List PacketId} (h : Shipped sender receiver ids s s') :
    s'.queue.now = s.queue.now := by
  obtain ⟨_, _, hins⟩ := h.inserted
  exact (Event.Queue.insertAll_eq_ok hins h.before).2.1

theorem sound {ids : List PacketId} (h : Shipped sender receiver ids s s') : s'.queue.Sound := by
  obtain ⟨_, _, hins⟩ := h.inserted
  exact (Event.Queue.insertAll_eq_ok hins h.before).2.2

theorem nil (hs : s.queue.Sound) : Shipped sender receiver [] s s :=
  ⟨rfl, rfl, rfl, rfl, rfl, rfl, hs, ⟨[], rfl, rfl⟩, fun x => by simp⟩

theorem cons {id : PacketId} {ids : List PacketId} (h : Shipped sender receiver [id] s s')
    (h' : Shipped sender receiver ids s' s'') : Shipped sender receiver (id :: ids) s s'' := by
  refine ⟨h'.protocol.trans h.protocol, h'.stop.trans h.stop, h'.nodes.trans h.nodes,
    h'.links.trans h.links, h'.latency.trans h.latency, h'.traffic.trans h.traffic, h.before, ?_,
    fun x => ?_⟩
  · obtain ⟨first, hfirst, hins⟩ := h.inserted
    obtain ⟨rest, hrest, hins'⟩ := h'.inserted
    refine ⟨first ++ rest, ?_, Event.Queue.insertAll_append hins hins'⟩
    rw [List.map_append, hfirst, hrest]
    rfl
  · rw [h'.inFlight, h.inFlight]
    simp only [List.mem_singleton, exists_eq_left, List.exists_mem_cons_iff]
    rw [← or_assoc, or_comm (b := x = _)]

theorem advanced {ids : List PacketId} (h : Shipped sender receiver ids s s')
    (new : NodeId → PacketId → Prop) : Advanced new s s' :=
  .of_nodes_eq h.nodes new

theorem tally {ids : List PacketId} (h : Shipped sender receiver ids s s') :
    Tally s s' 0 0 0 0 0 :=
  .of_nodes_eq h.nodes (by rw [h.traffic]; rfl) (by rw [h.traffic]; rfl) (by rw [h.traffic]; rfl)

end Shipped

theorem queueTransmission_outcome (hs : s.queue.Sound) (time : Time) (id : PacketId) :
    (¬ time < s.queue.now ∧ ∃ s', (queueTransmission time sender receiver id).run s = (.ok (), s') ∧
      Shipped sender receiver [id] s s' ∧
      Event.Queue.insertAll [⟨time, .transmission sender receiver id true⟩] s.queue =
        .ok s'.queue) ∨
    (time < s.queue.now ∧
      (queueTransmission time sender receiver id).run s = (.error .eventInPast, s)) := by
  unfold queueTransmission
  rw [run_bind_ok (run_get s)]
  cases hq : s.queue.insert ⟨time, .transmission sender receiver id true⟩ with
  | error f =>
    obtain ⟨hpast, rfl⟩ := Event.Queue.insert_eq_error hq
    exact .inr ⟨hpast, rfl⟩
  | ok q =>
    have hnot : ¬ time < s.queue.now := by
      intro hpast
      rw [Event.Queue.insert, if_pos hpast] at hq
      cases hq
    have hins : Event.Queue.insertAll [⟨time, .transmission sender receiver id true⟩] s.queue =
        .ok q := by rw [Event.Queue.insertAll, hq]; rfl
    refine .inl ⟨hnot, _, rfl, ⟨rfl, rfl, rfl, rfl, rfl, rfl, hs, ⟨[_], rfl, hins⟩, ?_⟩, hins⟩
    intro x
    change x ∈ s.inFlight.insert _ ↔ _
    rw [Std.TreeSet.mem_insert]
    simp only [List.mem_singleton, exists_eq_left]
    refine or_congr_left ⟨fun h => (Std.LawfulEqCmp.eq_of_compare h).symm, ?_⟩
    rintro rfl
    exact Std.ReflCmp.compare_self

/-- The transmissions of the packets, each one transmission time after the one before it. -/
def transfers (s : Simulator) (now : Time) (sender receiver : NodeId) (k : Nat)
    (ids : List PacketId) : List Event :=
  ids.mapIdx fun i id =>
    ⟨now.after (s.protocol.transmissionTime.scale (Float.ofNat (k + i))),
      .transmission sender receiver id true⟩

theorem transfers_cons (s : Simulator) (now : Time) (sender receiver : NodeId) (k : Nat)
    (id : PacketId) (ids : List PacketId) : s.transfers now sender receiver k (id :: ids) =
      ⟨s.sentAt now k, .transmission sender receiver id true⟩ ::
        s.transfers now sender receiver (k + 1) ids := by
  simp only [transfers, sentAt, List.mapIdx_cons, Nat.add_zero, Nat.add_assoc, Nat.add_comm 1]

theorem transfers_congr (h : s'.protocol = s.protocol) (now : Time) (sender receiver : NodeId)
    (k : Nat) (ids : List PacketId) :
    s'.transfers now sender receiver k ids = s.transfers now sender receiver k ids := by
  simp only [transfers, h]

/-- Queueing goes through, or stops where a transmission would end in the past. -/
theorem queueAll_outcome (hs : s.queue.Sound) (now : Time) (sender receiver : NodeId) (k : Nat)
    (ids : List PacketId) :
    ∃ sent, sent <+: ids ∧
      Shipped sender receiver sent s ((queueAll now sender receiver k ids).run s).2 ∧
      Event.Queue.insertAll (s.transfers now sender receiver k sent) s.queue =
        .ok ((queueAll now sender receiver k ids).run s).2.queue ∧
      (((queueAll now sender receiver k ids).run s).1 = .ok () ∧ sent = ids ∨
        ((queueAll now sender receiver k ids).run s).1 = .error .eventInPast ∧
          ∃ j, s.sentAt now j < s.queue.now) := by
  induction ids generalizing s k with
  | nil => exact ⟨[], List.nil_prefix, .nil hs, rfl, .inl ⟨rfl, rfl⟩⟩
  | cons id rest ih =>
    have hget : (queueAll now sender receiver k (id :: rest)).run s =
        (do queueTransmission (s.sentAt now k) sender receiver id
            queueAll now sender receiver (k + 1) rest : Action Unit).run s := by
      rw [queueAll, run_bind_ok (run_get s)]
    rw [hget]
    rcases queueTransmission_outcome hs (s.sentAt now k) id with
      ⟨_, s', hrun, hship, hins⟩ | ⟨hpast, hrun⟩
    · obtain ⟨sent, hsent, hship', hins', hres⟩ := ih hship.sound (k + 1)
      rw [run_bind_ok hrun]
      refine ⟨id :: sent, List.cons_prefix_cons.mpr ⟨rfl, hsent⟩, hship.cons hship', ?_, ?_⟩
      · rw [transfers_congr hship.protocol] at hins'
        rw [transfers_cons]
        exact Event.Queue.insertAll_append hins hins'
      rcases hres with ⟨hok, rfl⟩ | ⟨herr, j, hj⟩
      · exact .inl ⟨hok, rfl⟩
      · refine .inr ⟨herr, j, ?_⟩
        rwa [hship.clock, sentAt, hship.protocol] at hj
    · rw [run_bind_error hrun]
      exact ⟨[], List.nil_prefix, .nil hs, rfl, .inr ⟨rfl, k, hpast⟩⟩

/-! ### Choosing -/

section Choose

variable {tx rx : Node} {window : TimeSpan} {infos : List PacketInfo}

def offersOf (infos : List PacketInfo) : List Offer :=
  infos.map fun i => Offer.mk i.packet (some ⟨i.senderUtility, i.receiverUtility⟩)

def admitterOf (now : Time) (tx rx : Node) (window : TimeSpan) (infos : List PacketInfo) :
    Admitter where
  policy := tx.admission
  receiver := some (rx.receiverState now tx.buffer.size window)
  infos := infos.reverse

theorem map_packet_offersOf (infos : List PacketInfo) :
    (offersOf infos).map (·.packet) = infos.map (·.packet) := by
  simp [offersOf]

/-- The order first, and the decision about what was ordered after it. -/
theorem choose_eq : choose now tx rx window infos =
    match tx.scheduling.order (List.lookup · tx.buffer.positions) (offersOf infos) with
    | .error f => .error f
    | .ok none => .ok none
    | .ok (some order) =>
      match (admitterOf now tx rx window infos).decide order with
      | .error f => .error f
      | .ok chosen => .ok (some (order.length, chosen)) := by
  unfold choose
  change (tx.scheduling.order (List.lookup · tx.buffer.positions) (offersOf infos) >>= _) = _
  cases tx.scheduling.order (List.lookup · tx.buffer.positions) (offersOf infos) with
  | error f => rfl
  | ok order =>
    cases order with
    | none => rfl
    | some order =>
      change ((admitterOf now tx rx window infos).decide order >>= _) = _
      dsimp only
      cases (admitterOf now tx rx window infos).decide order <;> rfl

/-- Packets are chosen if an order is made and something in it is admitted. -/
theorem choose_eq_some {count : Nat} {ids : List PacketId}
    (h : choose now tx rx window infos = .ok (some (count, some ids))) : ∃ order,
      tx.scheduling.order (List.lookup · tx.buffer.positions) (offersOf infos) =
        .ok (some order) ∧
      (admitterOf now tx rx window infos).decide order = .ok (some ids) := by
  rw [choose_eq] at h
  cases ho : tx.scheduling.order (List.lookup · tx.buffer.positions) (offersOf infos) with
  | error f => rw [ho] at h; cases h
  | ok order? =>
    cases order? with
    | none => rw [ho] at h; cases h
    | some order =>
      rw [ho] at h
      dsimp only at h
      cases hd : (admitterOf now tx rx window infos).decide order with
      | error f => rw [hd] at h; cases h
      | ok chosen =>
        rw [hd] at h
        cases h
        exact ⟨order, rfl, hd⟩

theorem choose_sound {count : Nat} {ids : List PacketId}
    (h : choose now tx rx window infos = .ok (some (count, some ids))) :
    ids.Nodup ∧ ∀ id ∈ ids, id ∈ infos.map (·.packet) := by
  obtain ⟨order, ho, hd⟩ := choose_eq_some h
  have hsub := Admitter.decide_sublist hd
  refine ⟨(nodup_eraseDups order).sublist hsub, fun id hid => ?_⟩
  have hperm := SchedulingPolicy.order_perm ho
  rw [map_packet_offersOf] at hperm
  exact hperm.subset (List.mem_eraseDups.mp (hsub.subset hid))

theorem lookup?_reverse {id : PacketId} (h : id ∈ infos.map (·.packet)) :
    (PacketInfo.lookup? infos.reverse id).isSome = true := by
  obtain ⟨i, hi, rfl⟩ := List.mem_map.mp h
  rw [PacketInfo.lookup?, List.find?_isSome]
  exact ⟨i, List.mem_reverse.mpr hi, by simp⟩

theorem exists_choose (hnodup : (infos.map (·.packet)).Nodup)
    (hrank : ∀ i ∈ infos, ∃ r, tx.scheduling.rank (List.lookup · tx.buffer.positions)
      ⟨i.packet, some ⟨i.senderUtility, i.receiverUtility⟩⟩ = .ok r) :
    ∃ choice, choose now tx rx window infos = .ok choice := by
  rw [← map_packet_offersOf] at hnodup
  obtain ⟨order?, ho⟩ := tx.scheduling.exists_order (List.lookup · tx.buffer.positions) hnodup
    (fun o ho => by obtain ⟨i, hi, rfl⟩ := List.mem_map.mp ho; exact hrank i hi)
    (fun _ _ _ => Buffer.place_injective)
  rw [choose_eq, ho]
  cases order? with
  | none => exact ⟨none, rfl⟩
  | some order =>
    have hperm := SchedulingPolicy.order_perm ho
    rw [map_packet_offersOf] at hperm
    obtain ⟨chosen, hd⟩ := Admitter.exists_decide (a := admitterOf now tx rx window infos) rfl
      (fun id hid => lookup?_reverse (hperm.subset hid))
    exact ⟨_, by dsimp only; rw [hd]⟩

theorem choose_admitAll {choice : Option (Nat × Option (List PacketId))} (hne : infos ≠ [])
    (hp : tx.admission = .admitAll) (h : choose now tx rx window infos = .ok choice) :
    ∃ count ids, choice = some (count, some ids) ∧
      ∀ i ∈ infos, i.packet ∈ ids := by
  rw [choose_eq] at h
  cases ho : tx.scheduling.order (List.lookup · tx.buffer.positions) (offersOf infos) with
  | error f => rw [ho] at h; cases h
  | ok order =>
    cases order with
    | none => exact absurd (List.map_eq_nil_iff.mp (SchedulingPolicy.order_eq_none ho)) hne
    | some order =>
      have hperm := SchedulingPolicy.order_perm ho
      rw [map_packet_offersOf] at hperm
      have horder : order ≠ [] := by
        rintro rfl
        exact hne (List.map_eq_nil_iff.mp (List.nil_perm.mp hperm))
      have hd := Admitter.decide_admitAll (a := admitterOf now tx rx window infos) rfl hp horder
      rw [ho] at h
      dsimp only at h
      rw [hd] at h
      cases h
      refine ⟨_, _, rfl, fun i hi => List.mem_eraseDups.mpr (hperm.symm.subset ?_)⟩
      exact List.mem_map_of_mem hi

end Choose

/-! ### Worth offering -/

section Worth

variable {tx rx : Node}

theorem mem_worthOffering {i : PacketInfo} (h : i ∈ s.worthOffering now tx rx) :
    ∃ p ∈ tx.buffer.livePackets, i = describe now tx rx p ∧ s.isSpared rx p.id = false ∧
      (s.protocol.forwarding = .greedy → ¬ i.receiverUtility ≤ i.senderUtility) := by
  have hinfos : ∀ {i}, i ∈ (tx.buffer.distinctPackets.filter fun p => !s.isSpared rx p.id).map
      (describe now tx rx) → ∃ p ∈ tx.buffer.livePackets, i = describe now tx rx p ∧
      s.isSpared rx p.id = false := by
    intro i hi
    obtain ⟨p, hp, rfl⟩ := List.mem_map.mp hi
    obtain ⟨hp, hlack⟩ := List.mem_filter.mp hp
    exact ⟨p, Buffer.mem_livePackets_of_distinct hp, rfl, by simpa using hlack⟩
  unfold worthOffering at h
  cases hf : s.protocol.forwarding with
  | epidemic =>
    rw [hf] at h
    obtain ⟨p, hp, hi, hlack⟩ := hinfos h
    exact ⟨p, hp, hi, hlack, nofun⟩
  | greedy =>
    rw [hf] at h
    obtain ⟨h, hgain⟩ := List.mem_filter.mp h
    obtain ⟨p, hp, hi, hlack⟩ := hinfos h
    exact ⟨p, hp, hi, hlack, fun _ => by simpa using hgain⟩

theorem nodup_worthOffering (s : Simulator) (now : Time) (tx rx : Node) :
    ((s.worthOffering now tx rx).map (·.packet)).Nodup := by
  have hinfos : (((tx.buffer.distinctPackets.filter fun p => !s.isSpared rx p.id).map
      (describe now tx rx)).map (·.packet)).Nodup := by
    rw [List.map_map]
    exact (Buffer.nodup_distinctPackets tx.buffer).sublist (List.filter_sublist.map _)
  unfold worthOffering
  cases s.protocol.forwarding with
  | epidemic => exact hinfos
  | greedy => exact hinfos.sublist (List.filter_sublist.map _)

theorem exists_worthOffering (now : Time) (hf : s.protocol.forwarding = .epidemic)
    {id : PacketId} (hlive : id ∈ tx.buffer.liveIds) (hlack : s.isSpared rx id = false) :
    ∃ i ∈ s.worthOffering now tx rx, i.packet = id := by
  obtain ⟨p, hp, rfl⟩ := Buffer.mem_liveIds.mp hlive
  obtain ⟨q, hq, hqid⟩ := Buffer.exists_distinct hp
  refine ⟨describe now tx rx q, ?_, hqid⟩
  unfold worthOffering
  rw [hf]
  exact List.mem_map_of_mem (List.mem_filter.mpr ⟨hq, by rw [hqid, hlack]; rfl⟩)

end Worth

/-! ### One direction of a contact -/

/-- Nothing is left to expire at `now`. -/
def Settled (now : Time) (node : Node) : Prop :=
  (node.buffer.sweep now).liveIds = node.buffer.liveIds

theorem settled_sweep (now : Time) (node : Node) : Settled now (silenced (node.sweep now)) := by
  have h : ((silenced (node.sweep now)).buffer.sweep now).liveIds =
      ((node.buffer.sweep now).sweep now).liveIds := Buffer.liveIds_sweep_congr rfl rfl
  rw [Buffer.sweep_sweep] at h
  exact h

/-- What a sweep of the nodes `a` and `b` makes of the node `n`. -/
def clearedAt (now : Time) (a b n : NodeId) (node : Node) : Node :=
  if n = a ∨ n = b then cleared now node else node

/-- Swept again nothing changes, whichever of the two is swept first. -/
theorem clearedAt_clearedAt (now : Time) (a b n : NodeId) (node : Node) :
    clearedAt now b a n (clearedAt now a b n node) = clearedAt now a b n node := by
  unfold clearedAt
  by_cases h : n = a ∨ n = b
  · rw [if_pos h, if_pos h.symm, cleared_cleared]
  · rw [if_neg h, if_neg fun h' => h h'.symm]

/-- Both ends of a contact have been swept. -/
structure Ready (now : Time) (sender receiver : NodeId) (s s₁ : Simulator) (tx rx : Node) :
    Prop where
  quiet : Quiet now s s₁
  nodes : ∀ n, s₁.node? n = (s.node? n).map (clearedAt now sender receiver n)
  sender : s₁.node? sender = some tx
  receiver : s₁.node? receiver = some rx
  settledSender : Settled now tx
  settledReceiver : Settled now rx

theorem sweepBoth {tx₀ rx₀ : Node} (now : Time) (htx : s.node? sender = some tx₀)
    (hrx : s.node? receiver = some rx₀) {α : Type} (rest : Action α) :
    ∃ s₁ tx rx, Ready now sender receiver s s₁ tx rx ∧
      (do sweepNode now sender; sweepNode now receiver; rest : Action α).run s = rest.run s₁ := by
  have hfirst := quiet_sweepNode now htx
  obtain ⟨rx₁, hrx₁, -⟩ := hfirst.nodes receiver rx₀ hrx
  have hnodes : ∀ n, ((s.putNode sender (tx₀.sweep now)).putNode receiver (rx₁.sweep now)).node? n =
      (s.node? n).map (clearedAt now sender receiver n) := by
    intro n
    rw [node?_putNode hrx₁ (·.sweep now), node?_putNode htx (·.sweep now), Option.map_map]
    refine congrArg (Option.map · _) (funext fun node => ?_)
    change (if n = receiver then cleared now (if n = sender then cleared now node else node)
      else if n = sender then cleared now node else node) = _
    unfold clearedAt
    by_cases hs : n = sender
    · simp only [if_pos hs, if_pos (Or.inl hs), cleared_cleared, ite_self]
    · by_cases hr : n = receiver
      · rw [if_pos hr, if_neg hs, if_pos (Or.inr hr)]
      · rw [if_neg hr, if_neg hs, if_neg (not_or.mpr ⟨hs, hr⟩)]
  refine ⟨_, cleared now tx₀, cleared now rx₀, ⟨hfirst.trans (quiet_sweepNode now hrx₁), hnodes,
    ?_, ?_, settled_sweep now tx₀, settled_sweep now rx₀⟩, ?_⟩
  · rw [hnodes, htx]
    exact congrArg some (if_pos (.inl rfl))
  · rw [hnodes, hrx]
    exact congrArg some (if_pos (.inr rfl))
  · rw [run_bind_ok (sweepNode_run_some now htx), run_bind_ok (sweepNode_run_some now hrx₁)]

theorem offer_cases {tx₀ rx₀ : Node} (now : Time) (htx : s.node? sender = some tx₀)
    (hrx : s.node? receiver = some rx₀) :
    ∃ s₁ tx rx, Ready now sender receiver s s₁ tx rx ∧
      ((s₁.worthOffering now tx rx = [] ∧ (offer now sender receiver).run s = (.ok (), s₁)) ∨
      (s₁.worthOffering now tx rx ≠ [] ∧ ∃ choice,
        choose now tx rx s₁.protocol.historyWindow (s₁.worthOffering now tx rx) = choice ∧
        ((∃ f, choice = .error f ∧ (offer now sender receiver).run s = (.error f, s₁)) ∨
        ((∃ result, choice = .ok result ∧ ∀ count ids, result ≠ some (count, some ids)) ∧
          ∃ lines, (offer now sender receiver).run s = (.ok (), { s₁ with journal := lines })) ∨
        (∃ count ids lines, choice = .ok (some (count, some ids)) ∧
          (offer now sender receiver).run s =
            (queueAll now sender receiver 1 ids).run { s₁ with journal := lines })))) := by
  unfold offer
  obtain ⟨s₁, tx, rx, hready, hrun⟩ := sweepBoth now htx hrx _
  refine ⟨s₁, tx, rx, hready, ?_⟩
  rw [hrun, run_bind_ok (run_get s₁), hready.sender, hready.receiver]
  dsimp only
  cases hempty : (s₁.worthOffering now tx rx).isEmpty with
  | true => exact .inl ⟨List.isEmpty_iff.mp hempty, rfl⟩
  | false =>
    refine .inr ⟨by simpa using hempty, _, rfl, ?_⟩
    rw [if_neg (by simp)]
    cases choose now tx rx s₁.protocol.historyWindow (s₁.worthOffering now tx rx) with
    | error f => exact .inl ⟨f, rfl, rfl⟩
    | ok choice =>
      rw [run_bind_ok (run_ofExcept_ok choice s₁)]
      match choice with
      | none => exact .inr (.inl ⟨⟨none, rfl, nofun⟩, s₁.journal, rfl⟩)
      | some (count, none) => exact .inr (.inl ⟨⟨some (count, none), rfl, nofun⟩, _, rfl⟩)
      | some (count, some ids) => exact .inr (.inr ⟨count, ids, _, rfl, rfl⟩)

/-- The packets were at the sender, and nobody spared the receiver any of them. -/
structure Offered (sender receiver : NodeId) (ids : List PacketId) (s : Simulator) : Prop where
  nodup : ids.Nodup
  source : ∀ id ∈ ids, ∃ tx rx, s.node? sender = some tx ∧ s.node? receiver = some rx ∧
    id ∈ tx.buffer.liveIds ∧ s.isSpared rx id = false

/-- A node that has a packet is not offered it. -/
theorem Offered.apart {ids : List PacketId} (h : Offered sender receiver ids s)
    (hu : ∀ n node, s.node? n = some node → node.buffer.Uncoded) (heq : sender = receiver) :
    ids = [] := by
  subst heq
  refine List.eq_nil_iff_forall_not_mem.mpr fun id hid => ?_
  obtain ⟨tx, rx, htx, hrx, hlive, hspared⟩ := h.source id hid
  obtain rfl : tx = rx := Option.some_inj.mp (htx.symm.trans hrx)
  have hholds := (hu sender tx htx).holds_iff.mpr hlive
  simp [isSpared, hholds] at hspared

/--
One direction of a contact and its outcome: both ends are swept, and some of what was chosen is
sent, all of it if nothing fails.
-/
structure Direction (now : Time) (sender receiver : NodeId) (ids : List PacketId)
    (s s₁ : Simulator) (o : Except Fault Unit × Simulator) : Prop where
  quiet : Quiet now s s₁
  nodes : ∀ n, s₁.node? n = (s.node? n).map (clearedAt now sender receiver n)
  offered : Offered sender receiver ids s₁
  shipped : Shipped sender receiver ids s₁ o.2
  inserted : Event.Queue.insertAll (s₁.transfers now sender receiver 1 ids) s₁.queue =
    .ok o.2.queue
  chosen : ids = [] ∨ ∃ tx rx count chosen, s₁.node? sender = some tx ∧
    s₁.node? receiver = some rx ∧ Settled now rx ∧ ids <+: chosen ∧
    choose now tx rx s₁.protocol.historyWindow (s₁.worthOffering now tx rx) =
      .ok (some (count, some chosen))
  complete : o.1 = .ok () → ∀ tx rx count chosen, s₁.node? sender = some tx →
    s₁.node? receiver = some rx →
    choose now tx rx s₁.protocol.historyWindow (s₁.worthOffering now tx rx) =
      .ok (some (count, some chosen)) → ids = chosen

theorem Direction.idle {res : Except Fault Unit} (h : Quiet now s s') (hs : s'.queue.Sound)
    (nodes : ∀ n, s'.node? n = (s.node? n).map (clearedAt now sender receiver n))
    (hnone : res = .ok () → ∀ tx rx count chosen, s'.node? sender = some tx →
      s'.node? receiver = some rx →
      choose now tx rx s'.protocol.historyWindow (s'.worthOffering now tx rx) ≠
        .ok (some (count, some chosen))) :
    Direction now sender receiver [] s s' (res, s') where
  quiet := h
  nodes := nodes
  offered := ⟨List.nodup_nil, nofun⟩
  shipped := .nil hs
  inserted := rfl
  chosen := .inl rfl
  complete hok tx rx count chosen htx hrx hchoose :=
    absurd hchoose (hnone hok tx rx count chosen htx hrx)

theorem offer_direction {tx₀ rx₀ : Node} (hs : s.queue.Sound) (now : Time)
    (htx : s.node? sender = some tx₀) (hrx : s.node? receiver = some rx₀) :
    ∃ s₁ ids, Direction now sender receiver ids s s₁ ((offer now sender receiver).run s) := by
  obtain ⟨s₁, tx, rx, hready, hcases⟩ := offer_cases now htx hrx
  have hs₁ : s₁.queue.Sound := by rw [hready.quiet.queue]; exact hs
  -- The two ends are the ones that the offer was made between.
  have hends {tx' rx' : Node} (htx' : s₁.node? sender = some tx')
      (hrx' : s₁.node? receiver = some rx') : tx' = tx ∧ rx' = rx :=
    ⟨Option.some_inj.mp (htx'.symm.trans hready.sender),
      Option.some_inj.mp (hrx'.symm.trans hready.receiver)⟩
  rcases hcases with ⟨hempty, hrun⟩ | ⟨_, choice, hchoice, ⟨f, _, hrun⟩ |
    ⟨⟨result, rfl, hnone⟩, lines, hrun⟩ | ⟨count, chosen, lines, rfl, hrun⟩⟩
  · rw [hrun]
    refine ⟨s₁, [], .idle hready.quiet hs₁ hready.nodes ?_⟩
    rintro - tx' rx' count chosen htx' hrx' hchoose
    obtain ⟨rfl, rfl⟩ := hends htx' hrx'
    rw [hempty] at hchoose
    cases hchoose
  · rw [hrun]
    exact ⟨s₁, [], .idle hready.quiet hs₁ hready.nodes fun herr => by cases herr⟩
  · rw [hrun]
    refine ⟨_, [], .idle (hready.quiet.trans (.journal s₁ lines)) hs₁ hready.nodes ?_⟩
    rintro - tx' rx' count chosen htx' hrx' hchoose
    obtain ⟨rfl, rfl⟩ := hends htx' hrx'
    exact hnone count chosen (Except.ok.inj (hchoice.symm.trans hchoose))
  · rw [hrun]
    obtain ⟨ids, hsent, hship, hins, hres⟩ := queueAll_outcome
      (s := { s₁ with journal := lines }) hs₁ now sender receiver 1 chosen
    obtain ⟨hnodup, hchosen⟩ := choose_sound hchoice
    refine ⟨_, ids, hready.quiet.trans (.journal s₁ lines), hready.nodes,
      ⟨hnodup.sublist hsent.sublist, fun id hid => ?_⟩, hship, hins,
      .inr ⟨tx, rx, count, chosen, hready.sender, hready.receiver, hready.settledReceiver, hsent,
        hchoice⟩, fun hok tx' rx' count' chosen' htx' hrx' hchoose => ?_⟩
    · obtain ⟨i, hi, rfl⟩ := List.mem_map.mp (hchosen id (hsent.subset hid))
      obtain ⟨p, hp, rfl, hspare, _⟩ := mem_worthOffering hi
      exact ⟨tx, rx, hready.sender, hready.receiver, Buffer.mem_liveIds.mpr ⟨p, hp, rfl⟩, hspare⟩
    · obtain ⟨rfl, rfl⟩ := hends htx' hrx'
      cases hchoice.symm.trans hchoose
      rcases hres with ⟨_, hall⟩ | ⟨herr, _⟩
      · exact hall
      · rw [herr] at hok
        cases hok

theorem offer_outcome {tx₀ rx₀ : Node} (hs : s.queue.Sound) (now : Time)
    (htx : s.node? sender = some tx₀) (hrx : s.node? receiver = some rx₀) :
    ∃ s₁ sent, Quiet now s s₁ ∧ Offered sender receiver sent s₁ ∧
      Shipped sender receiver sent s₁ ((offer now sender receiver).run s).2 := by
  obtain ⟨s₁, ids, h⟩ := offer_direction hs now htx hrx
  exact ⟨s₁, ids, h.quiet, h.offered, h.shipped⟩

/--
The two directions in turn. If the first one fails nothing is sent back, but then both ends have
been swept already.
-/
theorem offers_directions {a b : NodeId} {na nb : Node} (hs : s.queue.Sound) (now : Time)
    (ha : s.node? a = some na) (hb : s.node? b = some nb) : ∃ s₁ o s₃ ids ids',
      Direction now a b ids s s₁ o ∧
      Direction now b a ids' o.2 s₃ ((do offer now a b; offer now b a : Action Unit).run s) ∧
      (((do offer now a b; offer now b a : Action Unit).run s).1 = .ok () → o.1 = .ok ()) := by
  obtain ⟨s₁, ids, hthere⟩ := offer_direction hs now ha hb
  cases hfirst : (offer now a b).run s with
  | mk res s₂ =>
    rw [hfirst] at hthere
    have hship := hthere.shipped
    have hsame : ∀ n, s₂.node? n = s₁.node? n := fun n => by rw [node?, node?, hship.nodes]
    cases res with
    | error f =>
      rw [run_bind_error hfirst]
      refine ⟨s₁, _, s₂, ids, [], hthere, .idle (.refl now s₂) hship.sound (fun n => ?_)
        (fun herr => by cases herr), id⟩
      rw [hsame, hthere.nodes, Option.map_map]
      exact congrArg (Option.map · _) (funext (clearedAt_clearedAt now a b n)).symm
    | ok u =>
      rw [run_bind_ok hfirst]
      obtain ⟨na₁, ha₁, _⟩ := hthere.quiet.nodes a na ha
      obtain ⟨nb₁, hb₁, _⟩ := hthere.quiet.nodes b nb hb
      obtain ⟨s₃, ids', hback⟩ := offer_direction hship.sound now ((hsame b).trans hb₁)
        ((hsame a).trans ha₁)
      exact ⟨s₁, _, s₃, ids, ids', hthere, hback, fun _ => rfl⟩

/-! ### The two events -/

theorem kept_recordEncounter (now : Time) (other : NodeId) (node : Node) :
    Node.Kept now node (node.recordEncounter other) :=
  ⟨rfl, rfl, rfl, rfl, .refl now _⟩

/-- The network with other links and another number of contacts. -/
def relinked (links : Std.TreeMap Link Nat) (contacts : Nat) (s : Simulator) : Simulator :=
  { s with links := links, traffic := { s.traffic with contacts := contacts } }

/-- The network after the transfers between two nodes have been aborted. -/
def severed (a b : NodeId) (links : Std.TreeMap Link Nat) (aborted : Nat) (s : Simulator) :
    Simulator :=
  { s with
    links := links
    queue := (s.queue.invalidateLink a b).2
    traffic := { s.traffic with aborted := aborted } }

/-- What a contact of `a` and `b` makes of the node `n` before anything is offered. -/
def greeted (a b n : NodeId) (node : Node) : Node :=
  let first := if n = a then silenced (node.recordEncounter b) else node
  if n = b then silenced (first.recordEncounter a) else first

/-- A contact that opens a closed link: both ends count each other, and then both offer. -/
theorem contactUp_opens {a b : NodeId} {na nb : Node} (now : Time) (ha : s.node? a = some na)
    (hb : s.node? b = some nb) (hclosed : s.timesOpen a b = 0) : ∃ s₁,
      Quiet now (s.relinked (s.links.insert (Link.between a b) 1) (s.traffic.contacts + 1)) s₁ ∧
      (∀ n, s₁.node? n = (s.node? n).map (greeted a b n)) ∧
      (contactUp now a b).run s = (do offer now a b; offer now b a : Action Unit).run s₁ := by
  unfold contactUp
  rw [run_bind_ok (requireNode_run_some ha), run_bind_ok (requireNode_run_some hb),
    run_bind_ok (run_get s)]
  dsimp only
  rw [run_bind_ok (run_modify _ s), if_pos hclosed, hclosed]
  let s₀ : Simulator := counted (fun t => { t with contacts := t.contacts + 1 })
    { s with links := s.links.insert (Link.between a b) 1 }
  have ha₀ : s₀.node? a = some na := ha
  have hquiet : Quiet now s₀ (s₀.putNode a (na.recordEncounter b)) :=
    .putNode ha₀ (kept_recordEncounter now b na)
  obtain ⟨nb', hb', _⟩ := hquiet.nodes b nb hb
  refine ⟨_, hquiet.trans (.putNode hb' (kept_recordEncounter now a nb')), fun n => ?_, ?_⟩
  · rw [node?_putNode hb' (·.recordEncounter a), node?_putNode ha₀ (·.recordEncounter b),
      Option.map_map]
    rfl
  · rw [run_bind_ok (run_count _ _), run_bind_ok (visit_run_some ha₀ _),
      run_bind_ok (visit_run_some hb' _)]

/-- A contact that opens a closed link: both ends count each other, and either sends something. -/
structure Meeting (now : Time) (a b : NodeId) (ids ids' : List PacketId)
    (s s₀ s₁ s₃ : Simulator) (o out : Except Fault Unit × Simulator) : Prop where
  relinked : Quiet now
    (s.relinked (s.links.insert (Link.between a b) 1) (s.traffic.contacts + 1)) s₀
  counted : ∀ n, s₀.node? n = (s.node? n).map (greeted a b n)
  there : Direction now a b ids s₀ s₁ o
  back : Direction now b a ids' o.2 s₃ out
  through : out.1 = .ok () → o.1 = .ok ()

theorem contactUp_meeting {a b : NodeId} {na nb : Node} (hs : s.queue.Sound) (now : Time)
    (ha : s.node? a = some na) (hb : s.node? b = some nb) (hclosed : s.timesOpen a b = 0) :
    ∃ s₀ s₁ s₃ o ids ids',
      Meeting now a b ids ids' s s₀ s₁ s₃ o ((contactUp now a b).run s) := by
  obtain ⟨s₀, hquiet, hcounted, hrun⟩ := contactUp_opens now ha hb hclosed
  obtain ⟨na₀, ha₀, -⟩ := hquiet.nodes a na ha
  obtain ⟨nb₀, hb₀, -⟩ := hquiet.nodes b nb hb
  have hs₀ : s₀.queue.Sound := by
    rw [hquiet.queue]
    exact hs
  obtain ⟨s₁, o, s₃, ids, ids', hthere, hback, hthrough⟩ := offers_directions hs₀ now ha₀ hb₀
  rw [← hrun] at hback hthrough
  exact ⟨s₀, s₁, s₃, o, ids, ids', hquiet, hcounted, hthere, hback, hthrough⟩

namespace Meeting

variable {a b : NodeId} {ids ids' : List PacketId} {s₀ s₁ s₃ : Simulator}
  {o out : Except Fault Unit × Simulator}

/-- The nodes have been swept before the first direction, and stay as they are then. -/
theorem nodes_there (h : Meeting now a b ids ids' s s₀ s₁ s₃ o out) (n : NodeId) :
    s₁.node? n = (s.node? n).map fun node => clearedAt now a b n (greeted a b n node) := by
  rw [h.there.nodes, h.counted, Option.map_map]
  rfl

theorem nodes_back (h : Meeting now a b ids ids' s s₀ s₁ s₃ o out) (n : NodeId) :
    s₃.node? n = s₁.node? n := by
  have hsame : o.2.node? n = s₁.node? n := by rw [node?, node?, h.there.shipped.nodes]
  rw [h.back.nodes, hsame, h.nodes_there, Option.map_map]
  exact congrArg (Option.map · _) (funext fun node => clearedAt_clearedAt now a b n _)

theorem nodes (h : Meeting now a b ids ids' s s₀ s₁ s₃ o out) (n : NodeId) :
    out.2.node? n = s₁.node? n := by
  rw [← h.nodes_back, node?, node?, h.back.shipped.nodes]

end Meeting

theorem contactUp_cases (now : Time) (a b : NodeId) (s : Simulator) :
    ((s.node? a = none ∨ s.node? b = none) ∧
      ∃ n, (contactUp now a b).run s = (.error (.unknownNode n), s)) ∨
    (s.timesOpen a b ≠ 0 ∧ (contactUp now a b).run s = (.ok (),
      { s with links := s.links.insert (Link.between a b) (s.timesOpen a b + 1) })) ∨
    (s.timesOpen a b = 0 ∧ ∃ s₁ na nb, s.node? a = some na ∧ s.node? b = some nb ∧
      Quiet now (s.relinked (s.links.insert (Link.between a b) 1) (s.traffic.contacts + 1)) s₁ ∧
      (contactUp now a b).run s = (do offer now a b; offer now b a : Action Unit).run s₁) := by
  cases ha : s.node? a with
  | none =>
    refine .inl ⟨.inl rfl, a, ?_⟩
    unfold contactUp
    exact run_bind_error (requireNode_run_none ha)
  | some na =>
    cases hb : s.node? b with
    | none =>
      refine .inl ⟨.inr rfl, b, ?_⟩
      unfold contactUp
      rw [run_bind_ok (requireNode_run_some ha)]
      exact run_bind_error (requireNode_run_none hb)
    | some nb =>
      by_cases hopen : s.timesOpen a b = 0
      · obtain ⟨s₁, hquiet, -, hrun⟩ := contactUp_opens now ha hb hopen
        exact .inr (.inr ⟨hopen, s₁, na, nb, rfl, rfl, hquiet, hrun⟩)
      · refine .inr (.inl ⟨hopen, ?_⟩)
        unfold contactUp
        rw [run_bind_ok (requireNode_run_some ha), run_bind_ok (requireNode_run_some hb),
          run_bind_ok (run_get s)]
        dsimp only
        rw [run_bind_ok (run_modify _ s), if_neg hopen]
        rfl

theorem contactDown_cases (a b : NodeId) (s : Simulator) :
    (s.timesOpen a b = 0 ∧ (contactDown a b).run s = (.ok (), s)) ∨
    (s.timesOpen a b = 1 ∧ (contactDown a b).run s = (.ok (),
      s.severed a b (s.links.erase (Link.between a b))
        (s.traffic.aborted + s.queue.toList.countP (Event.Queue.breaksWith a b)))) ∨
    ∃ more, s.timesOpen a b = more + 2 ∧ (contactDown a b).run s = (.ok (),
      { s with links := s.links.insert (Link.between a b) (more + 1) }) := by
  unfold contactDown
  rw [run_bind_ok (run_get s)]
  match h : s.timesOpen a b with
  | 0 => exact .inl ⟨rfl, rfl⟩
  | 1 =>
    refine .inr (.inl ⟨rfl, ?_⟩)
    rw [← (s.queue.toList_invalidateLink a b).1]
    rfl
  | more + 2 => exact .inr (.inr ⟨more, rfl, rfl⟩)

end OppNet.Simulator
