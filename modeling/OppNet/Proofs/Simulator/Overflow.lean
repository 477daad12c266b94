import OppNet.Proofs.Admission.Decision
import OppNet.Proofs.Simulator.Link
import OppNet.Proofs.Simulator.Report

/-!
# OppNet.Proofs.Simulator.Overflow

Admission that avoids overflow. When a contact begins, each end tells the other one how many places
it has free, and is sent no more packets than that. Nobody counts what others are sending meanwhile.

* `choose_avoidOverflow`: what is chosen fits. `Direction.admitted`: so does what is sent.
* `Met`: what a contact has queued once it is over with. `RoomFor`: what this means for one of its
  ends.
* `contact_avoids_overflow`: each contact leaves room for what it queues, but two contacts may count
  on the same place (`crowded_overflows`).
-/

namespace OppNet

def EventKind.isHeadedFor (receiver : NodeId) : EventKind → Bool
  | transmission _ n _ valid => valid && n == receiver
  | _ => false

def EventKind.isSentBy (sender : NodeId) : EventKind → Bool
  | transmission n _ _ _ => n == sender
  | _ => false

theorem EventKind.eq_of_isHeadedFor {k : EventKind} {sender receiver : NodeId}
    (h : k.isHeadedFor receiver = true) (hs : k.isSentBy sender = true) :
    ∃ packet, k = .transmission sender receiver packet true := by
  cases k with
  | transmission n m packet valid =>
    obtain ⟨rfl, hm⟩ := Bool.and_eq_true_iff.mp h
    obtain rfl := beq_iff_eq.mp hm
    obtain rfl := beq_iff_eq.mp hs
    exact ⟨packet, rfl⟩
  | _ => cases h

namespace Simulator

variable {now : Time} {sender receiver a b n : NodeId} {ids ids' : List PacketId}
  {node node' tx rx : Node} {s s₁ s' : Simulator} {scenario : Scenario} {trace : Trace}

theorem Reachable.capacity_eq (h : Reachable scenario trace s) (hn : s.node? n = some node) :
    node.buffer.capacity = scenario.buffer.capacity := by
  refine h.nodes (P := fun _ node => node.buffer.capacity = scenario.buffer.capacity)
    (fun _ => rfl) (fun k s _ n node node' hnode hc => ?_) n node hn
  change node'.buffer.capacity = scenario.buffer.capacity
  rcases hc.perform with he | ⟨now, r, _, he⟩
  · rw [he, hnode]
  · rw [he, Buffer.capacity_perform, hnode]

/-! ### Cautious nodes -/

/-- A node that avoids overflow and has a bounded buffer of uncoded packets. -/
structure Cautious (node : Node) : Prop where
  admission : node.admission = .avoidOverflow
  bounded : node.buffer.capacity ≠ 0
  uncoded : node.buffer.Uncoded

theorem Cautious.of_kept (h : Cautious node) (hk : Node.Kept now node node') : Cautious node' :=
  ⟨hk.admission.trans h.admission, by rw [hk.buffer.capacity]; exact h.bounded,
    hk.buffer.uncoded h.uncoded⟩

theorem Cautious.exists_free (h : Cautious node) (now : Time) :
    ∃ free, (node.buffer.sweep now).availableSpace? = some free := by
  refine ⟨_, if_neg ?_⟩
  rw [Buffer.capacity_sweep]
  exact h.bounded

def AllCautious (s : Simulator) : Prop := ∀ n node, s.node? n = some node → Cautious node

theorem AllCautious.of_quiet (h : AllCautious s) (hq : Quiet now s s') : AllCautious s' := by
  intro n node' hn'
  obtain ⟨node, hn, hk⟩ := hq.back hn'
  exact (h n node hn).of_kept hk

theorem AllCautious.of_nodes_eq (h : AllCautious s) (hn : s'.nodes = s.nodes) : AllCautious s' := by
  intro n node hnode
  rw [node?, hn] at hnode
  exact h n node hnode

theorem Reachable.allCautious (h : Reachable scenario trace s)
    (hp : scenario.policies.admission = .avoidOverflow) (hc : scenario.buffer.capacity ≠ 0) :
    AllCautious s := by
  intro n node hn
  have hf := h.sane.nodes n node hn
  refine ⟨hf.admission.trans hp, ?_, hf.uncoded⟩
  rw [h.capacity_eq hn]
  exact hc

/-! ### What is sent -/

/-- What is chosen fits into the places that the receiver has free. -/
theorem choose_avoidOverflow {window : TimeSpan} {infos : List PacketInfo} {count : Nat}
    (hp : tx.admission = .avoidOverflow) (hc : rx.buffer.capacity ≠ 0)
    (h : choose now tx rx window infos = .ok (some (count, some ids))) :
    ids.length ≤ rx.buffer.capacity - rx.buffer.size := by
  obtain ⟨order, -, hd⟩ := choose_eq_some h
  exact (Admitter.lawful_of_decide hd).2.length_le rfl hp hc

/-- The packets fit into the places that the receiver has free, and no node sends to itself. -/
structure Admitted (now : Time) (sender receiver : NodeId) (ids : List PacketId) (s : Simulator) :
    Prop where
  room : ∃ rx free, s.node? receiver = some rx ∧
    (rx.buffer.sweep now).availableSpace? = some free ∧ ids.length ≤ free
  apart : sender = receiver → ids = []

namespace Admitted

theorem of_nodes_eq (h : Admitted now sender receiver ids s) (hn : s'.nodes = s.nodes) :
    Admitted now sender receiver ids s' := by
  obtain ⟨rx, free, hrx, hfree, hle⟩ := h.room
  refine ⟨⟨rx, free, ?_, hfree, hle⟩, h.apart⟩
  rw [node?, hn]
  exact hrx

theorem of_quiet (h : Admitted now sender receiver ids s) (hc : AllCautious s)
    (hq : Quiet now s s') : Admitted now sender receiver ids s' := by
  obtain ⟨rx, free, hrx, hfree, hle⟩ := h.room
  obtain ⟨rx', hrx', hk⟩ := hq.nodes receiver rx hrx
  refine ⟨⟨rx', free, hrx', ?_, hle⟩, h.apart⟩
  rw [hk.buffer.availableSpace?_sweep (hc receiver rx hrx).uncoded]
  exact hfree

theorem not_headed_back (h : Admitted now sender receiver ids s) {k : EventKind}
    (hk : k ∈ ids.map fun id => EventKind.transmission sender receiver id true) :
    k.isHeadedFor sender = false := by
  obtain ⟨id, hid, rfl⟩ := List.mem_map.mp hk
  refine Bool.eq_false_iff.mpr fun hheaded => ?_
  have heq : receiver = sender := by simpa [EventKind.isHeadedFor] using hheaded
  rw [h.apart heq.symm] at hid
  cases hid

end Admitted

theorem Direction.admitted {o : Except Fault Unit × Simulator}
    (h : Direction now sender receiver ids s s₁ o) (hc : AllCautious s)
    (hrx : s.node? receiver = some rx) : Admitted now sender receiver ids o.2 := by
  have hc₁ := hc.of_quiet h.quiet
  refine Admitted.of_nodes_eq ⟨?_, h.offered.apart fun n node hn => (hc₁ n node hn).uncoded⟩
    h.shipped.nodes
  rcases h.chosen with rfl | ⟨tx₁, rx₁, count, chosen, htx₁, hrx₁, hsettled, hsent, hchoose⟩
  · obtain ⟨rx₁, hrx₁, _⟩ := h.quiet.nodes receiver rx hrx
    obtain ⟨free, hfree⟩ := (hc₁ receiver rx₁ hrx₁).exists_free now
    exact ⟨rx₁, free, hrx₁, hfree, Nat.zero_le free⟩
  · have htx := hc₁ sender tx₁ htx₁
    have hrx := hc₁ receiver rx₁ hrx₁
    obtain ⟨free, hfree⟩ := hrx.exists_free now
    refine ⟨rx₁, free, hrx₁, hfree, ?_⟩
    -- The receiver had been swept when it told of its length.
    have hsize : (rx₁.buffer.sweep now).size = rx₁.buffer.size := by
      rw [← (hrx.uncoded.sweep now).length_liveIds, ← hrx.uncoded.length_liveIds]
      exact congrArg List.length hsettled
    have hspace : (rx₁.buffer.sweep now).availableSpace? =
        some (rx₁.buffer.capacity - rx₁.buffer.size) := by
      rw [Buffer.availableSpace?, Buffer.capacity_sweep, if_neg hrx.bounded, hsize]
    rw [hspace] at hfree
    cases hfree
    exact Nat.le_trans hsent.length_le
      (choose_avoidOverflow htx.admission hrx.bounded hchoose)

/-! ### What a contact queues -/

def pendingKinds (q : Event.Queue) : List EventKind := q.toList.map (·.kind)

theorem Shipped.pendingKinds_perm (h : Shipped sender receiver ids s s') :
    (pendingKinds s'.queue).Perm
      (ids.map (fun id => .transmission sender receiver id true) ++ pendingKinds s.queue) := by
  obtain ⟨events, hkinds, hperm⟩ := h.queue
  have hmap := hperm.map (·.kind)
  rw [List.map_append, hkinds] at hmap
  exact hmap

/-- A contact queued transfers of the packets `ids` one way, and of `ids'` the other way. -/
structure Met (now : Time) (a b : NodeId) (ids ids' : List PacketId) (q : Event.Queue)
    (s' : Simulator) : Prop where
  pending : (pendingKinds s'.queue).Perm
    (ids.map (fun id => .transmission a b id true) ++
      (ids'.map (fun id => .transmission b a id true) ++ pendingKinds q))
  there : Admitted now a b ids s'
  back : Admitted now b a ids' s'

theorem Met.symm {q : Event.Queue} (h : Met now a b ids ids' q s') :
    Met now b a ids' ids q s' :=
  ⟨h.pending.trans (List.perm_append_comm_assoc _ _ _), h.back, h.there⟩

/-- The beginning of a contact queues nothing, unless it opens a closed link. -/
theorem contactUp_met (hs : s.queue.Sound) (hc : AllCautious s) (now : Time) (a b : NodeId) :
    ((contactUp now a b).run s).2.queue = s.queue ∨
    s.timesOpen a b = 0 ∧ ∃ ids ids', Met now a b ids ids' s.queue
      ((contactUp now a b).run s).2 := by
  rcases contactUp_cases now a b s with ⟨_, f, hrun⟩ | ⟨_, hrun⟩ |
    ⟨hclosed, _, na, nb, ha, hb, _⟩
  · rw [hrun]
    exact .inl rfl
  · rw [hrun]
    exact .inl rfl
  · obtain ⟨s₀, s₁, s₃, o, ids, ids', h⟩ := contactUp_meeting hs now ha hb hclosed
    have hrelinked : AllCautious (s.relinked (s.links.insert (Link.between a b) 1)
        (s.traffic.contacts + 1)) := hc.of_nodes_eq rfl
    have hc₀ := hrelinked.of_quiet h.relinked
    have hc₂ := (hc₀.of_quiet h.there.quiet).of_nodes_eq h.there.shipped.nodes
    obtain ⟨nb₀, hb₀, _⟩ := h.relinked.nodes b nb hb
    obtain ⟨na₀, ha₀, _⟩ := h.relinked.nodes a na ha
    obtain ⟨na₁, ha₁, _⟩ := h.there.quiet.nodes a na₀ ha₀
    have ha₂ : o.2.node? a = some na₁ := by
      rw [node?, h.there.shipped.nodes]
      exact ha₁
    refine .inr ⟨hclosed, ids, ids', ?_, ?_, h.back.admitted hc₂ ha₂⟩
    · have hfirst := h.there.shipped.pendingKinds_perm
      rw [h.there.quiet.queue, h.relinked.queue] at hfirst
      have hsecond := h.back.shipped.pendingKinds_perm
      rw [h.back.quiet.queue] at hsecond
      exact (hsecond.trans (hfirst.append_left _)).trans (List.perm_append_comm_assoc _ _ _)
    · exact ((h.there.admitted hc₀ hb₀).of_quiet hc₂ h.back.quiet).of_nodes_eq
        h.back.shipped.nodes

/-! ### Room for what is sent -/

/--
What the sender is sending to the receiver fits into the places that this has free, what others are
sending to it is what they were sending before, and all of that together, or as much of it as is
wanted, exceeds the free places by no more than what was pending before.
-/
structure RoomFor (now : Time) (sender receiver : NodeId) (before : List EventKind)
    (s' : Simulator) : Prop where
  others : ((pendingKinds s'.queue).filter
      fun k => k.isHeadedFor receiver && !k.isSentBy sender).Perm
    (before.filter fun k => k.isHeadedFor receiver && !k.isSentBy sender)
  room : ∃ rx free, s'.node? receiver = some rx ∧
    (rx.buffer.sweep now).availableSpace? = some free ∧
    (pendingKinds s'.queue).countP (fun k => k.isHeadedFor receiver && k.isSentBy sender) ≤ free ∧
    ∀ wanted : EventKind → Bool,
      (pendingKinds s'.queue).countP (fun k => k.isHeadedFor receiver && wanted k) ≤
        free + before.countP fun k => k.isHeadedFor receiver && wanted k

/-- The transfers of one direction, and those pending before, are all that is headed for its end. -/
theorem Met.countP_le {q : Event.Queue} (h : Met now a b ids ids' q s')
    (wanted : EventKind → Bool) :
    (pendingKinds s'.queue).countP (fun k => k.isHeadedFor b && wanted k) ≤
      ids.length + (pendingKinds q).countP fun k => k.isHeadedFor b && wanted k := by
  have hback : (ids'.map fun id => EventKind.transmission b a id true).countP
      (fun k => k.isHeadedFor b && wanted k) = 0 := by
    refine List.countP_eq_zero.mpr fun k hk => ?_
    rw [h.back.not_headed_back hk]
    exact Bool.false_ne_true
  have hthere : (ids.map fun id => EventKind.transmission a b id true).countP
      (fun k => k.isHeadedFor b && wanted k) ≤ ids.length := by
    refine Nat.le_trans List.countP_le_length (Nat.le_of_eq ?_)
    rw [List.length_map]
  rw [h.pending.countP_eq, List.countP_append, List.countP_append, hback, Nat.zero_add]
  exact Nat.add_le_add_right hthere _

/-- If the sender was sending nothing to the receiver, then there is room for what it sends now. -/
theorem Met.roomFor {q : Event.Queue} (h : Met now a b ids ids' q s')
    (hnone : ∀ k ∈ pendingKinds q, ¬ (k.isHeadedFor b && k.isSentBy a) = true) :
    RoomFor now a b (pendingKinds q) s' := by
  obtain ⟨rx, free, hrx, hfree, hle⟩ := h.there.room
  refine ⟨?_, rx, free, hrx, hfree, ?_, fun wanted => ?_⟩
  · have hthere : (ids.map fun id => EventKind.transmission a b id true).filter
        (fun k => k.isHeadedFor b && !k.isSentBy a) = [] := by
      refine List.filter_eq_nil_iff.mpr fun k hk => ?_
      obtain ⟨id, _, rfl⟩ := List.mem_map.mp hk
      simp [EventKind.isSentBy]
    have hback : (ids'.map fun id => EventKind.transmission b a id true).filter
        (fun k => k.isHeadedFor b && !k.isSentBy a) = [] := by
      refine List.filter_eq_nil_iff.mpr fun k hk => ?_
      rw [h.back.not_headed_back hk]
      exact Bool.false_ne_true
    have hperm := h.pending.filter fun k => k.isHeadedFor b && !k.isSentBy a
    rwa [List.filter_append, List.filter_append, hthere, hback] at hperm
  · have hcount := h.countP_le (EventKind.isSentBy a)
    rw [List.countP_eq_zero.mpr hnone] at hcount
    exact Nat.le_trans hcount hle
  · exact Nat.le_trans (h.countP_le wanted) (Nat.add_le_add_right hle _)

theorem Linked.not_pending (h : Linked s) (hclosed : s.timesOpen a b = 0) :
    ∀ k ∈ pendingKinds s.queue, ¬ (k.isHeadedFor b && k.isSentBy a) = true := by
  intro k hk hboth
  obtain ⟨e, he, rfl⟩ := List.mem_map.mp hk
  obtain ⟨hheaded, hsent⟩ := Bool.and_eq_true_iff.mp hboth
  obtain ⟨packet, heq⟩ := EventKind.eq_of_isHeadedFor hheaded hsent
  exact h.crossing e he a b packet heq hclosed

/--
Where all nodes avoid overflow of bounded buffers, on a trace without transfers of its own, a
contact that queues anything leaves either end with room for all that the other one is sending to
it. What others are sending is left as it is, and comes on top.
-/
theorem contact_avoids_overflow (hx : shipments trace.events = [])
    (hp : scenario.policies.admission = .avoidOverflow) (hc : scenario.buffer.capacity ≠ 0)
    (h : Reachable scenario trace s) {q : Event.Queue}
    (hd : s.due? = some (⟨now, .contactUp a b⟩, q)) :
    let s' := ((process ⟨now, .contactUp a b⟩ q).run s).2
    s'.queue = q ∨
      RoomFor now a b (pendingKinds q) s' ∧ RoomFor now b a (pendingKinds q) s' := by
  intro s'
  have hsound := (h.sane.taken hd).sound
  have hcautious : AllCautious (s.taken ⟨now, .contactUp a b⟩ q) :=
    (h.allCautious hp hc).of_nodes_eq rfl
  have hlinked := (h.linked hx).taken hd
  rcases contactUp_met hsound hcautious now a b with hq | ⟨hclosed, ids, ids', hmet⟩
  · exact .inl hq
  · refine .inr ⟨hmet.roomFor (hlinked.not_pending hclosed), ?_⟩
    rw [timesOpen_comm] at hclosed
    exact hmet.symm.roomFor (hlinked.not_pending hclosed)

/-- Whether the sender's copy of the packet is addressed to somebody other than the receiver. -/
def passesThrough (s : Simulator) : EventKind → Bool
  | .transmission sender receiver packet _ =>
    ((s.node? sender).bind (·.buffer.find? packet)).any (·.destination != receiver)
  | _ => false

end Simulator

/-- Four nodes that avoid overflow, with room for one packet each. -/
def Scenario.narrow : Scenario :=
  { Scenario.pair with
    nodes := 4
    buffer := { capacity := 1, lifetime := ⟨0.0⟩, recording := false }
    policies := { eviction := ⟨.front, false⟩, scheduling := .fifo, admission := .avoidOverflow } }

/-- Two nodes meet a third one, each with a packet for a fourth one. -/
def Trace.crowded : Trace where
  events :=
    [⟨⟨1.0⟩, .generation ⟨0⟩ ⟨3⟩ ⟨0⟩ true⟩, ⟨⟨1.5⟩, .generation ⟨1⟩ ⟨3⟩ ⟨1⟩ true⟩,
      ⟨⟨2.0⟩, .contactUp ⟨0⟩ ⟨2⟩⟩, ⟨⟨3.0⟩, .contactUp ⟨1⟩ ⟨2⟩⟩]
  contacts := 2
  packets := 2

namespace Simulator

/-- After the second contact two packets that only pass through are headed for the one place. -/
theorem exists_crowded : ∃ s q, Reachable Scenario.narrow Trace.crowded s ∧
    s.due? = some (⟨⟨3.0⟩, .contactUp ⟨1⟩ ⟨2⟩⟩, q) ∧
    let s' := ((process ⟨⟨3.0⟩, .contactUp ⟨1⟩ ⟨2⟩⟩ q).run s).2
    pendingKinds q = [.transmission ⟨0⟩ ⟨2⟩ ⟨0⟩ true] ∧
    pendingKinds s'.queue = [.transmission ⟨0⟩ ⟨2⟩ ⟨0⟩ true, .transmission ⟨1⟩ ⟨2⟩ ⟨1⟩ true] ∧
    (∀ k ∈ pendingKinds s'.queue, s'.passesThrough k = true) ∧
    (s'.node? ⟨2⟩).bind (fun rx => (rx.buffer.sweep ⟨3.0⟩).availableSpace?) = some 1 := by
  obtain ⟨s, hs, hp⟩ := exists_reachable Scenario.narrow Trace.crowded 3
    (fun s => s.due?.any fun x =>
      let s' := ((process x.1 x.2).run s).2
      decide (x.1 = (⟨⟨3.0⟩, .contactUp ⟨1⟩ ⟨2⟩⟩ : Event) ∧
        pendingKinds x.2 = [.transmission ⟨0⟩ ⟨2⟩ ⟨0⟩ true] ∧
        pendingKinds s'.queue =
          [.transmission ⟨0⟩ ⟨2⟩ ⟨0⟩ true, .transmission ⟨1⟩ ⟨2⟩ ⟨1⟩ true] ∧
        (∀ k ∈ pendingKinds s'.queue, s'.passesThrough k = true) ∧
        (s'.node? ⟨2⟩).bind (fun rx => (rx.buffer.sweep ⟨3.0⟩).availableSpace?) = some 1))
    (by decide +kernel)
  obtain ⟨⟨e, q⟩, hd, hx⟩ := (Option.any_eq_true _ _).mp hp
  obtain ⟨rfl, hrest⟩ := of_decide_eq_true hx
  exact ⟨s, q, hs, hd, hrest⟩

/-- The second contact leaves room for what it queues, and only for that. -/
theorem crowded_has_room : shipments Trace.crowded.events = [] ∧
    ∃ s q, Reachable Scenario.narrow Trace.crowded s ∧
    s.due? = some (⟨⟨3.0⟩, .contactUp ⟨1⟩ ⟨2⟩⟩, q) ∧
    let s' := ((process ⟨⟨3.0⟩, .contactUp ⟨1⟩ ⟨2⟩⟩ q).run s).2
    RoomFor ⟨3.0⟩ ⟨1⟩ ⟨2⟩ (pendingKinds q) s' ∧ RoomFor ⟨3.0⟩ ⟨2⟩ ⟨1⟩ (pendingKinds q) s' := by
  obtain ⟨s, q, hs, hd, hbefore, hafter, -, -⟩ := exists_crowded
  refine ⟨rfl, s, q, hs, hd, ?_⟩
  rcases contact_avoids_overflow rfl rfl (by decide) hs hd with hq | hroom
  · rw [hq, hbefore] at hafter
    cases hafter
  · exact hroom

/-- What is on its way from all senders together need not fit into the free places. -/
theorem crowded_overflows :
    ¬ ∀ (scenario : Scenario) (trace : Trace) (s : Simulator) (now : Time) (a b : NodeId)
      (q : Event.Queue), shipments trace.events = [] →
      scenario.policies.admission = .avoidOverflow → scenario.buffer.capacity ≠ 0 →
      Reachable scenario trace s → s.due? = some (⟨now, .contactUp a b⟩, q) →
      let s' := ((process ⟨now, .contactUp a b⟩ q).run s).2
      (pendingKinds q).countP (·.isHeadedFor b) <
        (pendingKinds s'.queue).countP (·.isHeadedFor b) →
      ∀ rx free, s'.node? b = some rx → (rx.buffer.sweep now).availableSpace? = some free →
        (pendingKinds s'.queue).countP (fun k => k.isHeadedFor b && s'.passesThrough k) ≤ free := by
  intro h
  obtain ⟨s, q, hs, hd, hbefore, hafter, hthrough, hfree⟩ := exists_crowded
  obtain ⟨rx, hrx, hfree⟩ := Option.bind_eq_some_iff.mp hfree
  have hle := h Scenario.narrow Trace.crowded s ⟨3.0⟩ ⟨1⟩ ⟨2⟩ q rfl rfl (by decide) hs hd
    (by rw [hbefore, hafter]; decide) rx 1 hrx hfree
  generalize ((process ⟨⟨3.0⟩, .contactUp ⟨1⟩ ⟨2⟩⟩ q).run s).2 = s' at hafter hthrough hle
  have hall : (pendingKinds s'.queue).countP (fun k => k.isHeadedFor ⟨2⟩ && s'.passesThrough k) =
      (pendingKinds s'.queue).countP (·.isHeadedFor ⟨2⟩) :=
    List.countP_congr fun k hk => by rw [hthrough k hk, Bool.and_true]
  rw [hall, hafter] at hle
  exact absurd hle (by decide)

end Simulator

end OppNet
