import OppNet.Proofs.Buffer.Contents
import OppNet.Proofs.Simulator.Upheld

/-!
# OppNet.Proofs.Simulator.Visit

An event changes a network node after node, and there are few things that can happen to a node.
What all of these keep holds throughout every run.

* `Touched s n node node'`: what can happen to a node during an event that began in `s`, apart from
  births and deliveries, which are counted. `Changed k s n node node'`: these as well, during an
  event of kind `k`.
* `Changed.origin`: where the packets of a changed node come from.
* `Course k s s'`: the networks that come about in this way. `Course.process`: every event takes
  such a course.
* `Reachable.nodes`: the induction over runs for a property of single nodes.
-/

namespace OppNet

/-- A packet as it was, apart from what is noted about handing it on. -/
structure Packet.Same (p q : Packet) : Prop where
  route : p.route = q.route
  hops : p.hops = q.hops
  previousHops : p.previousHops = q.previousHops

namespace Simulator

variable {now : Time} {k : EventKind} {n : NodeId} {node node' : Node} {s s₀ s' : Simulator}
  {scenario : Scenario} {trace : Trace}

/-! ### Changes of a node -/

/-- What can happen to a node during an event that began in `s`, without being counted. -/
inductive Touched (s : Simulator) (n : NodeId) (node : Node) : Node → Prop
  | swept (now : Time) : Touched s n node (node.sweep now)
  | met (other : NodeId) : Touched s n node (node.recordEncounter other)
  /-- A packet that was delivered before is delivered again. -/
  | again {id : PacketId} (hold : node.hasReceived id = true) : Touched s n node (node.deliver id).2
  | relayed (now : Time) {sender : NodeId} {tx : Node} {p : Packet}
    (htx : s.node? sender = some tx) (hp : p ∈ tx.buffer.livePackets) :
    Touched s n node (node.inserting now (p.relayedBy sender))
  | forwarded (now : Time) (id : PacketId) : Touched s n node (node.marking now id)
  | handed (now : Time) (id : PacketId) (other : NodeId) :
    Touched s n node (node.handing now id other)
  | removed (now : Time) (id : PacketId) : Touched s n node
    { node with buffer := (node.buffer.remove now id).2 }

/-- What can happen to a node during an event of kind `k` that began in `s`. -/
inductive Changed (k : EventKind) (s : Simulator) (n : NodeId) (node : Node) : Node → Prop
  | touched {node' : Node} (h : Touched s n node node') : Changed k s n node node'
  | born (now : Time) {id : PacketId} {destination : NodeId}
    (hk : k = .generation n destination id true) :
    Changed k s n node (node.inserting now (.generate id n destination now))
  | delivered {sender : NodeId} {tx : Node} {p : Packet} (htx : s.node? sender = some tx)
    (hp : p ∈ tx.buffer.livePackets) (hd : p.destination = n) :
    Changed k s n node (node.deliver p.id).2

theorem Touched.origin {p : Packet} (ht : Touched s n node node')
    (hp : p ∈ node'.buffer.livePackets) : (∃ q ∈ node.buffer.livePackets, p.Same q) ∨
      ∃ sender tx q, s.node? sender = some tx ∧ q ∈ tx.buffer.livePackets ∧
        p.Same (q.relayedBy sender) := by
  cases ht with
  | swept now => exact .inl ⟨p, Buffer.mem_of_mem_livePackets_sweep hp, rfl, rfl, rfl⟩
  | met other => exact .inl ⟨p, hp, rfl, rfl, rfl⟩
  | again _ => exact .inl ⟨p, hp, rfl, rfl, rfl⟩
  | @relayed now sender tx q htx hq =>
    rcases Buffer.mem_livePackets_insert hp with hp | ⟨-, rfl⟩
    · exact .inl ⟨p, hp, rfl, rfl, rfl⟩
    · exact .inr ⟨sender, tx, q, htx, hq, rfl, rfl, rfl⟩
  | forwarded now id =>
    rcases Buffer.mem_livePackets_modify hp with hp | ⟨q, hq, -, _, hf⟩
    · exact .inl ⟨p, hp, rfl, rfl, rfl⟩
    · cases hf
      exact .inl ⟨q, hq, rfl, rfl, rfl⟩
  | handed now id other =>
    rcases Buffer.mem_livePackets_modify hp with hp | ⟨q, hq, -, _, hf⟩
    · exact .inl ⟨p, hp, rfl, rfl, rfl⟩
    · cases hf
      exact .inl ⟨q, hq, rfl, rfl, rfl⟩
  | removed now id => exact .inl ⟨p, Buffer.mem_livePackets_remove hp, rfl, rfl, rfl⟩

/-- What a node has was there before, was born here, or another node had it when the event began. -/
theorem Changed.origin {p : Packet} (hc : Changed k s n node node')
    (hp : p ∈ node'.buffer.livePackets) : (∃ q ∈ node.buffer.livePackets, p.Same q) ∨
      (∃ sender tx q, s.node? sender = some tx ∧ q ∈ tx.buffer.livePackets ∧
        p.Same (q.relayedBy sender)) ∨
      ∃ now id destination, k = .generation n destination id true ∧
        p.Same (.generate id n destination now) := by
  cases hc with
  | touched ht => exact (ht.origin hp).imp_right .inl
  | @born now id destination hk =>
    rcases Buffer.mem_livePackets_insert hp with hp | ⟨-, rfl⟩
    · exact .inl ⟨p, hp, rfl, rfl, rfl⟩
    · exact .inr (.inr ⟨now, id, destination, hk, rfl, rfl, rfl⟩)
  | delivered _ _ _ => exact .inl ⟨p, hp, rfl, rfl, rfl⟩

/-! ### Courses -/

/--
The networks that come from `s` by what happens to one node after another. Births are counted
together with what they do to a node, and deliveries together with their transfers.
-/
inductive Course (k : EventKind) (s : Simulator) : Simulator → Prop
  | refl : Course k s s
  | aside {s' s'' : Simulator} (h : Course k s s') (hn : s''.nodes = s'.nodes)
    (ha : s''.accounts = s'.accounts) : Course k s s''
  | touch {s' : Simulator} {n : NodeId} {node node' : Node} (h : Course k s s')
    (hn : s'.node? n = some node) (ht : Touched s n node node') : Course k s (s'.putNode n node')
  | sent {s' : Simulator} (h : Course k s s') : Course k s s'.withTransfer
  | born {s' : Simulator} {n destination : NodeId} {id : PacketId} {node : Node} (now : Time)
    (h : Course k s s') (hk : k = .generation n destination id true) (hn : s'.node? n = some node) :
    Course k s (s'.putNode n (node.inserting now (.generate id n destination now))).withBirth
  | delivered {s' : Simulator} {n sender : NodeId} {node tx : Node} {p : Packet} (seconds : Float)
    (h : Course k s s') (hn : s'.node? n = some node) (htx : s.node? sender = some tx)
    (hp : p ∈ tx.buffer.livePackets) (hd : p.destination = n)
    (hnew : node.hasReceived p.id = false) :
    Course k s ((s'.withTransfer.putNode n (node.deliver p.id).2).withDelivery seconds)

/-- What holds of all nodes holds of them after the change of one that has it as well. -/
theorem forall_putNode {P : NodeId → Node → Prop} (hs : ∀ n node, s.node? n = some node → P n node)
    (hn : s.node? n = some node) {node' : Node} (hP : P n (silenced node')) :
    ∀ m other, (s.putNode n node').node? m = some other → P m other := by
  intro m other hm
  by_cases hmn : m = n
  · subst hmn
    rw [node?_putNode_self (index_lt_of_node? hn)] at hm
    cases hm
    exact hP
  · rw [node?_putNode_ne hmn] at hm
    exact hs m other hm

/-- What everything that can happen to a node keeps is kept along a course. -/
theorem Course.nodes {P : NodeId → Node → Prop} (hs : ∀ n node, s.node? n = some node → P n node)
    (hP : ∀ n node node', P n node → Changed k s n node node' → P n (silenced node'))
    (h : Course k s s') : ∀ n node, s'.node? n = some node → P n node := by
  induction h with
  | refl => exact hs
  | aside _ hn _ ih =>
    intro n node hnode
    apply ih
    rwa [node?, hn] at hnode
  | touch _ hn ht ih => exact forall_putNode ih hn (hP _ _ _ (ih _ _ hn) (.touched ht))
  | sent _ ih => exact ih
  | born now _ hk hn ih => exact forall_putNode ih hn (hP _ _ _ (ih _ _ hn) (.born now hk))
  | delivered _ _ hn htx hp hd _ ih =>
    exact forall_putNode ih hn (hP _ _ _ (ih _ _ hn) (.delivered htx hp hd))

/-! ### What an event does -/

theorem upheld_course (now : Time) (k : EventKind) (s₀ : Simulator) :
    Upheld now k s₀ (Course k s₀) where
  aside := .aside
  swept h hn := h.touch hn (.swept now)
  met other h _ hn := h.touch hn (.met other)
  again h hn hold := h.touch hn (.again hold)
  relayed h hn htx hp := h.touch hn (.relayed now htx hp)
  handed other h hn _ := (h.touch hn (.forwarded now _)).touch
    (node?_putNode_self (index_lt_of_node? hn) _) (.handed now _ other)
  removed id h hn := h.touch hn (.removed now id)
  sent h _ _ := h.sent
  born h hk hn := h.born now hk hn
  delivered h hn htx hp hd hnew :=
    h.delivered _ hn htx (Buffer.mem_of_mem_livePackets_sweep hp) hd hnew

/-- Every event changes one node after another, whether it fails or not. -/
theorem Course.process (e : Event) (q : Event.Queue) (s : Simulator) :
    Course e.kind s ((process e q).run s).2 :=
  (upheld_course e.time e.kind s).process q .refl

theorem Course.sweepAll (now : Time) (h : Course k s₀ s) : Course k s₀ (s.sweepAll now) :=
  (upheld_course now k s₀).sweepAll h

/-! ### Whole runs -/

/--
What the new nodes have, and every event keeps at every node, all nodes have throughout a run. What
happens to a node may depend on what the other ones had when the event began.
-/
theorem Reachable.nodes {P : NodeId → Node → Prop}
    (new : ∀ n, P n (Node.new n scenario.buffer scenario.policies))
    (step : ∀ k s, (∀ n node, s.node? n = some node → P n node) → ∀ n node node', P n node →
      Changed k s n node node' → P n (silenced node')) (h : Reachable scenario trace s) :
    ∀ n node, s.node? n = some node → P n node := by
  induction h with
  | start h =>
    intro n node hn
    rw [(fresh_of_ofTrace h).nodes n node hn]
    exact new n
  | @event s e q _ hd ih => exact (Course.process e q s).nodes ih (step e.kind s ih)
  | @finish s _ _ ih => exact (Course.refl.sweepAll s.stop).nodes ih (step .checkpoint s ih)

end Simulator

end OppNet
