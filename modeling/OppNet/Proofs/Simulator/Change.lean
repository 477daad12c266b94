import OppNet.Proofs.Simulator.Quiet

/-!
# OppNet.Proofs.Simulator.Change

What an event may do to the nodes of a network, whatever else it does.

* `Advanced new s s'`: no node has come by a packet other than those that `new` names.
* `Tally s s' g d t i r`: by how much the totals have grown, of packets generated, delivered and
  transmitted, and of entries that the buffers of all nodes have inserted and removed.
* `Steady s s'`: nothing but nodes, totals of packets and journal has changed.

All of them compose, and a quiet change does none of these things.
-/

namespace OppNet

instance : Std.TransOrd Shipment :=
  inferInstanceAs
    (Std.TransCmp (compareLex (compareOn Shipment.receiver) (compareOn Shipment.packet)))

instance : Std.LawfulEqOrd Shipment where
  compare_self := (inferInstance : Std.ReflCmp
    (compareLex (compareOn Shipment.receiver) (compareOn Shipment.packet))).compare_self
  eq_of_compare {x y} h := by
    obtain ⟨hr, hp⟩ := Ordering.then_eq_eq.mp h
    cases x
    cases y
    rw [Shipment.mk.injEq]
    exact ⟨Std.LawfulEqCmp.eq_of_compare hr, Std.LawfulEqCmp.eq_of_compare hp⟩

/-- Every entry that was inserted is still there or was counted on its way out. -/
def Buffer.Balanced (b : Buffer) : Prop := b.account + b.counters.removed = b.counters.inserted

namespace Node

/-- A node after something that may have brought it the packets `new`. -/
structure Advanced (new : PacketId → Prop) (node node' : Node) : Prop where
  id : node'.id = node.id
  scheduling : node'.scheduling = node.scheduling
  admission : node'.admission = node.admission
  live : ∀ x ∈ node'.buffer.liveIds, x ∈ node.buffer.liveIds ∨ new x
  received : ∀ x, node'.hasReceived x = true → node.hasReceived x = true ∨ new x
  uncoded : node.buffer.Uncoded → node'.buffer.Uncoded
  balanced : node.buffer.Balanced → node'.buffer.Balanced

namespace Advanced

variable {now : Time} {new new' : PacketId → Prop} {node node' node'' : Node}

theorem trans (h : Advanced new node node') (h' : Advanced new' node' node'') :
    Advanced (fun x => new x ∨ new' x) node node'' where
  id := h'.id.trans h.id
  scheduling := h'.scheduling.trans h.scheduling
  admission := h'.admission.trans h.admission
  live x hx := by
    rcases h'.live x hx with hx | hx
    · exact (h.live x hx).imp_right .inl
    · exact .inr (.inr hx)
  received x hx := by
    rcases h'.received x hx with hx | hx
    · exact (h.received x hx).imp_right .inl
    · exact .inr (.inr hx)
  uncoded hu := h'.uncoded (h.uncoded hu)
  balanced hb := h'.balanced (h.balanced hb)

theorem mono (h : Advanced new node node') (hn : ∀ x, new x → new' x) :
    Advanced new' node node' where
  id := h.id
  scheduling := h.scheduling
  admission := h.admission
  live x hx := (h.live x hx).imp_right (hn x)
  received x hx := (h.received x hx).imp_right (hn x)
  uncoded := h.uncoded
  balanced := h.balanced

theorem of_kept (h : Node.Kept now node node') (new : PacketId → Prop) :
    Advanced new node node' where
  id := h.id
  scheduling := h.scheduling
  admission := h.admission
  live x hx := .inl (h.buffer.live x hx)
  received x hx := .inl (by rw [hasReceived, h.received] at hx; exact hx)
  uncoded := h.buffer.uncoded
  balanced hb := by
    unfold Buffer.Balanced at hb ⊢
    rw [h.buffer.account, h.buffer.removed, h.buffer.inserted]
    exact hb

theorem of_gained {id : PacketId} {b' : Buffer} (h : Buffer.Gained id node.buffer b') :
    Advanced (· = id) node { node with buffer := b' } where
  id := rfl
  scheduling := rfl
  admission := rfl
  live x hx := (h.live x hx).symm
  received _ hx := .inl hx
  uncoded := h.uncoded
  balanced hb := by
    unfold Buffer.Balanced at hb ⊢
    dsimp only
    rw [h.account, h.removed, h.inserted, ← hb]
    omega

theorem of_lost {b' : Buffer} (h : Buffer.Lost node.buffer b') (new : PacketId → Prop) :
    Advanced new node { node with buffer := b' } where
  id := rfl
  scheduling := rfl
  admission := rfl
  live x hx := .inl (h.live x hx)
  received _ hx := .inl hx
  uncoded := h.uncoded
  balanced hb := by
    have := h.account
    unfold Buffer.Balanced at hb ⊢
    dsimp only
    rw [h.removed, h.inserted, ← hb]
    omega

theorem deliver (id : PacketId) (node : Node) : Advanced (· = id) node (node.deliver id).2 where
  id := rfl
  scheduling := rfl
  admission := rfl
  live x hx := .inl hx
  received x hx := by
    change (node.received.insert id).contains x = true at hx
    rw [Std.TreeSet.contains_insert, Bool.or_eq_true, beq_iff_eq] at hx
    exact hx.symm.imp_right fun h => (Std.LawfulEqCmp.eq_of_compare h).symm
  uncoded := fun h => h
  balanced := fun h => h

theorem silenced (h : Advanced new node node') : Advanced new node (Simulator.silenced node') :=
  ⟨h.id, h.scheduling, h.admission, h.live, h.received, h.uncoded, h.balanced⟩

end Advanced

end Node

namespace Simulator

variable {now : Time} {s s' s'' : Simulator}

/-- No node has come by a packet other than the new ones. -/
structure Advanced (new : NodeId → PacketId → Prop) (s s' : Simulator) : Prop where
  size : s'.nodes.size = s.nodes.size
  nodes : ∀ n node, s.node? n = some node → ∃ node', s'.node? n = some node' ∧
    Node.Advanced (new n) node node'

/-- By how much the totals have grown. -/
structure Tally (s s' : Simulator) (generated delivered transmitted inserted removed : Nat) :
    Prop where
  generated : s'.traffic.generated = s.traffic.generated + generated
  delivered : s'.traffic.delivered = s.traffic.delivered + delivered
  transmitted : s'.traffic.transmitted = s.traffic.transmitted + transmitted
  inserted : s'.total (·.buffer.counters.inserted) =
    s.total (·.buffer.counters.inserted) + inserted
  removed : s'.total (·.buffer.counters.removed) = s.total (·.buffer.counters.removed) + removed

/-- The totals that do not tell of packets: events, contacts and transfers cut short. -/
def upkeep (s : Simulator) : Nat × Nat × Nat :=
  (s.traffic.events, s.traffic.contacts, s.traffic.aborted)

/-- Nothing but nodes, totals of packets and journal has changed. -/
structure Steady (s s' : Simulator) : Prop where
  protocol : s'.protocol = s.protocol
  stop : s'.stop = s.stop
  queue : s'.queue = s.queue
  links : s'.links = s.links
  inFlight : s'.inFlight = s.inFlight
  upkeep : s'.upkeep = s.upkeep

namespace Steady

theorem trans (h : Steady s s') (h' : Steady s' s'') : Steady s s'' :=
  ⟨h'.protocol.trans h.protocol, h'.stop.trans h.stop, h'.queue.trans h.queue,
    h'.links.trans h.links, h'.inFlight.trans h.inFlight, h'.upkeep.trans h.upkeep⟩

theorem of_quiet (h : Quiet now s s') : Steady s s' :=
  ⟨h.protocol, h.stop, h.queue, h.links, h.inFlight, by rw [Simulator.upkeep, h.traffic]; rfl⟩

theorem counted {f : Traffic → Traffic} (hf : (s.counted f).upkeep = s.upkeep) :
    Steady s (s.counted f) :=
  ⟨rfl, rfl, rfl, rfl, rfl, hf⟩

theorem putNode (n : NodeId) (node : Node) (s : Simulator) : Steady s (s.putNode n node) :=
  ⟨rfl, rfl, rfl, rfl, rfl, rfl⟩

end Steady

namespace Advanced

variable {new new' : NodeId → PacketId → Prop}

theorem trans (h : Advanced new s s') (h' : Advanced new' s' s'') :
    Advanced (fun n x => new n x ∨ new' n x) s s'' := by
  refine ⟨h'.size.trans h.size, fun n node hn => ?_⟩
  obtain ⟨node', hn', ha⟩ := h.nodes n node hn
  obtain ⟨node'', hn'', ha'⟩ := h'.nodes n node' hn'
  exact ⟨node'', hn'', ha.trans ha'⟩

theorem mono (h : Advanced new s s') (hn : ∀ n x, new n x → new' n x) : Advanced new' s s' := by
  refine ⟨h.size, fun n node hnode => ?_⟩
  obtain ⟨node', hn', ha⟩ := h.nodes n node hnode
  exact ⟨node', hn', ha.mono (hn n)⟩

theorem of_quiet (h : Quiet now s s') (new : NodeId → PacketId → Prop) : Advanced new s s' := by
  refine ⟨h.size, fun n node hn => ?_⟩
  obtain ⟨node', hn', hk⟩ := h.nodes n node hn
  exact ⟨node', hn', .of_kept hk _⟩

/-- What is not kept by the nodes makes no difference. -/
theorem of_nodes_eq (h : s'.nodes = s.nodes) (new : NodeId → PacketId → Prop) :
    Advanced new s s' := by
  refine ⟨by rw [h], fun n node hn => ⟨node, ?_, .of_kept (.refl Time.start node) _⟩⟩
  rw [node?] at hn ⊢
  rw [h]
  exact hn

theorem counted (f : Traffic → Traffic) (s : Simulator) (new : NodeId → PacketId → Prop) :
    Advanced new s (s.counted f) :=
  .of_nodes_eq (by rfl) new

theorem putNode {n : NodeId} {node node' : Node} {new : PacketId → Prop}
    (h : s.node? n = some node) (ha : Node.Advanced new node node') :
    Advanced (fun m x => m = n ∧ new x) s (s.putNode n node') := by
  refine ⟨size_putNode n node' s, fun m other hm => ?_⟩
  by_cases hmn : m = n
  · subst hmn
    obtain rfl : other = node := Option.some_inj.mp (hm.symm.trans h)
    exact ⟨_, node?_putNode_self (index_lt_of_node? h) _,
      ha.silenced.mono fun _ hx => ⟨rfl, hx⟩⟩
  · exact ⟨other, by rw [node?_putNode_ne hmn]; exact hm, .of_kept (.refl Time.start other) _⟩

theorem then_same (h : Advanced new s s') (h' : Advanced (fun _ _ => False) s' s'') :
    Advanced new s s'' :=
  (h.trans h').mono fun _ _ hx => hx.resolve_right id

theorem same_nodes (h : Advanced new s s') (hn : s''.nodes = s'.nodes) : Advanced new s s'' :=
  h.then_same (.of_nodes_eq hn _)

theorem after_quiet (hq : Quiet now s s') (h : Advanced new s' s'') : Advanced new s s'' :=
  ((of_quiet hq fun _ _ => False).trans h).mono fun _ _ hx => hx.resolve_left id

theorem node?_eq_none (h : Advanced new s s') {n : NodeId} :
    s'.node? n = none ↔ s.node? n = none := by
  simp only [node?, Array.getElem?_eq_none_iff, h.size]

theorem back (h : Advanced new s s') {n : NodeId} {node' : Node} (hn : s'.node? n = some node') :
    ∃ node, s.node? n = some node ∧ Node.Advanced (new n) node node' := by
  cases hs : s.node? n with
  | none =>
    rw [h.node?_eq_none.mpr hs] at hn
    cases hn
  | some node =>
    obtain ⟨node'', hn'', ha⟩ := h.nodes n node hs
    obtain rfl : node' = node'' := Option.some_inj.mp (hn.symm.trans hn'')
    exact ⟨node, rfl, ha⟩

end Advanced

namespace Tally

variable {g d t i r g' d' t' i' r' : Nat}

theorem trans (h : Tally s s' g d t i r) (h' : Tally s' s'' g' d' t' i' r') :
    Tally s s'' (g + g') (d + d') (t + t') (i + i') (r + r') where
  generated := by rw [h'.generated, h.generated, Nat.add_assoc]
  delivered := by rw [h'.delivered, h.delivered, Nat.add_assoc]
  transmitted := by rw [h'.transmitted, h.transmitted, Nat.add_assoc]
  inserted := by rw [h'.inserted, h.inserted, Nat.add_assoc]
  removed := by rw [h'.removed, h.removed, Nat.add_assoc]

theorem of_quiet (h : Quiet now s s') : Tally s s' 0 0 0 0 0 where
  generated := by rw [h.traffic]; rfl
  delivered := by rw [h.traffic]; rfl
  transmitted := by rw [h.traffic]; rfl
  inserted := h.total fun _ _ hk => hk.buffer.inserted
  removed := h.total fun _ _ hk => hk.buffer.removed

theorem after_quiet (hq : Quiet now s s') (h : Tally s' s'' g d t i r) : Tally s s'' g d t i r := by
  have := (of_quiet hq).trans h
  simpa only [Nat.zero_add] using this

theorem of_nodes_eq (h : s'.nodes = s.nodes)
    (hg : s'.traffic.generated = s.traffic.generated + g)
    (hd : s'.traffic.delivered = s.traffic.delivered + d)
    (ht : s'.traffic.transmitted = s.traffic.transmitted + t) : Tally s s' g d t 0 0 where
  generated := hg
  delivered := hd
  transmitted := ht
  inserted := by unfold total; rw [h]; rfl
  removed := by unfold total; rw [h]; rfl

theorem counted {f : Traffic → Traffic}
    (hg : (f s.traffic).generated = s.traffic.generated + g)
    (hd : (f s.traffic).delivered = s.traffic.delivered + d)
    (ht : (f s.traffic).transmitted = s.traffic.transmitted + t) :
    Tally s (s.counted f) g d t 0 0 :=
  .of_nodes_eq rfl hg hd ht

theorem putNode {n : NodeId} {node node' : Node} (h : s.node? n = some node)
    (hi : node'.buffer.counters.inserted = node.buffer.counters.inserted + i)
    (hr : node'.buffer.counters.removed = node.buffer.counters.removed + r) :
    Tally s (s.putNode n node') 0 0 0 i r where
  generated := rfl
  delivered := rfl
  transmitted := rfl
  inserted := by
    have := total_putNode (·.buffer.counters.inserted) h node'
    simp only [silenced, hi] at this
    omega
  removed := by
    have := total_putNode (·.buffer.counters.removed) h node'
    simp only [silenced, hr] at this
    omega

end Tally

end Simulator

end OppNet
