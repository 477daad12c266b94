import Mathlib.Algebra.GroupWithZero.Nat
import OppNet.Proofs.Simulator.Action

/-!
# OppNet.Proofs.Simulator.Quiet

Changes of a network that move no packet.

* `Quiet now s s'`: every node keeps what it had, expiry up to `now` apart, and nothing else has
  changed but the journal and the counts of encounters. Sweeps are quiet (`quiet_sweepNode`,
  `quiet_sweepAll`), and what they make of a node is `cleared`.
* `total f s`: a number added up over all nodes. Quiet changes keep a total of what every node
  keeps (`Quiet.total`), and `total_putNode` says what the change of one node does to it.
-/

namespace OppNet

/-- A node after something that moved no packet into it or out of it. -/
structure Node.Kept (now : Time) (node node' : Node) : Prop where
  id : node'.id = node.id
  scheduling : node'.scheduling = node.scheduling
  admission : node'.admission = node.admission
  received : node'.received = node.received
  buffer : Buffer.Kept now node.buffer node'.buffer

namespace Node.Kept

variable {now : Time} {node node' node'' : Node}

theorem refl (now : Time) (node : Node) : Node.Kept now node node :=
  ⟨rfl, rfl, rfl, rfl, .refl now _⟩

theorem trans (h : Node.Kept now node node') (h' : Node.Kept now node' node'') :
    Node.Kept now node node'' :=
  ⟨h'.id.trans h.id, h'.scheduling.trans h.scheduling, h'.admission.trans h.admission,
    h'.received.trans h.received, h.buffer.trans h'.buffer⟩

end Node.Kept

namespace Simulator

variable {now : Time}

theorem kept_notes (now : Time) (b : Buffer) (notes : List Buffer.Note) :
    Buffer.Kept now b { b with notes := notes } :=
  ⟨fun _ h => h, Buffer.liveIds_sweep_congr rfl rfl, fun h => h, rfl, rfl, rfl, rfl, rfl⟩

theorem kept_silenced (now : Time) (node : Node) : Node.Kept now node (silenced node) :=
  ⟨rfl, rfl, rfl, rfl, kept_notes now _ _⟩

/-- Every node keeps what it had, and what is under way stays under way. -/
structure Quiet (now : Time) (s s' : Simulator) : Prop where
  protocol : s'.protocol = s.protocol
  stop : s'.stop = s.stop
  queue : s'.queue = s.queue
  links : s'.links = s.links
  inFlight : s'.inFlight = s.inFlight
  latency : s'.latency = s.latency
  traffic : s'.traffic = s.traffic
  size : s'.nodes.size = s.nodes.size
  nodes : ∀ n node, s.node? n = some node → ∃ node', s'.node? n = some node' ∧
    Node.Kept now node node'

namespace Quiet

variable {s s' s'' : Simulator}

theorem refl (now : Time) (s : Simulator) : Quiet now s s :=
  ⟨rfl, rfl, rfl, rfl, rfl, rfl, rfl, rfl, fun _ node h => ⟨node, h, .refl now node⟩⟩

theorem trans (h : Quiet now s s') (h' : Quiet now s' s'') : Quiet now s s'' := by
  refine ⟨h'.protocol.trans h.protocol, h'.stop.trans h.stop, h'.queue.trans h.queue,
    h'.links.trans h.links, h'.inFlight.trans h.inFlight, h'.latency.trans h.latency,
    h'.traffic.trans h.traffic, h'.size.trans h.size, fun n node hn => ?_⟩
  obtain ⟨node', hn', hk⟩ := h.nodes n node hn
  obtain ⟨node'', hn'', hk'⟩ := h'.nodes n node' hn'
  exact ⟨node'', hn'', hk.trans hk'⟩

theorem node?_eq_none (h : Quiet now s s') {n : NodeId} : s'.node? n = none ↔ s.node? n = none := by
  simp only [node?, Array.getElem?_eq_none_iff, h.size]

theorem back (h : Quiet now s s') {n : NodeId} {node' : Node} (hn : s'.node? n = some node') :
    ∃ node, s.node? n = some node ∧ Node.Kept now node node' := by
  cases hs : s.node? n with
  | none =>
    rw [h.node?_eq_none.mpr hs] at hn
    cases hn
  | some node =>
    obtain ⟨node'', hn'', hk⟩ := h.nodes n node hs
    obtain rfl : node' = node'' := Option.some_inj.mp (hn.symm.trans hn'')
    exact ⟨node, rfl, hk⟩

theorem journal (s : Simulator) (lines : List JournalLine) :
    Quiet now s { s with journal := lines } :=
  ⟨rfl, rfl, rfl, rfl, rfl, rfl, rfl, rfl, fun _ node h => ⟨node, h, .refl now node⟩⟩

theorem putNode {n : NodeId} {node node' : Node} (h : s.node? n = some node)
    (hk : Node.Kept now node node') : Quiet now s (s.putNode n node') := by
  refine ⟨rfl, rfl, rfl, rfl, rfl, rfl, rfl, size_putNode n node' s, fun m other hm => ?_⟩
  by_cases hmn : m = n
  · subst hmn
    obtain rfl : other = node := Option.some_inj.mp (hm.symm.trans h)
    exact ⟨_, node?_putNode_self (index_lt_of_node? h) _, hk.trans (kept_silenced now node')⟩
  · exact ⟨other, by rw [node?_putNode_ne hmn]; exact hm, .refl now other⟩

end Quiet

/-! ### Sweeps -/

theorem kept_node_sweep (now : Time) (node : Node) : Node.Kept now node (node.sweep now) :=
  ⟨rfl, rfl, rfl, rfl, Buffer.kept_sweep now node.buffer⟩

theorem sweepNode_run_none {n : NodeId} {s : Simulator} (now : Time) (h : s.node? n = none) :
    (sweepNode now n).run s = (.error (.unknownNode n), s) :=
  visit_run_none h _

theorem sweepNode_run_some {n : NodeId} {node : Node} {s : Simulator} (now : Time)
    (h : s.node? n = some node) :
    (sweepNode now n).run s = (.ok (), s.putNode n (node.sweep now)) :=
  visit_run_some h _

theorem quiet_sweepNode {n : NodeId} {node : Node} {s : Simulator} (now : Time)
    (h : s.node? n = some node) : Quiet now s (s.putNode n (node.sweep now)) :=
  .putNode h (kept_node_sweep now node)

/-- A node that was swept and whose notes were then taken from it. -/
def cleared (now : Time) (node : Node) : Node := silenced (node.sweep now)

/-- What has outlived a sweep outlives the next one at the same time. -/
theorem sweep_cleared (now : Time) (node : Node) :
    (cleared now node).sweep now = cleared now node := by
  have hbuffer : (cleared now node).buffer.sweep now = (cleared now node).buffer := by
    refine Buffer.sweep_of_fresh fun e he => ?_
    change e.expire now (node.buffer.sweep now).lifetime = .fresh
    rw [Buffer.lifetime_sweep]
    exact Buffer.expire_of_mem_sweep he
  rw [Node.sweep, hbuffer]

theorem cleared_cleared (now : Time) (node : Node) :
    cleared now (cleared now node) = cleared now node := by
  rw [cleared, sweep_cleared]
  rfl

theorem quiet_sweepAll (now : Time) (s : Simulator) : Quiet now s (s.sweepAll now) := by
  unfold sweepAll
  refine List.foldlRecOn _ _ (.refl now s) fun s₀ h₀ i _ => ?_
  cases hn : s₀.node? ⟨i⟩ with
  | none => exact h₀
  | some node => exact h₀.trans (quiet_sweepNode now hn)

/-! ### Totals over all nodes -/

def total (f : Node → Nat) (s : Simulator) : Nat := (s.nodes.toList.map f).sum

theorem total_add (f g : Node → Nat) (s : Simulator) :
    s.total (fun n => f n + g n) = s.total f + s.total g := by
  unfold total
  induction s.nodes.toList with
  | nil => rfl
  | cons n rest ih =>
    simp only [List.map_cons, List.sum_cons]
    omega

theorem total_congr {s : Simulator} {f g : Node → Nat}
    (h : ∀ n node, s.node? n = some node → f node = g node) : s.total f = s.total g := by
  unfold total
  congr 1
  refine List.map_congr_left fun node hmem => ?_
  obtain ⟨n, hn⟩ := exists_node? hmem
  exact h n node hn

theorem Quiet.total {s s' : Simulator} {f : Node → Nat} (h : Quiet now s s')
    (hf : ∀ node node', Node.Kept now node node' → f node' = f node) : s'.total f = s.total f := by
  unfold Simulator.total
  congr 1
  refine List.ext_getElem? fun i => ?_
  simp only [List.getElem?_map, Array.getElem?_toList]
  cases hn : s.node? ⟨i⟩ with
  | none =>
    have hn' := h.node?_eq_none.mpr hn
    rw [node?] at hn hn'
    rw [hn, hn']
  | some node =>
    obtain ⟨node', hn', hk⟩ := h.nodes _ _ hn
    rw [node?] at hn hn'
    rw [hn, hn', Option.map_some, Option.map_some, hf node node' hk]

theorem sum_set {xs : List Nat} {i x y : Nat} (h : xs[i]? = some x) :
    (xs.set i y).sum + x = xs.sum + y := by
  induction xs generalizing i with
  | nil => cases h
  | cons z rest ih =>
    cases i with
    | zero =>
      obtain rfl : z = x := by simpa using h
      rw [List.set_cons_zero, List.sum_cons, List.sum_cons]
      omega
    | succ i =>
      have := ih (i := i) (by simpa using h)
      rw [List.set_cons_succ, List.sum_cons, List.sum_cons]
      omega

/-- What the change of one node does to a total. -/
theorem total_putNode {n : NodeId} {node : Node} {s : Simulator} (f : Node → Nat)
    (h : s.node? n = some node) (node' : Node) :
    (s.putNode n node').total f + f node = s.total f + f (silenced node') := by
  unfold total
  have hset : (s.putNode n node').nodes.toList.map f =
      (s.nodes.toList.map f).set n.index (f (silenced node')) := by
    simp [putNode, silenced, List.map_set]
  rw [hset]
  refine sum_set ?_
  rw [List.getElem?_map, Array.getElem?_toList]
  change Option.map f (s.node? n) = _
  rw [h]
  rfl

end Simulator

end OppNet
