import OppNet.Proofs.Packet.Hops
import OppNet.Proofs.Simulator.Visit

/-!
# OppNet.Proofs.Simulator.Provenance

What the hops of a packet say about where it was created.

* `Traced n p`: the packet `p` at the node `n` was created there, or has been through its source.
  Everything that can happen to a node keeps this (`Touched.traced`).
* `counts_as_relayed_iff`: the packets that count as relayed are those of other nodes, and those
  that were created here and have come back.
-/

namespace OppNet

/-- Created at this node, or passed on by the node that created it. -/
structure Packet.Traced (n : NodeId) (p : Packet) : Prop where
  created : p.hops = 0 → p.source = n ∧ p.previousHops = []
  passed : 0 < p.hops → p.source ∈ p.previousHops

namespace Packet.Traced

variable {n m : NodeId} {p q : Packet}

theorem generate (id : PacketId) (n destination : NodeId) (now : Time) :
    Traced n (.generate id n destination now) :=
  ⟨fun _ => ⟨rfl, rfl⟩, nofun⟩

/-- A node adds itself to the hops of what it passes on. -/
theorem relayedBy (h : Traced m p) (n : NodeId) : Traced n (p.relayedBy m) := by
  refine ⟨nofun, fun _ => ?_⟩
  change p.source ∈ appendNew m p.previousHops
  rw [mem_appendNew]
  by_cases hz : p.hops = 0
  · exact .inl (h.created hz).1
  · exact .inr (h.passed (by omega))

theorem congr (h : Traced n q) (hs : p.Same q) : Traced n p := by
  have hsource : p.source = q.source := congrArg (·.2.1) hs.route
  refine ⟨fun hz => ?_, fun hpos => ?_⟩
  · rw [hsource, hs.previousHops]
    exact h.created (hs.hops.symm.trans hz)
  · rw [hsource, hs.previousHops]
    exact h.passed (hs.hops ▸ hpos)

theorem isRelayed_iff (h : Traced n p) :
    p.isRelayed = true ↔ p.source ≠ n ∨ n ∈ p.previousHops := by
  rw [isRelayed, decide_eq_true_eq]
  constructor
  · intro hpos
    by_cases hs : p.source = n
    · exact .inr (hs ▸ h.passed hpos)
    · exact .inl hs
  · intro hcame
    apply Nat.pos_of_ne_zero
    intro hz
    obtain ⟨hs, hp⟩ := h.created hz
    rcases hcame with hne | hmem
    · exact hne hs
    · rw [hp] at hmem
      cases hmem

end Packet.Traced

namespace Simulator

variable {k : EventKind} {n : NodeId} {node node' : Node} {s : Simulator} {scenario : Scenario}
  {trace : Trace}

/-- The packets of a node are traced. -/
def Traces (n : NodeId) (node : Node) : Prop := ∀ p ∈ node.buffer.livePackets, p.Traced n

theorem Changed.traced (hs : ∀ m tx, s.node? m = some tx → Traces m tx) (h : Traces n node)
    (hc : Changed k s n node node') : Traces n node' := by
  intro p hp
  rcases hc.origin hp with ⟨q, hq, hsame⟩ | ⟨sender, tx, q, htx, hq, hsame⟩ |
    ⟨now, id, destination, _, hsame⟩
  · exact (h q hq).congr hsame
  · exact ((hs sender tx htx q hq).relayedBy n).congr hsame
  · exact (Packet.Traced.generate id n destination now).congr hsame

theorem Reachable.traced (h : Reachable scenario trace s) :
    ∀ n node, s.node? n = some node → Traces n node := by
  refine h.nodes (fun _ _ hp => nomatch hp) fun k s hs n node node' hnode hc p hp => ?_
  exact hc.traced hs hnode p hp

/--
A packet counts as relayed, as an entry and where evictions are booked, exactly if it was created at
another node or has been passed on by this one: a packet that comes back to its source is among
them.
-/
theorem counts_as_relayed_iff (h : Reachable scenario trace s) (hn : s.node? n = some node) :
    (∀ p ∈ node.buffer.livePackets,
      (p.isRelayed = true ↔ p.source ≠ n ∨ n ∈ p.previousHops)) ∧
    (∀ e ∈ node.buffer.entries,
      (e.isRelayed = true ↔ ∀ p ∈ e.livePackets, p.source ≠ n ∨ n ∈ p.previousHops)) ∧
    ∀ e ∈ node.buffer.entries, ∀ t : EvictionTally, t.add e =
      if ∀ p ∈ e.livePackets, p.source ≠ n ∨ n ∈ p.previousHops then
        { t with relayed := t.relayed + 1 }
      else { t with source := t.source + 1 } := by
  have hp : ∀ p ∈ node.buffer.livePackets,
      (p.isRelayed = true ↔ p.source ≠ n ∨ n ∈ p.previousHops) :=
    fun p hp => (h.traced n node hn p hp).isRelayed_iff
  have he : ∀ e ∈ node.buffer.entries,
      (e.isRelayed = true ↔ ∀ p ∈ e.livePackets, p.source ≠ n ∨ n ∈ p.previousHops) := by
    intro e he
    rw [Entry.isRelayed, List.all_eq_true]
    exact forall₂_congr fun p hpe => hp p (List.mem_flatMap.mpr ⟨e, he, hpe⟩)
  refine ⟨hp, he, fun e hmem t => ?_⟩
  simp only [EvictionTally.add, he e hmem]

/-- A packet that is back at its source, which evicts it before the end of the run. -/
theorem exists_returned : ∃ s node p, Reachable Scenario.trio Trace.returning s ∧
    s.node? ⟨0⟩ = some node ∧ p ∈ node.buffer.livePackets ∧ p.source = ⟨0⟩ ∧ 0 < p.hops ∧
    ∃ r, (run.run s).1 = .ok r ∧ r.droppedSource = 0 ∧ r.droppedRelayed = 1 := by
  obtain ⟨s, hs, hp⟩ := exists_reachable Scenario.trio Trace.returning 12
    (fun s => (s.node? ⟨0⟩).any (fun node => node.buffer.livePackets.any fun p =>
        decide (p.source = ⟨0⟩ ∧ 0 < p.hops)) &&
      match (run.run s).1 with
      | .ok r => decide (r.droppedSource = 0 ∧ r.droppedRelayed = 1)
      | .error _ => false) (by decide +kernel)
  obtain ⟨hnode, hrun⟩ := Bool.and_eq_true_iff.mp hp
  obtain ⟨node, hn, hany⟩ := (Option.any_eq_true _ _).mp hnode
  obtain ⟨p, hlive, hback⟩ := List.any_eq_true.mp hany
  obtain ⟨hsource, hhops⟩ := of_decide_eq_true hback
  cases hr : (run.run s).1 with
  | error f =>
    rw [hr] at hrun
    cases hrun
  | ok r =>
    rw [hr] at hrun
    exact ⟨s, node, p, hs, hn, hlive, hsource, hhops, r, hr, of_decide_eq_true hrun⟩

/-- A packet at the node that created it is taken for a relayed one, and evicted as such. -/
theorem returned_counts_as_relayed : ∃ s node p, Reachable Scenario.trio Trace.returning s ∧
    s.node? ⟨0⟩ = some node ∧ p ∈ node.buffer.livePackets ∧ p.source = ⟨0⟩ ∧
    p.isRelayed = true ∧
    ∃ r, (run.run s).1 = .ok r ∧ r.droppedSource = 0 ∧ r.droppedRelayed = 1 := by
  obtain ⟨s, node, p, hs, hn, hlive, hsource, hhops, hrun⟩ := exists_returned
  exact ⟨s, node, p, hs, hn, hlive, hsource, decide_eq_true hhops, hrun⟩

/-- It has passed that packet on before. -/
theorem returned_was_passed_on : ∃ s node p, Reachable Scenario.trio Trace.returning s ∧
    s.node? ⟨0⟩ = some node ∧ p ∈ node.buffer.livePackets ∧ p.source = ⟨0⟩ ∧
    (p.isRelayed = true ↔ p.source ≠ ⟨0⟩ ∨ ⟨0⟩ ∈ p.previousHops) ∧ ⟨0⟩ ∈ p.previousHops := by
  obtain ⟨s, node, p, hs, hn, hlive, hsource, hhops, _⟩ := exists_returned
  have hiff := (counts_as_relayed_iff hs hn).1 p hlive
  have hpassed := (hiff.mp (decide_eq_true hhops)).resolve_left (not_not_intro hsource)
  exact ⟨s, node, p, hs, hn, hlive, hsource, hiff, hpassed⟩

end Simulator

end OppNet
