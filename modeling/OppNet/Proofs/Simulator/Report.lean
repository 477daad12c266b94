import OppNet.Proofs.Buffer.Books
import OppNet.Proofs.Simulator.Visit

/-!
# OppNet.Proofs.Simulator.Report

The books of the buffers in a network, and what a run reports of them.

* `Changed.perform`: what happens to a node is a request to its buffer, or leaves the buffer alone.
* `Reachable.booked`: the books of every node agree throughout a run.
* `books_agree`: the books of a buffer after any requests, and the totals of every report.
-/

namespace OppNet.Simulator

open Buffer (Booked)

variable {k : EventKind} {n : NodeId} {node node' : Node} {s : Simulator} {scenario : Scenario}
  {trace : Trace}

theorem Touched.perform (ht : Touched s n node node') : node'.buffer = node.buffer ∨
    ∃ now r, Buffer.Request.isCompact r = false ∧ node'.buffer = (node.buffer.perform now r).2 := by
  cases ht with
  | swept now => exact .inr ⟨now, .removeExpired, rfl, rfl⟩
  | met other => exact .inl rfl
  | again _ => exact .inl rfl
  | @relayed now sender tx p htx hp => exact .inr ⟨now, .insert (p.relayedBy sender), rfl, rfl⟩
  | forwarded now id => exact .inr ⟨now, .markForwarded id, rfl, rfl⟩
  | handed now id other => exact .inr ⟨now, .addForwarder id other, rfl, rfl⟩
  | removed now id => exact .inr ⟨now, .remove id, rfl, rfl⟩

theorem Changed.perform (hc : Changed k s n node node') : node'.buffer = node.buffer ∨
    ∃ now r, Buffer.Request.isCompact r = false ∧ node'.buffer = (node.buffer.perform now r).2 := by
  cases hc with
  | touched ht => exact ht.perform
  | @born now id destination _ =>
    exact .inr ⟨now, .insert (.generate id n destination now), rfl, rfl⟩
  | delivered _ _ _ => exact .inl rfl

theorem Changed.booked {recording : Bool} (h : Booked recording 0 node.buffer)
    (hc : Changed k s n node node') : Booked recording 0 node'.buffer := by
  rcases hc.perform with he | ⟨now, r, hr, he⟩
  · rw [he]
    exact h
  · have hnext := h.performed (Buffer.performed_perform now node.buffer r)
    rw [Buffer.codedBy_of_not_compact hr] at hnext
    rw [he]
    exact hnext

/-- The books of every node agree, and nothing in a network makes pairs of its entries. -/
theorem Reachable.booked (h : Reachable scenario trace s) (n : NodeId) (node : Node)
    (hn : s.node? n = some node) : Booked scenario.buffer.recording 0 node.buffer := by
  refine h.nodes (P := fun _ node => Booked scenario.buffer.recording 0 node.buffer)
    (fun _ => Buffer.booked_new _ _ _ _) (fun k s _ n node node' hnode hc => ?_) n node hn
  have hnext := hc.booked hnode
  exact ⟨hnext.entries, hnext.evictions, hnext.history.congr rfl rfl⟩

/-! ### Reports -/

/-- All drops of a report are split by where the packets were created. -/
def Split (r : Report) : Prop := r.dropped = r.droppedSource + r.droppedRelayed

theorem split_addNode {r : Report} (h : Split r)
    (hn : node.buffer.evictions.total = node.buffer.counters.dropped) : Split (addNode r node) := by
  unfold Split EvictionTally.total at *
  simp only [addNode]
  omega

theorem Reachable.split_report (h : Reachable scenario trace s) : Split s.report := by
  have hstart : Split { toTraffic := s.traffic } := rfl
  have hnodes : Split (s.nodes.foldl addNode { toTraffic := s.traffic }) := by
    refine Array.foldl_induction (fun _ r => Split r) hstart fun i r hr => ?_
    have hn : s.node? ⟨i⟩ = some s.nodes[i] := Array.getElem?_eq_getElem i.isLt
    exact split_addNode hr (h.booked _ _ hn).evictions
  exact hnodes

/-- A run reports on the network that it ends in. -/
theorem report_of_run {r : Report} (h : (run.run s).1 = .ok r) : r = (run.run s).2.report := by
  cases hr : run.run s with
  | mk res s' =>
    rw [hr] at h
    obtain rfl : res = .ok r := h
    rw [run, run_bind_ok (run_get s)] at hr
    obtain ⟨_, s₁, _, hr⟩ := run_bind_eq_ok hr
    cases hr
    rfl

/--
After any requests to a buffer, its entries are those that were inserted, without the dropped,
expired and removed ones, and without one for every pair made of two of them; the tally of evictions
has every drop, and the history, where there is one, has a record for everything that is counted.
Every report of a network splits its drops accordingly.
-/
theorem books_agree :
    (∀ (capacity : Nat) (lifetime : TimeSpan) (eviction : EvictionPolicy) (recording : Bool)
        (rs : List (Time × Buffer.Request)),
      let start := Buffer.new capacity lifetime eviction recording
      let b := start.run rs
      (b.size : Int) = b.counters.inserted - b.counters.dropped - b.counters.expired -
        b.counters.removed - start.compactions rs ∧
      b.counters.dropped = b.evictions.source + b.evictions.relayed ∧
      (recording = true → ∃ h, b.history = some h ∧ h.count .inserted = b.counters.inserted ∧
        h.count .dropped = b.counters.dropped ∧ h.count .expired = b.counters.expired)) ∧
    ∀ (scenario : Scenario) (trace : Trace) (s : Simulator) (r : Report),
      Reachable scenario trace s → (run.run s).1 = .ok r →
        r.dropped = r.droppedSource + r.droppedRelayed := by
  constructor
  · intro capacity lifetime eviction recording rs start b
    have hbooked : Booked recording (start.compactions rs) b :=
      Buffer.booked_run capacity lifetime eviction recording rs
    have hentries := hbooked.entries
    refine ⟨by omega, hbooked.evictions.symm, fun hrec => ?_⟩
    obtain ⟨h, hh⟩ := Option.isSome_iff_exists.mp (hbooked.history.kept.trans hrec)
    have hcomplete := hbooked.history.complete h hh
    exact ⟨h, hh, hcomplete .inserted, hcomplete .dropped, hcomplete .expired⟩
  · intro scenario trace s r h hrun
    rw [report_of_run hrun]
    exact (Reaches.run h).reachable.split_report

/-- Two packets made a pair of, one evicted and one left; and a network that drops a packet. -/
theorem pair_and_trio_agree :
    (let start := Buffer.new 2 ⟨0.0⟩ ⟨.front, false⟩ true
    let rs := [(⟨1.0⟩, .insert (.generate ⟨0⟩ ⟨0⟩ ⟨1⟩ ⟨1.0⟩)),
      (⟨1.0⟩, .insert (.generate ⟨1⟩ ⟨1⟩ ⟨0⟩ ⟨1.0⟩)), (⟨2.0⟩, .compact ⟨0⟩ ⟨1⟩),
      (⟨3.0⟩, .insert (.generate ⟨2⟩ ⟨0⟩ ⟨1⟩ ⟨3.0⟩)),
      (⟨4.0⟩, .insert (.generate ⟨3⟩ ⟨0⟩ ⟨1⟩ ⟨4.0⟩))]
    let b := start.run rs
    start.compactions rs = 1 ∧ b.size = 2 ∧
      (b.size : Int) = b.counters.inserted - b.counters.dropped - b.counters.expired -
        b.counters.removed - start.compactions rs ∧
      ∃ h, b.history = some h ∧ h.count .inserted = b.counters.inserted ∧
        h.count .dropped = b.counters.dropped ∧ h.count .expired = b.counters.expired) ∧
    ∃ s r, Reachable Scenario.trio Trace.returning s ∧ (run.run s).1 = .ok r ∧ r.dropped = 1 ∧
      r.dropped = r.droppedSource + r.droppedRelayed := by
  constructor
  · intro start rs b
    have hbooks := books_agree.1 2 ⟨0.0⟩ ⟨.front, false⟩ true rs
    have hb : b = (Buffer.new 2 ⟨0.0⟩ ⟨.front, false⟩ true).run rs := rfl
    refine ⟨by decide +kernel, by decide +kernel, ?_⟩
    rw [hb]
    exact ⟨hbooks.1, hbooks.2.2 rfl⟩
  · obtain ⟨s, hs, hp⟩ := exists_reachable Scenario.trio Trace.returning 12
      (fun s => match (run.run s).1 with
        | .ok r => decide (r.dropped = 1)
        | .error _ => false) (by decide +kernel)
    cases hr : (run.run s).1 with
    | error f =>
      rw [hr] at hp
      cases hp
    | ok r =>
      rw [hr] at hp
      exact ⟨s, r, hs, hr, of_decide_eq_true hp, books_agree.2 _ _ s r hs hr⟩

end OppNet.Simulator
