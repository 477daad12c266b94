import Mathlib.Data.List.Basic
import OppNet.Proofs.Simulator.Run

/-!
# OppNet.Proofs.Simulator.Repetition

A run that has ended well ends at once if it is repeated.

* `node?_sweepAll`: what a sweep of the whole network leaves at each node.
* `sweepAll_sweepAll`: a second sweep at the same time changes nothing, be it a packet, a count, a
  note or the journal.
* `run_again`: the repeated run answers as the one before it did and leaves the network as it was.
-/

namespace OppNet

namespace Simulator

variable {scenario : Scenario} {trace : Trace} {now : Time} {s s' : Simulator} {n : NodeId}

/-! ### Sweeps of the whole network -/

/-- One step of a sweep of the network. -/
def sweepAt (now : Time) (s : Simulator) (i : Nat) : Simulator :=
  match s.node? ⟨i⟩ with
  | none => s
  | some node => s.putNode ⟨i⟩ (node.sweep now)

theorem sweepAll_eq (now : Time) (s : Simulator) :
    s.sweepAll now = (List.range s.nodes.size).foldl (sweepAt now) s := rfl

theorem node?_sweepAt_ne {i : Nat} (h : n.index ≠ i) : (sweepAt now s i).node? n = s.node? n := by
  rw [sweepAt]
  cases s.node? ⟨i⟩ with
  | none => rfl
  | some node => exact node?_putNode_ne (fun heq => h (by rw [heq])) _ s

theorem node?_sweepAt_self (now : Time) (s : Simulator) (n : NodeId) :
    (sweepAt now s n.index).node? n = (s.node? n).map (cleared now) := by
  rw [sweepAt]
  cases hn : s.node? n with
  | none => exact hn
  | some node => exact node?_putNode_self (index_lt_of_node? hn) _

theorem node?_foldl_sweepAt {is : List Nat} (hnodup : is.Nodup) :
    (is.foldl (sweepAt now) s).node? n =
      if n.index ∈ is then (s.node? n).map (cleared now) else s.node? n := by
  induction is generalizing s with
  | nil => rfl
  | cons i is ih =>
    obtain ⟨hi, hnodup⟩ := List.nodup_cons.mp hnodup
    rw [List.foldl_cons, ih hnodup]
    by_cases hn : n.index = i
    · subst hn
      rw [if_neg hi, if_pos List.mem_cons_self, node?_sweepAt_self]
    · simp only [node?_sweepAt_ne hn, List.mem_cons, hn, false_or]

/-- A sweep of the network clears every node. -/
theorem node?_sweepAll (now : Time) (s : Simulator) (n : NodeId) :
    (s.sweepAll now).node? n = (s.node? n).map (cleared now) := by
  rw [sweepAll_eq, node?_foldl_sweepAt List.nodup_range]
  split
  · rfl
  · rename_i hout
    rw [List.mem_range] at hout
    have hnone : s.node? n = none := Array.getElem?_eq_none (Nat.le_of_not_lt hout)
    rw [hnone]
    rfl

/-- A node without notes can be put back where it is. -/
theorem putNode_self {node : Node} (h : s.node? n = some node)
    (hnotes : node.buffer.notes = []) : s.putNode n node = s := by
  have hsilent : silenced node = node := by rw [silenced, ← hnotes]
  have hnodes : s.nodes.setIfInBounds n.index node = s.nodes := by
    obtain ⟨hlt, rfl⟩ := Array.getElem?_eq_some_iff.mp h
    simp [Array.setIfInBounds, hlt]
  rw [putNode, hnotes]
  change { s with nodes := s.nodes.setIfInBounds n.index (silenced node) } = s
  rw [hsilent, hnodes]

theorem sweepAll_sweepAll (now : Time) (s : Simulator) :
    (s.sweepAll now).sweepAll now = s.sweepAll now := by
  rw [sweepAll_eq now (s.sweepAll now)]
  refine List.foldl_fixed' (fun i => ?_) _
  rw [sweepAt]
  cases hn : (s.sweepAll now).node? ⟨i⟩ with
  | none => rfl
  | some node =>
    obtain ⟨_, -, rfl⟩ := Option.map_eq_some_iff.mp ((node?_sweepAll now s ⟨i⟩).symm.trans hn)
    dsimp only
    rw [sweep_cleared]
    exact putNode_self hn rfl

/-! ### Runs without a due event -/

theorem settle_of_idle (h : s.due? = none) (fuel : Nat) : (settle fuel).run s = (.ok (), s) := by
  cases fuel with
  | zero => rfl
  | succ fuel =>
    rw [settle, run_bind_ok (run_get s), h]
    rfl

theorem advance_of_idle (h : s.due? = none) (n : Nat) : (advance n).run s = (.ok (), s) := by
  cases n with
  | zero => rfl
  | succ n =>
    rw [advance, run_bind_ok (run_get s), run_bind_ok (settle_of_idle h _),
      run_bind_ok (run_get s), h]
    rfl

/-- Without a due event a run only sweeps. -/
theorem run_of_idle (h : s.due? = none) :
    run.run s = (.ok (s.sweepAll s.stop).report, s.sweepAll s.stop) := by
  rw [run, run_bind_ok (run_get s), run_bind_ok (advance_of_idle h _)]
  rfl

/-- A run that does not fail ends with a sweep and reports on what that leaves. -/
theorem exists_sweepAll {r : Report} (hrun : run.run s = (.ok r, s')) :
    ∃ last : Simulator, s' = last.sweepAll last.stop ∧ r = s'.report := by
  rw [run, run_bind_ok (run_get s)] at hrun
  obtain ⟨_, last, -, hrun⟩ := run_bind_eq_ok hrun
  cases hrun
  exact ⟨last, rfl, rfl⟩

/-- A finished run that is repeated gives the same report and changes nothing. -/
theorem run_again (h : Reachable scenario trace s) {r : Report} (hrun : run.run s = (.ok r, s')) :
    run.run s' = (.ok r, s') := by
  have hidle : s'.due? = none := run_exhausts h hrun
  obtain ⟨last, rfl, rfl⟩ := exists_sweepAll hrun
  rw [run_of_idle hidle, (quiet_sweepAll last.stop last).stop, sweepAll_sweepAll]

end Simulator

/-- Two nodes that keep a packet for twenty seconds. -/
def Scenario.fleeting : Scenario :=
  { Scenario.pair with buffer := { Scenario.pair.buffer with lifetime := ⟨20.0⟩ } }

/-- A packet that only the last sweep discards, and a contact that comes too late. -/
def Trace.overlong : Trace where
  events :=
    [⟨⟨1.0⟩, .generation ⟨0⟩ ⟨1⟩ ⟨0⟩ true⟩, ⟨⟨7.0⟩, .contactUp ⟨0⟩ ⟨1⟩⟩,
      ⟨⟨50.0⟩, .contactDown ⟨0⟩ ⟨1⟩⟩, ⟨⟨75.0⟩, .generation ⟨1⟩ ⟨0⟩ ⟨1⟩ true⟩,
      ⟨⟨200.0⟩, .contactUp ⟨0⟩ ⟨1⟩⟩]
  contacts := 2
  packets := 2

/-- The last sweep discards a packet, and a contact is left over. -/
theorem Simulator.overlong_run_again : ∃ s s' r,
    Reachable Scenario.fleeting Trace.overlong s ∧ run.run s = (.ok r, s') ∧ r.expired = 1 ∧
      s'.queue.size = 1 ∧ run.run s' = (.ok r, s') := by
  obtain ⟨s, h, hp⟩ := exists_reachable Scenario.fleeting Trace.overlong 0
    (fun s => match run.run s with
      | (.ok r, s') => decide (r.expired = 1 ∧ s'.queue.size = 1)
      | (.error _, _) => false) (by decide +kernel)
  cases hr : run.run s with
  | mk result s' =>
    rw [hr] at hp
    cases result with
    | error f => cases hp
    | ok r =>
      obtain ⟨hexpired, hsize⟩ := of_decide_eq_true hp
      exact ⟨s, s', r, h, hr, hexpired, hsize, run_again h hr⟩

end OppNet
