import OppNet.Proofs.Buffer.Custody
import OppNet.Simulator

/-!
# OppNet.Proofs.Simulator.Action

Running actions on a network step by step: `run_bind_ok` and `run_bind_error` for two actions in a
row, `visit_run_some` and `onBuffer_run_some` for what is done to one node, and `node?_putNode` for
the nodes afterwards.
-/

namespace OppNet

namespace Simulator

/-! ### Running actions -/

section Run

variable {α β : Type} {s s' : Simulator}

@[simp] theorem run_get (s : Simulator) : (get : Action Simulator).run s = (.ok s, s) := rfl

@[simp] theorem run_modify (g : Simulator → Simulator) (s : Simulator) :
    (modify g : Action PUnit).run s = (.ok ⟨⟩, g s) := rfl

def counted (g : Traffic → Traffic) (s : Simulator) : Simulator :=
  { s with traffic := g s.traffic }

@[simp] theorem run_count (g : Traffic → Traffic) (s : Simulator) :
    (count g).run s = (.ok ⟨⟩, s.counted g) := rfl

theorem run_bind_ok {x : Action α} {g : α → Action β} {a : α} (h : x.run s = (.ok a, s')) :
    (x >>= g).run s = (g a).run s' := by
  have hrun : (x >>= g).run s = match x.run s with
      | (.ok a, s') => (g a).run s'
      | (.error f, s') => (.error f, s') := by
    change (ExceptT.bindCont g (x.run s).1).run (x.run s).2 = _
    cases x.run s with
    | mk r t => cases r <;> rfl
  rw [hrun, h]

theorem run_bind_error {x : Action α} {g : α → Action β} {f : Fault}
    (h : x.run s = (.error f, s')) : (x >>= g).run s = (.error f, s') := by
  change (ExceptT.bindCont g (x.run s).1).run (x.run s).2 = _
  rw [h]
  rfl

theorem run_bind_eq_ok {x : Action α} {g : α → Action β} {b : β}
    (h : (x >>= g).run s = (.ok b, s')) :
    ∃ a s₁, x.run s = (.ok a, s₁) ∧ (g a).run s₁ = (.ok b, s') := by
  cases hx : x.run s with
  | mk res s₁ =>
    cases res with
    | error f =>
      rw [run_bind_error hx] at h
      cases h
    | ok a =>
      rw [run_bind_ok hx] at h
      exact ⟨a, s₁, rfl, h⟩

@[simp] theorem run_ofExcept_ok (a : α) (s : Simulator) :
    (ofExcept (.ok a)).run s = (.ok a, s) := rfl

end Run

/-! ### One node after another -/

theorem requireNode_run_none {n : NodeId} {s : Simulator} (h : s.node? n = none) :
    (requireNode n).run s = (.error (.unknownNode n), s) := by
  unfold requireNode
  rw [run_bind_ok (run_get s), h]
  rfl

theorem requireNode_run_some {n : NodeId} {node : Node} {s : Simulator}
    (h : s.node? n = some node) : (requireNode n).run s = (.ok (), s) := by
  unfold requireNode
  rw [run_bind_ok (run_get s), h]
  rfl

theorem visit_run_none {α : Type} {n : NodeId} {s : Simulator} (h : s.node? n = none)
    (f : Node → α × Node) : (visit n f).run s = (.error (.unknownNode n), s) := by
  unfold visit
  rw [run_bind_ok (run_get s), h]
  rfl

theorem visit_run_some {α : Type} {n : NodeId} {node : Node} {s : Simulator}
    (h : s.node? n = some node) (f : Node → α × Node) :
    (visit n f).run s = (.ok (f node).1, s.putNode n (f node).2) := by
  unfold visit
  rw [run_bind_ok (run_get s), h]
  rfl

theorem onBuffer_run_none {α : Type} {n : NodeId} {s : Simulator} (h : s.node? n = none)
    (f : Buffer → Buffer.Outcome α) :
    (onBuffer n f).run s = (.error (.unknownNode n), s) := by
  unfold onBuffer
  exact run_bind_error (visit_run_none h _)

theorem onBuffer_run_some {α : Type} {n : NodeId} {node : Node} {s : Simulator}
    (h : s.node? n = some node) (f : Buffer → Buffer.Outcome α) : (onBuffer n f).run s =
      ((f node.buffer).1, s.putNode n { node with buffer := (f node.buffer).2 }) := by
  unfold onBuffer
  rw [run_bind_ok (visit_run_some h _)]
  dsimp only
  cases (f node.buffer).1 <;> rfl

theorem index_lt_of_node? {n : NodeId} {node : Node} {s : Simulator} (h : s.node? n = some node) :
    n.index < s.nodes.size :=
  (Array.getElem?_eq_some_iff.mp h).1

theorem exists_node? {node : Node} {s : Simulator} (h : node ∈ s.nodes.toList) :
    ∃ n, s.node? n = some node := by
  obtain ⟨i, hi⟩ := List.getElem?_of_mem h
  exact ⟨⟨i⟩, by rw [← hi, Array.getElem?_toList]; rfl⟩

/-- A node without the notes that it has handed to the journal. -/
def silenced (node : Node) : Node := { node with buffer := { node.buffer with notes := [] } }

theorem node?_putNode_self {n : NodeId} {s : Simulator} (h : n.index < s.nodes.size)
    (node : Node) : (s.putNode n node).node? n = some (silenced node) := by
  unfold putNode node?
  simp [h, silenced]

theorem node?_putNode_ne {n m : NodeId} (hne : m ≠ n) (node : Node) (s : Simulator) :
    (s.putNode n node).node? m = s.node? m := by
  have hidx : n.index ≠ m.index := by
    intro heq
    apply hne
    cases n
    cases m
    exact congrArg NodeId.mk heq.symm
  unfold putNode node?
  simp [Array.getElem?_setIfInBounds_ne hidx]

theorem node?_putNode {n : NodeId} {node : Node} {s : Simulator} (h : s.node? n = some node)
    (f : Node → Node) (m : NodeId) : (s.putNode n (f node)).node? m =
      (s.node? m).map fun node => if m = n then silenced (f node) else node := by
  by_cases hm : m = n
  · subst hm
    simp only [if_true, h, node?_putNode_self (index_lt_of_node? h), Option.map_some]
  · simp only [if_neg hm, node?_putNode_ne hm, Option.map_id']

@[simp] theorem size_putNode (n : NodeId) (node : Node) (s : Simulator) :
    (s.putNode n node).nodes.size = s.nodes.size := by
  simp [putNode]

end Simulator

end OppNet
