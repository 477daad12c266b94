import OppNet.Proofs.Simulator.Run

/-!
# OppNet.Proofs.Simulator.Birth

Packets are born once. While the packets that are still to be born have different numbers, no node
has any of them (`Unborn`), and every event keeps it that way (`Unborn.handled`): a node comes by
a packet at its birth, or from another node that has it.
-/

namespace OppNet.Simulator

variable {now : Time} {s s' : Simulator} {es es' : List Event}

/-- What is still to be born is born once, and at no node yet. -/
structure Unborn (es : List Event) (s : Simulator) : Prop where
  nodup : (births es).Nodup
  live : ∀ n node id, s.node? n = some node → id ∈ node.buffer.liveIds → id ∉ births es

namespace Unborn

theorem of_subset (h : Unborn es s) (hn : (births es').Nodup)
    (hsub : ∀ id ∈ births es', id ∈ births es) : Unborn es' s :=
  ⟨hn, fun n node id hnode hid hbirth => h.live n node id hnode hid (hsub id hbirth)⟩

theorem of_cons {e : Event} (h : Unborn (e :: es) s) : Unborn es s :=
  h.of_subset (h.nodup.sublist (births_sublist_cons e es)) (births_sublist_cons e es).subset

theorem of_births_eq (h : Unborn es s) (he : births es' = births es) : Unborn es' s :=
  h.of_subset (he ▸ h.nodup) fun _ hid => he ▸ hid

/-- Nothing comes in but what has been born. -/
theorem of_advanced {new : NodeId → PacketId → Prop} (h : Unborn es s) (ha : Advanced new s s')
    (hnew : ∀ n id, new n id → id ∉ births es) : Unborn es s' := by
  refine ⟨h.nodup, fun n node' id hn' hid => ?_⟩
  obtain ⟨node, hn, hadv⟩ := ha.back hn'
  rcases hadv.live id hid with hlive | hid
  · exact h.live n node id hn hlive
  · exact hnew n id hid

theorem of_same_nodes (h : Unborn es s) (hn : s'.nodes = s.nodes) : Unborn es s' :=
  h.of_advanced (.of_nodes_eq hn fun _ _ => False) fun _ _ => False.elim

theorem of_quiet (h : Unborn s.queue.toList s) (hq : Quiet now s s') :
    Unborn s'.queue.toList s' := by
  rw [hq.queue]
  exact h.of_advanced (.of_quiet hq fun _ _ => False) fun _ _ => False.elim

theorem of_shipped {sender receiver : NodeId} {ids : List PacketId}
    (h : Unborn s.queue.toList s) (hs : Shipped sender receiver ids s s') :
    Unborn s'.queue.toList s' :=
  (h.of_same_nodes hs.nodes).of_subset (hs.births_perm.nodup_iff.mpr h.nodup)
    hs.births_perm.subset

/-- No event brings about or gives away a packet that is still to be born. -/
theorem handled {e : Event} (h : Unborn (e :: s.queue.toList) s)
    (hh : Handled e.time e.kind s s') : Unborn s'.queue.toList s' := by
  obtain ⟨now, kind⟩ := e
  cases hh with
  | quiet _ hq => exact h.of_cons.of_quiet hq
  | overlap => exact h.of_cons.of_same_nodes rfl
  | opened links contacts h₁ _ h₂ h₃ _ h₄ =>
    have h₀ : Unborn s.queue.toList (s.relinked links contacts) := h.of_cons.of_same_nodes rfl
    exact (((of_quiet h₀ h₁).of_shipped h₂).of_quiet h₃).of_shipped h₄
  | @closed a b _ links aborted =>
    have h₀ : Unborn s.queue.toList (s.severed a b links aborted) := h.of_cons.of_same_nodes rfl
    refine h₀.of_births_eq ?_
    change births (s.queue.invalidateLink a b).2.toList = _
    rw [(s.queue.toList_invalidateLink a b).2.1, births_breakLink]
  | stray => exact h.of_cons
  | @idle _ receiver packet _ _ _ _ hq =>
    have h₀ : Unborn s.queue.toList (s.unmarked receiver packet) := h.of_cons.of_same_nodes rfl
    exact of_quiet h₀ hq
  | @moved _ receiver packet _ _ hm =>
    have h₀ : Unborn s.queue.toList (s.unmarked receiver packet) := h.of_cons.of_same_nodes rfl
    rw [hm.steady.queue]
    obtain ⟨tx, htx, hlive⟩ := hm.source
    refine h₀.of_advanced hm.advanced ?_
    rintro n id ⟨_, rfl⟩
    exact h.of_cons.live _ tx _ htx hlive
  | @born source destination packet _ _ hst ha _ =>
    rw [hst.queue]
    have hcons := births_cons_of_some (e := ⟨now, .generation source destination packet true⟩) rfl
      s.queue.toList
    have hnodup := h.nodup
    rw [hcons, List.nodup_cons] at hnodup
    refine h.of_cons.of_advanced ha ?_
    rintro n id ⟨_, rfl⟩
    exact hnodup.1

theorem taken {e : Event} {q : Event.Queue} (h : Unborn s.queue.toList s)
    (hd : s.due? = some (e, q)) : Unborn (e :: q.toList) (s.taken e q) := by
  rw [← (due?_eq_some hd).1]
  exact h.of_same_nodes rfl

end Unborn

variable {scenario : Scenario} {trace : Trace}

theorem Fresh.unborn (h : Fresh scenario trace s) (hn : (births trace.events).Nodup) :
    Unborn s.queue.toList s := by
  refine ⟨(h.pending.filterMap _).nodup_iff.mpr hn, fun n node id hnode hid => ?_⟩
  rw [h.nodes n node hnode] at hid
  cases hid

/-- No packet is anywhere before its birth. -/
theorem Reachable.unborn (h : Reachable scenario trace s) (hn : (births trace.events).Nodup) :
    Unborn s.queue.toList s := by
  induction h with
  | start h => exact (fresh_of_ofTrace h).unborn hn
  | event h hd ih => exact (ih.taken hd).handled (h.handled hd)
  | @finish s _ _ ih => exact ih.of_quiet (quiet_sweepAll s.stop s)

end OppNet.Simulator
