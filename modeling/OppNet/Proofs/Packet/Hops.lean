import Mathlib.Data.List.Nodup
import OppNet.Packet

/-!
# OppNet.Proofs.Packet.Hops

The lists of nodes that a packet keeps, to which a node is added at most once.

* `mem_appendNew`, `nodup_appendNew`, `length_appendNew_le`, `head?_appendNew`: what is in such a
  list, how long it gets and where it starts.
* `Extended n ns ns'`: one addition, which a second one of that node does not change.
-/

namespace OppNet.Packet

variable {m n : NodeId} {ns : List NodeId}

@[simp] theorem mem_appendNew : m ∈ appendNew n ns ↔ m = n ∨ m ∈ ns := by
  unfold appendNew
  split
  · rename_i hn
    simp only [List.contains_iff_mem] at hn
    constructor
    · exact .inr
    · rintro (rfl | hm)
      · exact hn
      · exact hm
  · simp [or_comm]

theorem appendNew_of_mem (h : n ∈ ns) : appendNew n ns = ns :=
  if_pos (List.contains_iff_mem.mpr h)

theorem appendNew_of_not_mem (h : n ∉ ns) : appendNew n ns = ns ++ [n] :=
  if_neg fun hn => h (List.contains_iff_mem.mp hn)

theorem nodup_appendNew (h : ns.Nodup) : (appendNew n ns).Nodup := by
  by_cases hn : n ∈ ns
  · rw [appendNew_of_mem hn]
    exact h
  · rw [appendNew_of_not_mem hn, ← List.concat_eq_append]
    exact h.concat hn

theorem length_appendNew_le (n : NodeId) (ns : List NodeId) :
    (appendNew n ns).length ≤ ns.length + 1 := by
  unfold appendNew
  split
  · exact Nat.le_succ _
  · exact Nat.le_of_eq List.length_append

theorem head?_appendNew (h : ns.head? = some m) : (appendNew n ns).head? = some m := by
  unfold appendNew
  split
  · exact h
  · rw [List.head?_append, h]
    rfl

theorem appendNew_ne_nil (n : NodeId) (ns : List NodeId) : appendNew n ns ≠ [] :=
  List.ne_nil_of_mem (mem_appendNew.mpr (.inl rfl))

/-- The list `ns'` is `ns` with `n` in it: as it was if the node is there, else at the end. -/
structure Extended (n : NodeId) (ns ns' : List NodeId) : Prop where
  known : n ∈ ns → ns' = ns
  fresh : n ∉ ns → ns' = ns ++ [n]
  nodup : ns.Nodup → ns'.Nodup

theorem extended_appendNew (n : NodeId) (ns : List NodeId) : Extended n ns (appendNew n ns) :=
  ⟨appendNew_of_mem, appendNew_of_not_mem, nodup_appendNew⟩

theorem appendNew_appendNew (n : NodeId) (ns : List NodeId) :
    appendNew n (appendNew n ns) = appendNew n ns :=
  appendNew_of_mem (mem_appendNew.mpr (.inl rfl))

end OppNet.Packet
