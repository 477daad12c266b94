import OppNet.Scheduling

/-!
# OppNet.Proofs.Scheduling

A sending order is a rearrangement of what was offered (`order_perm`), and there is one whenever
every offer can be ranked and no two share a slot (`exists_order`).
-/

namespace OppNet.SchedulingPolicy

variable {policy : SchedulingPolicy} {slotOf : PacketId → Option Nat}

/-! ### Sorting -/

theorem insertRanked_perm (r : RankedOffer) (rs : List RankedOffer) :
    (insertRanked r rs).Perm (r :: rs) := by
  induction rs with
  | nil => exact .refl _
  | cons x rest ih =>
    rw [insertRanked]
    split
    · exact .refl _
    · exact (ih.cons x).trans (.swap r x rest)

theorem sortRanked_perm (rs : List RankedOffer) : (sortRanked rs).Perm rs := by
  induction rs with
  | nil => exact .refl _
  | cons r rest ih => exact (insertRanked_perm r _).trans (ih.cons r)

theorem firstTie?_eq_none {rs : List RankedOffer}
    (h : rs.Pairwise fun r s => r.priority.slot ≠ s.priority.slot) : firstTie? rs = none := by
  induction rs with
  | nil => rfl
  | cons x rest ih =>
    rw [List.pairwise_cons] at h
    cases rest with
    | nil => rfl
    | cons y rest =>
      rw [firstTie?, if_neg, ih h.2]
      intro heq
      have hslot := (Ordering.then_eq_eq.mp heq).2
      exact h.1 y List.mem_cons_self (Std.LawfulEqCmp.eq_of_compare hslot)

/-! ### Ranking -/

def signedSlot (policy : SchedulingPolicy) (slot : Nat) : Int :=
  match policy with
  | lifo => -slot
  | _ => slot

theorem signedSlot_injective {m n : Nat} (h : policy.signedSlot m = policy.signedSlot n) :
    m = n := by
  cases policy <;> simp only [signedSlot] at h <;> omega

theorem slot_of_map {merit : Except Fault Float} {slot : Int} {p : Priority}
    (h : (merit.map fun m => (⟨m, slot⟩ : Priority)) = .ok p) : p.slot = slot := by
  cases merit with
  | error f => cases h
  | ok m => cases h; rfl

theorem slot_of_priority {slot : Nat} {o : Offer} {p : Priority}
    (h : policy.priority slot o = .ok p) : p.slot = policy.signedSlot slot := by
  cases policy with
  | fifo => cases h; rfl
  | lifo => cases h; rfl
  | _ =>
    simp only [priority] at h
    split at h
    · cases h
    · exact slot_of_map h

theorem rank_eq_ok {o : Offer} {r : RankedOffer} (h : policy.rank slotOf o = .ok r) :
    r.packet = o.packet ∧
      ∃ slot, slotOf o.packet = some slot ∧ r.priority.slot = policy.signedSlot slot := by
  unfold rank at h
  cases hs : slotOf o.packet with
  | none => rw [hs] at h; cases h
  | some slot =>
    rw [hs] at h
    cases hp : policy.priority slot o with
    | error f => simp only [hp] at h; cases h
    | ok p =>
      simp only [hp] at h
      cases h
      exact ⟨rfl, slot, rfl, slot_of_priority hp⟩

/-- An offer from the buffer is ranked, unless its utilities add up to zero where that matters. -/
theorem exists_rank {id : PacketId} {slot : Nat} {hint : UtilityHint}
    (hslot : slotOf id = some slot)
    (h : policy = .hnuv → (hint.receiver + hint.sender == 0.0) = false) :
    ∃ r, policy.rank slotOf ⟨id, some hint⟩ = .ok r := by
  unfold rank
  rw [hslot]
  cases policy with
  | hnuv =>
    have hsum := h rfl
    simp only [priority, merit, hsum, Bool.false_eq_true, if_false]
    exact ⟨_, rfl⟩
  | _ => exact ⟨_, rfl⟩

theorem rankAll_eq_ok {offers : List Offer} {rs : List RankedOffer}
    (h : policy.rankAll slotOf offers = .ok rs) :
    rs.map (·.packet) = offers.map (·.packet) ∧
      ∀ r ∈ rs, ∃ slot, slotOf r.packet = some slot ∧
        r.priority.slot = policy.signedSlot slot := by
  induction offers generalizing rs with
  | nil => cases h; exact ⟨rfl, nofun⟩
  | cons o rest ih =>
    rw [rankAll] at h
    cases hr : policy.rank slotOf o with
    | error f => rw [hr] at h; cases h
    | ok r =>
      rw [hr] at h
      cases hrest : policy.rankAll slotOf rest with
      | error f => simp only [hrest] at h; cases h
      | ok rs' =>
        simp only [hrest] at h
        cases h
        obtain ⟨hpacket, hslot⟩ := rank_eq_ok hr
        obtain ⟨hpackets, hslots⟩ := ih hrest
        refine ⟨by rw [List.map_cons, List.map_cons, hpacket, hpackets], ?_⟩
        intro r' hr'
        rcases List.mem_cons.mp hr' with rfl | hr'
        · rw [hpacket]; exact hslot
        · exact hslots r' hr'

theorem exists_rankAll {offers : List Offer}
    (h : ∀ o ∈ offers, ∃ r, policy.rank slotOf o = .ok r) :
    ∃ rs, policy.rankAll slotOf offers = .ok rs := by
  induction offers with
  | nil => exact ⟨[], rfl⟩
  | cons o rest ih =>
    obtain ⟨r, hr⟩ := h o List.mem_cons_self
    obtain ⟨rs, hrs⟩ := ih fun o' ho' => h o' (List.mem_cons_of_mem _ ho')
    exact ⟨r :: rs, by rw [rankAll, hr]; simp only [hrs]; rfl⟩

/-! ### The order -/

theorem order_eq_none {offers : List Offer} (h : policy.order slotOf offers = .ok none) :
    offers = [] := by
  unfold order at h
  split at h
  · rename_i hempty
    exact List.isEmpty_iff.mp hempty
  · split at h
    · cases h
    · dsimp only at h
      split at h <;> cases h

theorem order_perm {offers : List Offer} {ids : List PacketId}
    (h : policy.order slotOf offers = .ok (some ids)) : ids.Perm (offers.map (·.packet)) := by
  unfold order at h
  split at h
  · cases h
  · cases hr : policy.rankAll slotOf offers with
    | error f => rw [hr] at h; cases h
    | ok rs =>
      rw [hr] at h
      dsimp only at h
      split at h
      · cases h
      · cases h
        rw [← (rankAll_eq_ok hr).1]
        exact (sortRanked_perm rs).map _

theorem exists_order (policy : SchedulingPolicy) (slotOf : PacketId → Option Nat)
    {offers : List Offer} (hnodup : (offers.map (·.packet)).Nodup)
    (hrank : ∀ o ∈ offers, ∃ r, policy.rank slotOf o = .ok r)
    (hslot : ∀ id id' k, slotOf id = some k → slotOf id' = some k → id = id') :
    ∃ order?, policy.order slotOf offers = .ok order? := by
  obtain ⟨rs, hrs⟩ := exists_rankAll hrank
  obtain ⟨hpackets, hslots⟩ := rankAll_eq_ok hrs
  rw [← hpackets, List.Nodup, List.pairwise_map] at hnodup
  have happart : rs.Pairwise fun r s => r.priority.slot ≠ s.priority.slot := by
    refine hnodup.imp_of_mem fun {r s} hr hs hne heq => ?_
    obtain ⟨m, hm, hrm⟩ := hslots r hr
    obtain ⟨n, hn, hsn⟩ := hslots s hs
    obtain rfl := signedSlot_injective (hrm.symm.trans (heq.trans hsn))
    exact hne (hslot _ _ _ hm hn)
  have htie : firstTie? (sortRanked rs) = none :=
    firstTie?_eq_none (((sortRanked_perm rs).pairwise_iff fun h => Ne.symm h).mpr happart)
  unfold order
  split
  · exact ⟨none, rfl⟩
  · rw [hrs]
    dsimp only
    rw [htie]
    exact ⟨_, rfl⟩

end OppNet.SchedulingPolicy
