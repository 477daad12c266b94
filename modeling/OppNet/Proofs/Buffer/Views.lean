import OppNet.Buffer

/-!
# OppNet.Proofs.Buffer.Views

The lists that a contact reads off a buffer.

* `exists_distinct`, `nodup_distinctPackets`: one packet for every live number.
* `exists_place`, `place_injective`: every live number has a place, and no two share one.
-/

namespace OppNet

section Dups

variable {α : Type} {r : α → α → Bool}

/-- Induction along `eraseDupsBy`, which goes on with what the first element does not cover. -/
theorem dupsInduction {motive : List α → Prop} (nil : motive [])
    (cons : ∀ x rest, motive (rest.filter fun y => r y x = false) → motive (x :: rest)) :
    ∀ xs, motive xs
  | [] => nil
  | x :: rest => cons x rest (dupsInduction nil cons _)
termination_by xs => xs.length
decreasing_by
  have := List.length_filter_le (fun y => r y x = false) rest
  simp only [List.length_cons]
  omega

theorem mem_of_mem_eraseDupsBy {xs : List α} {x : α} (h : x ∈ xs.eraseDupsBy r) : x ∈ xs := by
  induction xs using dupsInduction (r := r) with
  | nil => exact h
  | cons y rest ih =>
    rw [List.eraseDupsBy_cons, List.mem_cons] at h
    rcases h with rfl | h
    · exact List.mem_cons_self
    · exact List.mem_cons_of_mem _ (List.mem_filter.mp (ih h)).1

theorem exists_mem_eraseDupsBy {xs : List α} {x : α} (h : x ∈ xs) :
    ∃ y ∈ xs.eraseDupsBy r, x = y ∨ r x y = true := by
  induction xs using dupsInduction (r := r) with
  | nil => cases h
  | cons y rest ih =>
    rw [List.eraseDupsBy_cons]
    rcases List.mem_cons.mp h with rfl | hmem
    · exact ⟨x, List.mem_cons_self, .inl rfl⟩
    · by_cases hxy : r x y = true
      · exact ⟨y, List.mem_cons_self, .inr hxy⟩
      · have hleft : x ∈ rest.filter fun z => r z y = false :=
          List.mem_filter.mpr ⟨hmem, decide_eq_true (Bool.eq_false_iff.mpr hxy)⟩
        obtain ⟨z, hz, hxz⟩ := ih hleft
        exact ⟨z, List.mem_cons_of_mem _ hz, hxz⟩

theorem pairwise_eraseDupsBy (xs : List α) :
    (xs.eraseDupsBy r).Pairwise fun x y => r y x = false := by
  induction xs using dupsInduction (r := r) with
  | nil => exact .nil
  | cons x rest ih =>
    rw [List.eraseDupsBy_cons, List.pairwise_cons]
    refine ⟨fun y hy => ?_, ih⟩
    simpa using (List.mem_filter.mp (mem_of_mem_eraseDupsBy hy)).2

theorem nodup_eraseDups [BEq α] [LawfulBEq α] (xs : List α) : xs.eraseDups.Nodup :=
  (pairwise_eraseDupsBy xs).imp fun h heq => by simp [heq] at h

end Dups

namespace Buffer

variable {b : Buffer}

theorem nodup_distinctPackets (b : Buffer) : (b.distinctPackets.map (·.id)).Nodup := by
  rw [List.Nodup, List.pairwise_map]
  exact (pairwise_eraseDupsBy b.livePackets).imp fun h heq => by simp [heq] at h

theorem mem_livePackets_of_distinct {p : Packet} (h : p ∈ b.distinctPackets) :
    p ∈ b.livePackets :=
  mem_of_mem_eraseDupsBy h

theorem exists_distinct {p : Packet} (h : p ∈ b.livePackets) :
    ∃ q ∈ b.distinctPackets, q.id = p.id := by
  obtain ⟨q, hq, hpq⟩ := exists_mem_eraseDupsBy (r := fun p q : Packet => p.id == q.id) h
  refine ⟨q, hq, ?_⟩
  rcases hpq with rfl | hpq
  · rfl
  · exact (beq_iff_eq.mp hpq).symm

/-! ### Places -/

theorem getElem?_of_lookup {ids : List PacketId} {i k : Nat} {id : PacketId}
    (h : (lastPlaces i ids).lookup id = some k) : i ≤ k ∧ ids[k - i]? = some id := by
  induction ids generalizing i with
  | nil => cases h
  | cons x rest ih =>
    rw [lastPlaces] at h
    have later : (lastPlaces (i + 1) rest).lookup id = some k →
        i ≤ k ∧ (x :: rest)[k - i]? = some id := by
      intro hl
      obtain ⟨hle, hget⟩ := ih hl
      refine ⟨by omega, ?_⟩
      rw [show k - i = (k - (i + 1)) + 1 by omega, List.getElem?_cons_succ]
      exact hget
    split at h
    · exact later h
    · rw [List.lookup_cons] at h
      split at h
      · rename_i heq
        cases h
        rw [beq_iff_eq.mp heq]
        simp
      · exact later h

theorem exists_lookup {ids : List PacketId} (i : Nat) {id : PacketId} (h : id ∈ ids) :
    ∃ k, (lastPlaces i ids).lookup id = some k := by
  induction ids generalizing i with
  | nil => cases h
  | cons x rest ih =>
    rw [lastPlaces]
    by_cases hrest : id ∈ rest
    · obtain ⟨k, hk⟩ := ih (i + 1) hrest
      split
      · exact ⟨k, hk⟩
      · rename_i hnot
        have hne : ¬ id = x := by
          rintro rfl
          exact hnot (List.contains_iff_mem.mpr hrest)
        exact ⟨k, by rw [List.lookup_cons, beq_eq_false_iff_ne.mpr hne]; exact hk⟩
    · obtain rfl : id = x := (List.mem_cons.mp h).resolve_right hrest
      rw [if_neg (by simpa using hrest)]
      exact ⟨i, by simp⟩

theorem exists_place {id : PacketId} (h : id ∈ b.liveIds) :
    ∃ k, b.positions.lookup id = some k :=
  exists_lookup 0 h

theorem place_injective {id id' : PacketId} {k : Nat} (h : b.positions.lookup id = some k)
    (h' : b.positions.lookup id' = some k) : id = id' := by
  have hget := (getElem?_of_lookup h).2
  rw [(getElem?_of_lookup h').2] at hget
  exact (Option.some_inj.mp hget).symm

end Buffer

end OppNet
