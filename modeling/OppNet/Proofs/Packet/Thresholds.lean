import OppNet.Packet
import OppNet.Proofs.Binary64.Merit

/-!
# OppNet.Proofs.Packet.Thresholds

What raising a threshold and merging two lists of thresholds do to each slot.

* `threshold_raiseThreshold`: a raise changes the slot that it names, and only if the value beats
  it. The slots that it fills up read as before.
* `getElem?_mergeThresholds`: a merge takes the larger threshold of a slot that both lists have. Of
  a slot that one list has it takes that one, and not the larger of it and zero.
  `le_mergeThresholds_iff`: so it lowers what it undercuts, and nothing else.
* `Comparable`: no threshold is the NaN, so all of them can be compared.
-/

namespace OppNet.Packet

open Binary64

variable {p q : Packet} {metric : Nat} {value : Float}

def Comparable (p : Packet) : Prop := ∀ t ∈ p.thresholds, t.isNaN = false

theorem threshold_eq (k : Nat) (p : Packet) : p.threshold k = p.thresholds[k]?.getD 0.0 :=
  List.getD_eq_getElem?_getD

theorem Comparable.threshold (h : p.Comparable) (k : Nat) : (p.threshold k).isNaN = false := by
  rw [threshold_eq]
  cases hk : p.thresholds[k]? with
  | none => rfl
  | some t => exact h t (List.mem_of_getElem? hk)

/-! ### Raising -/

theorem getD_padTo (n k : Nat) (xs : List Float) : (padTo n xs)[k]?.getD 0.0 = xs[k]?.getD 0.0 := by
  unfold padTo
  rw [List.getElem?_append]
  split
  · rfl
  · rename_i hout
    rw [List.getElem?_eq_none (Nat.le_of_not_lt hout), List.getElem?_replicate]
    split <;> rfl

theorem lt_length_padTo (metric : Nat) (xs : List Float) :
    metric < (padTo (metric + 1) xs).length := by
  rw [padTo, List.length_append, List.length_replicate]
  omega

/-- Nothing but the thresholds is touched. -/
theorem raiseThreshold_eq (metric : Nat) (value : Float) (p : Packet) :
    ∃ thresholds, p.raiseThreshold metric value = { p with thresholds := thresholds } := by
  unfold raiseThreshold
  dsimp only
  split
  · exact ⟨_, rfl⟩
  · exact ⟨_, rfl⟩

theorem threshold_raiseThreshold (metric : Nat) (value : Float) (p : Packet) (k : Nat) :
    (p.raiseThreshold metric value).threshold k =
      if k = metric ∧ p.beatsThreshold metric value = true then value else p.threshold k := by
  unfold raiseThreshold
  cases hbeats : p.beatsThreshold metric value with
  | true =>
    simp only [if_true, and_true, threshold_eq, List.getElem?_set, lt_length_padTo]
    by_cases hk : k = metric
    · rw [if_pos hk.symm, if_pos hk, Option.getD_some]
    · rw [if_neg (Ne.symm hk), if_neg hk, getD_padTo]
  | false =>
    simp only [Bool.false_eq_true, if_false, and_false, threshold_eq, getD_padTo]

theorem unsigned_utilityEpsilon : Unsigned utilityEpsilon := by
  change 2 ^ 63 ≤ (rank utilityEpsilon).toNat
  decide +kernel

theorem lt_of_beatsThreshold (h : p.Comparable) (hb : p.beatsThreshold metric value = true) :
    p.threshold metric < value :=
  lt_of_add_lt (h.threshold metric) unsigned_utilityEpsilon (of_decide_eq_true hb)

theorem beatsThreshold_iff (h : p.Comparable) : p.beatsThreshold metric value = true ↔
    (p.raiseThreshold metric value).threshold metric ≠ p.threshold metric := by
  rw [threshold_raiseThreshold]
  cases hb : p.beatsThreshold metric value with
  | true =>
    have hnum := h.threshold metric
    have hlt := lt_of_beatsThreshold h hb
    have hne : value ≠ p.threshold metric := by
      intro heq
      rw [heq] at hlt
      exact (not_lt_iff_le hnum hnum).mpr (le_refl_of_number hnum) hlt
    simp [hne]
  | false => simp

theorem Comparable.raiseThreshold (h : p.Comparable) (hvalue : value.isNaN = false) :
    (p.raiseThreshold metric value).Comparable := by
  have hpadded : ∀ t ∈ padTo (metric + 1) p.thresholds, t.isNaN = false := by
    intro t ht
    rcases List.mem_append.mp ht with ht | ht
    · exact h t ht
    · rw [List.eq_of_mem_replicate ht]
      rfl
  unfold Packet.raiseThreshold
  dsimp only
  split
  · intro t ht
    rcases List.mem_or_eq_of_mem_set ht with ht | rfl
    · exact hpadded t ht
    · exact hvalue
  · exact hpadded

/-! ### Merging -/

theorem getElem?_mergeThresholds (xs ys : List Float) (k : Nat) :
    (mergeThresholds xs ys)[k]? = Option.merge largerThreshold xs[k]? ys[k]? := by
  induction xs, ys using mergeThresholds.induct generalizing k with
  | case1 ys => simp [mergeThresholds]
  | case2 xs hne => cases xs <;> simp [mergeThresholds]
  | case3 x xs y ys ih =>
    rw [mergeThresholds]
    cases k with
    | zero => rfl
    | succ k => exact ih k

theorem length_mergeThresholds (xs ys : List Float) :
    (mergeThresholds xs ys).length = max xs.length ys.length := by
  induction xs, ys using mergeThresholds.induct with
  | case1 ys => simp [mergeThresholds]
  | case2 xs hne => cases xs <;> simp [mergeThresholds]
  | case3 x xs y ys ih =>
    rw [mergeThresholds, List.length_cons, List.length_cons, List.length_cons, ih]
    omega

theorem largerThreshold_eq_or (x y : Float) :
    largerThreshold x y = x ∨ largerThreshold x y = y := by
  unfold largerThreshold
  split
  · exact .inl rfl
  · exact .inr rfl

theorem mem_mergeThresholds {xs ys : List Float} {t : Float} (h : t ∈ mergeThresholds xs ys) :
    t ∈ xs ∨ t ∈ ys := by
  induction xs, ys using mergeThresholds.induct with
  | case1 ys => exact .inr h
  | case2 xs hne =>
    rw [mergeThresholds] at h
    · exact .inl h
    · exact hne
  | case3 x xs y ys ih =>
    rw [mergeThresholds] at h
    rcases List.mem_cons.mp h with rfl | h
    · rcases largerThreshold_eq_or x y with heq | heq
      · rw [heq]
        exact .inl List.mem_cons_self
      · rw [heq]
        exact .inr List.mem_cons_self
    · exact (ih h).imp (List.mem_cons_of_mem x) (List.mem_cons_of_mem y)

theorem le_largerThreshold {x y : Float} (hx : x.isNaN = false) (hy : y.isNaN = false) :
    x ≤ largerThreshold x y ∧ y ≤ largerThreshold x y := by
  unfold largerThreshold
  split
  · rename_i hle
    exact ⟨le_refl_of_number hx, hle⟩
  · rename_i hnot
    refine ⟨(not_lt_iff_le hy hx).mp fun hlt => ?_, le_refl_of_number hy⟩
    exact hnot (le_of_lt_of_numbers hy hx hlt)

/-- The list `merged` has every slot of `xs` and of `ys`, and of two thresholds the larger one. -/
structure Merged (xs ys merged : List Float) : Prop where
  length : merged.length = max xs.length ys.length
  first_only : ∀ k : Nat, ys[k]? = none → merged[k]? = xs[k]?
  second_only : ∀ k : Nat, xs[k]? = none → merged[k]? = ys[k]?
  /-- Two thresholds can be compared where neither is the NaN. -/
  both : ∀ (k : Nat) (x y : Float), xs[k]? = some x → ys[k]? = some y →
    ∃ larger, merged[k]? = some larger ∧ (larger = x ∨ larger = y) ∧
      (x.isNaN = false → y.isNaN = false → x ≤ larger ∧ y ≤ larger)

theorem merged_mergeThresholds (xs ys : List Float) : Merged xs ys (mergeThresholds xs ys) where
  length := length_mergeThresholds xs ys
  first_only k hk := by
    rw [getElem?_mergeThresholds, hk]
    cases xs[k]? <;> rfl
  second_only k hk := by
    rw [getElem?_mergeThresholds, hk]
    cases ys[k]? <;> rfl
  both k x y hx hy := by
    refine ⟨largerThreshold x y, ?_, largerThreshold_eq_or x y, le_largerThreshold⟩
    rw [getElem?_mergeThresholds, hx, hy]
    rfl

/-- `q` has a threshold below zero in a slot that `p` lacks, and that reads as zero there. -/
def Undercuts (q p : Packet) (metric : Nat) : Prop :=
  p.thresholds[metric]? = none ∧ ∃ t, q.thresholds[metric]? = some t ∧ t < 0.0

/-- A merge lowers a threshold where the other packet undercuts it, and nowhere else. -/
theorem le_mergeThresholds_iff (hp : p.Comparable) (hq : q.Comparable) (k : Nat) :
    let merged := (mergeThresholds p.thresholds q.thresholds)[k]?.getD 0.0
    (p.threshold k ≤ merged ↔ ¬ q.Undercuts p k) ∧
      (q.threshold k ≤ merged ↔ ¬ p.Undercuts q k) := by
  have hzero : (0.0 : Float).isNaN = false := rfl
  simp only [getElem?_mergeThresholds, threshold_eq, Undercuts]
  cases hx : p.thresholds[k]? with
  | none =>
    cases hy : q.thresholds[k]? with
    | none => simp [le_refl_of_number hzero]
    | some y =>
      have hynum := hq y (List.mem_of_getElem? hy)
      simp [le_refl_of_number hynum, not_lt_iff_le hynum hzero]
  | some x =>
    have hxnum := hp x (List.mem_of_getElem? hx)
    cases hy : q.thresholds[k]? with
    | none => simp [le_refl_of_number hxnum, not_lt_iff_le hxnum hzero]
    | some y => simp [le_largerThreshold hxnum (hq y (List.mem_of_getElem? hy))]

end OppNet.Packet
