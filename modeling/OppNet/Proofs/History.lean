import Mathlib.Algebra.Ring.Int.Defs
import OppNet.History
import OppNet.Proofs.Binary64.Order

/-!
# OppNet.Proofs.History

A question about a window reads the history backwards and stops at the first record that is too old.
Where the records stand in the order of their times, nothing that it looks for lies behind that one.

* `Ordered h`: the order. `Ordered.prepend`: what is appended at one time keeps it, if no record is
  later than that.
* `Exact now width h`: the questions are about all records in the window. `Ordered.exact`: so it is
  in every ordered history.
-/

namespace OppNet

/-- Where whatever follows a failure fails as well, the first failure is as far as a search goes. -/
theorem takeWhile_eq_filter {α : Type} {p : α → Bool} {xs : List α}
    (h : xs.Pairwise fun x y => p y = true → p x = true) : xs.takeWhile p = xs.filter p := by
  induction xs with
  | nil => rfl
  | cons x rest ih =>
    obtain ⟨hx, hrest⟩ := List.pairwise_cons.mp h
    by_cases hp : p x = true
    · rw [List.takeWhile_cons_of_pos hp, List.filter_cons_of_pos hp, ih hrest]
    · have hnone : rest.filter p = [] :=
        List.filter_eq_nil_iff.mpr fun y hy hpy => hp (hx y hy hpy)
      rw [List.takeWhile_cons_of_neg hp, List.filter_cons_of_neg hp, hnone]

namespace History

variable {h : History} {now : Time}

/-- No record is earlier than one that was appended before it. -/
def Ordered (h : History) : Prop :=
  h.backwards.Pairwise fun later earlier => earlier.time ≤ later.time

theorem ordered_empty : empty.Ordered := .nil

/-- The history with more records, the latest one first. -/
def prepend (rs : List Record) (h : History) : History := ⟨rs ++ h.backwards⟩

theorem Ordered.prepend (h₀ : h.Ordered) {rs : List Record} (hnow : ∀ r ∈ rs, r.time = now)
    (hpast : ∀ r ∈ h.backwards, r.time ≤ now) : (h.prepend rs).Ordered := by
  refine List.pairwise_append.mpr ⟨?_, h₀, ?_⟩
  · refine List.pairwise_of_forall_mem_list fun r hr r' hr' => ?_
    rw [hnow r hr, hnow r' hr']
    exact Std.le_refl now
  · intro r hr r' hr'
    rw [hnow r hr]
    exact hpast r' hr'

/-- All records of the last `width` of time, the latest one first. -/
def recent (now : Time) (width : TimeSpan) (h : History) : List Record :=
  h.backwards.filter fun r => now.before width ≤ r.time

/-- What is asked about a window is asked about all records that lie in it. -/
structure Exact (now : Time) (width : TimeSpan) (h : History) : Prop where
  window : h.window now width = h.recent now width
  netGrowthRate : h.netGrowthRate now width =
    if width.seconds ≤ 0.0 then 0.0
    else Float.ofInt ((h.recent now width).map Record.change).sum / width.seconds
  meanDropRemaining? : h.meanDropRemaining? now width =
    (Mean.ofList? (((h.recent now width).filter (·.kind = .dropped)).filterMap fun r =>
      r.remaining.map (·.seconds))).map TimeSpan.mk
  dropsIn : h.dropsIn now width =
    h.backwards.countP fun r => now.before width ≤ r.time ∧ r.kind = .dropped

theorem netGain_eq_sum (rs : List Record) : netGain rs = (rs.map Record.change).sum := by
  have hfold : ∀ n : Int,
      rs.foldl (fun n r => n + r.change) n = n + (rs.map Record.change).sum := by
    induction rs with
    | nil =>
      intro n
      simp
    | cons r rest ih =>
      intro n
      rw [List.foldl_cons, ih, List.map_cons, List.sum_cons, Int.add_assoc]
  rw [netGain, hfold, Int.zero_add]

/-- The first record that is too old is followed by older ones only. -/
theorem Ordered.window_eq (h₀ : h.Ordered) (now : Time) (width : TimeSpan) :
    h.window now width = h.recent now width := by
  refine takeWhile_eq_filter (h₀.imp fun {r r'} hle hnew => ?_)
  rw [decide_eq_true_iff] at hnew ⊢
  exact Std.le_trans hnew hle

theorem Ordered.exact (h₀ : h.Ordered) (now : Time) (width : TimeSpan) : Exact now width h where
  window := h₀.window_eq now width
  netGrowthRate := by rw [netGrowthRate, netGain_eq_sum, h₀.window_eq]
  meanDropRemaining? := by rw [meanDropRemaining?, drops, h₀.window_eq]
  dropsIn := by
    rw [dropsIn, drops, h₀.window_eq, recent, List.filter_filter, ← List.countP_eq_length_filter]
    refine List.countP_congr fun r _ => ?_
    simp [and_comm]

end History

end OppNet
