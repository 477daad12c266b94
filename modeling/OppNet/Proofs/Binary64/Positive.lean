import OppNet.Proofs.Binary64.Difference
import OppNet.Proofs.Binary64.Quotient

/-!
# OppNet.Proofs.Binary64.Positive

Doubles above zero, which are neither the NaN nor negative, and doubles that are not below it.

* `pos_iff`: what they are made of.
* `add_pos`, `le_add_of_pos`: sums of them lie above zero, and not below either part.
* `zero_le_one_div`: their inverses are not below zero.
* `not_mul_lt_zero`: of two factors that are not below zero, the product is not below it either.
* `le_largerOf`: the larger of two doubles is not below the second one.
-/

open Float.Model Float.Model.UnpackedFloat

namespace OppNet.Binary64

variable {x y : Float}

/-- A positive amount, finite or not. -/
def Positive : UnpackedFloat → Prop
  | .infinity s => s = .positive
  | .finite s _ _ _ => s = .positive
  | _ => False

theorem pos_iff : 0.0 < x ↔ Positive x.toModel.unpack := by
  rw [lt_iff, unpack_zero]
  cases x.toModel.unpack with
  | notANumber => exact iff_of_false nofun nofun
  | zero s => exact iff_of_false nofun nofun
  | infinity s =>
    cases s with
    | negative => exact iff_of_false nofun nofun
    | positive => exact iff_of_true rfl rfl
  | finite s m e hm =>
    cases s with
    | negative => exact iff_of_false nofun nofun
    | positive => exact iff_of_true rfl rfl

theorem Positive.plus {u : UnpackedFloat} (h : Positive u) : Plus u := by
  cases u with
  | notANumber => trivial
  | zero s => cases h
  | infinity s => exact h
  | finite s m e hm => exact h

theorem unsigned_of_pos (h : 0.0 < x) : Unsigned x := unsigned_iff.mpr (pos_iff.mp h).plus

theorem isNaN_of_pos (h : 0.0 < x) : x.isNaN = false := (isNaN_of_lt h).2

theorem pos_of_le (hx : 0.0 < x) (h : x ≤ y) : 0.0 < y := by
  obtain ⟨hxn, hyn⟩ := isNaN_of_le h
  have hz : (0.0 : Float).isNaN = false := by decide
  rw [le_iff_height hxn hyn] at h
  rw [lt_iff_height hz hxn] at hx
  exact (lt_iff_height hz hyn).mpr (Int.lt_of_lt_of_le hx h)

theorem lt_of_not_le (hx : x.isNaN = false) (hy : y.isNaN = false) (h : ¬ y ≤ x) : x < y := by
  rw [le_iff_height hy hx, Int.not_le] at h
  exact (lt_iff_height hx hy).mpr h

/-! ### Sums -/

theorem plus_add {u v : UnpackedFloat} (hu : Positive u) (hv : Positive v) :
    Plus (.add .binary64 u v) ∧ UnpackedFloat.add .binary64 u v ≠ .notANumber := by
  cases u with
  | notANumber => cases hu
  | zero s => cases hu
  | infinity s =>
    cases hu
    cases v with
    | notANumber => cases hv
    | zero t => cases hv
    | infinity t =>
      cases hv
      exact ⟨rfl, nofun⟩
    | finite t m e hm => exact ⟨rfl, nofun⟩
  | finite s m₁ e₁ hm₁ =>
    cases hu
    cases v with
    | notANumber => cases hv
    | zero t => cases hv
    | infinity t => exact ⟨hv, nofun⟩
    | finite t m₂ e₂ hm₂ =>
      cases hv
      have hnonneg := Int.add_nonneg
        (Int.natCast_nonneg (decreaseExponent m₁ e₁ (min e₁ e₂)).1)
        (Int.natCast_nonneg (decreaseExponent m₂ e₂ (min e₁ e₂)).1)
      exact ⟨plus_normalize hnonneg _, normalize_ne_notANumber hnonneg _⟩

theorem isNaN_add (hx : 0.0 < x) (hy : 0.0 < y) : (x + y).isNaN = false := by
  obtain ⟨hplus, hnumber⟩ := plus_add (pos_iff.mp hx) (pos_iff.mp hy)
  exact isNaN_pack hplus hnumber

theorem le_add_of_pos (hx : 0.0 < x) (hy : 0.0 < y) : x ≤ x + y :=
  le_of_rank_le (isNaN_add hx hy) (rank_le_rank_add x (unsigned_of_pos hy))

theorem add_pos (hx : 0.0 < x) (hy : 0.0 < y) : 0.0 < x + y :=
  pos_of_le hx (le_add_of_pos hx hy)

/-! ### Inverses -/

/-- An inverse may have been rounded down to zero, or up to infinity. -/
theorem zero_le_one_div (hx : 0.0 < x) : 0.0 ≤ 1.0 / x := by
  have hpos := pos_iff.mp hx
  change 0.0 ≤ Float.ofModel (pack (.div .binary64 (1.0 : Float).toModel.unpack x.toModel.unpack))
  rw [unpack_one]
  generalize x.toModel.unpack = u at hpos ⊢
  refine zero_le_pack (plus_div (show Plus (.finite .positive _ _ _) from rfl) hpos.plus) ?_
  cases u with
  | notANumber => cases hpos
  | zero s => cases hpos
  | infinity s => nofun
  | finite s m e hm =>
    cases hpos
    exact roundWithAccuracy_ne_notANumber _ _ _

/-! ### Products -/

/-- Not below zero: without a sign, or a zero of either sign. -/
def Nonnegative (u : UnpackedFloat) : Prop := Plus u ∨ ∃ s, u = .zero s

theorem not_lt_zero_iff : ¬ x < 0.0 ↔ Nonnegative x.toModel.unpack := by
  rw [lt_iff, unpack_zero]
  cases x.toModel.unpack with
  | notANumber => exact iff_of_true nofun (.inl trivial)
  | zero s => exact iff_of_true nofun (.inr ⟨s, rfl⟩)
  | infinity s =>
    cases s with
    | negative => exact iff_of_false (fun h => h rfl) nofun
    | positive => exact iff_of_true nofun (.inl rfl)
  | finite s m e hm =>
    cases s with
    | negative => exact iff_of_false (fun h => h rfl) nofun
    | positive => exact iff_of_true nofun (.inl rfl)

theorem not_pack_lt_zero {u : UnpackedFloat} (h : Nonnegative u) :
    ¬ Float.ofModel (pack u) < 0.0 := by
  rcases h with hplus | ⟨s, rfl⟩
  · exact not_lt_zero_iff.mpr (.inl (unsigned_iff.mp (unsigned_pack hplus)))
  · cases s with
    | negative => decide
    | positive => decide

/-- With a factor of zero the product is a zero of some sign, or the NaN. -/
theorem Nonnegative.mul {u v : UnpackedFloat} (hu : Nonnegative u) (hv : Nonnegative v) :
    Nonnegative (.mul .binary64 u v) := by
  rcases hu with hu | ⟨s, rfl⟩
  · rcases hv with hv | ⟨t, rfl⟩
    · exact .inl (plus_mul hu hv)
    · cases u with
      | notANumber => exact .inl trivial
      | infinity s => exact .inl trivial
      | zero s => exact .inr ⟨_, rfl⟩
      | finite s m e hm => exact .inr ⟨_, rfl⟩
  · cases v with
    | notANumber => exact .inl trivial
    | infinity t => exact .inl trivial
    | zero t => exact .inr ⟨_, rfl⟩
    | finite t m e hm => exact .inr ⟨_, rfl⟩

theorem not_mul_lt_zero (hx : ¬ x < 0.0) (hy : ¬ y < 0.0) : ¬ x * y < 0.0 :=
  not_pack_lt_zero ((not_lt_zero_iff.mp hx).mul (not_lt_zero_iff.mp hy))

/-! ### The larger of two -/

theorem le_largerOf (hy : y.isNaN = false) : y ≤ largerOf x y := by
  unfold largerOf
  split
  · exact le_refl_of_number hy
  · rename_i h
    simp only [Bool.or_eq_true, decide_eq_true_eq, not_or, Bool.not_eq_true] at h
    exact (not_lt_iff_le h.1 hy).mp h.2

end OppNet.Binary64
