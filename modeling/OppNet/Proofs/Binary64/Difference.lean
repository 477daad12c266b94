import OppNet.Proofs.Binary64.Merit

/-!
# OppNet.Proofs.Binary64.Difference

The difference of two doubles, the second one not above the first, is not below zero, whatever is
rounded.

* `le_of_height_le`: aligned to one exponent, mantissas are in the order of the heights.
* `zero_le_sub`: the sign of a difference, where the first double is finite.
* `TimeSpan.le_of_not_lt`, `TimeSpan.zero_le_sub`: the same for durations, which are ordered along
  the line of all doubles.
-/

open Float.Model Float.Model.UnpackedFloat

namespace OppNet.Binary64

theorem zero_le_pack {u : UnpackedFloat} (h : Plus u) (hu : u ≠ .notANumber) :
    (0.0 : Float) ≤ .ofModel (pack u) := by
  have hplus := unsigned_iff.mp (unsigned_pack h)
  have hnumber := ne_notANumber (isNaN_pack h hu)
  rw [le_iff, unpack_zero]
  generalize (Float.ofModel (pack u)).toModel.unpack = v at hplus hnumber ⊢
  cases v with
  | notANumber => exact absurd rfl hnumber
  | infinity s =>
    rw [show s = .positive from hplus]
    rfl
  | zero s => rfl
  | finite s m e hm =>
    rw [show s = .positive from hplus]
    rfl

theorem zero_le_pack_infinity : (0.0 : Float) ≤ .ofModel (pack (.infinity .positive)) :=
  zero_le_pack (u := .infinity .positive) rfl nofun

theorem zero_le_pack_finite (m : Nat) (e : Int) (hm : 0 < m) :
    (0.0 : Float) ≤ .ofModel (pack (.finite .positive m e hm)) :=
  zero_le_pack (u := .finite .positive m e hm) rfl nofun

theorem normalize_ne_notANumber {m : Int} (h : 0 ≤ m) (e : Int) :
    normalize .binary64 m e .positive ≠ .notANumber := by
  rcases Int.le_iff_lt_or_eq.mp h with hlt | rfl
  · rw [normalize_of_pos hlt]
    exact roundWithAccuracy_ne_notANumber _ _ _
  · rw [normalize_zero]
    nofun

theorem units_le_of_place_le {v w : Nat} (h : place v ≤ place w) (hv : OnGrid v) : v ≤ w := by
  refine Nat.le_of_not_lt fun hlt => ?_
  have := place_lt_place hlt hv
  omega

theorem le_of_units_le {a b : Nat} {e : Int} (h : units a e ≤ units b e) : a ≤ b := by
  refine Nat.le_of_not_lt fun hlt => ?_
  have := units_lt hlt e
  omega

section

variable {s t : Sign} {m₁ m₂ : Nat} {e₁ e₂ : Int} {hm₁ : 0 < m₁} {hm₂ : 0 < m₂}

/-- Written with one exponent, two finite doubles have their mantissas in the order of heights. -/
theorem le_of_height_le (h₁ : InRange (.finite s m₁ e₁ hm₁)) (h₂ : InRange (.finite t m₂ e₂ hm₂))
    (h : height (.finite s m₁ e₁ hm₁) ≤ height (.finite t m₂ e₂ hm₂)) {E : Int} (hE : -1074 ≤ E)
    (hE₁ : E ≤ e₁) (hE₂ : E ≤ e₂) :
    s.apply ((decreaseExponent m₁ e₁ E).1 : Int) ≤ t.apply ((decreaseExponent m₂ e₂ E).1 : Int) := by
  have hunits₁ := units_decreaseExponent (m := m₁) hE₁ hE
  have hunits₂ := units_decreaseExponent (m := m₂) hE₂ hE
  have hneg₁ := h₁.place_pos
  have hneg₂ := h₂.place_pos
  rw [height_finite, height_finite] at h
  generalize (decreaseExponent m₁ e₁ E).1 = a at hunits₁ ⊢
  generalize (decreaseExponent m₂ e₂ E).1 = b at hunits₂ ⊢
  cases s with
  | negative =>
    cases t with
    | negative =>
      have hplace : place (units m₂ e₂) ≤ place (units m₁ e₁) := by
        simp only [signed] at h
        omega
      have hle := units_le_of_place_le hplace h₂.1.onGrid
      rw [← hunits₁, ← hunits₂] at hle
      exact Int.neg_le_neg (Int.ofNat_le.mpr (le_of_units_le hle))
    | positive =>
      change -(a : Int) ≤ (b : Int)
      omega
  | positive =>
    cases t with
    | negative =>
      simp only [signed] at h
      omega
    | positive =>
      have hplace : place (units m₁ e₁) ≤ place (units m₂ e₂) := Int.ofNat_le.mp h
      have hle := units_le_of_place_le hplace h₁.1.onGrid
      rw [← hunits₁, ← hunits₂] at hle
      exact Int.ofNat_le.mpr (le_of_units_le hle)

theorem plus_sub_finite (h₁ : InRange (.finite s m₁ e₁ hm₁)) (h₂ : InRange (.finite t m₂ e₂ hm₂))
    (h : height (.finite s m₁ e₁ hm₁) ≤ height (.finite t m₂ e₂ hm₂)) :
    Plus (.sub .binary64 (.finite t m₂ e₂ hm₂) (.finite s m₁ e₁ hm₁)) ∧
      UnpackedFloat.sub .binary64 (.finite t m₂ e₂ hm₂) (.finite s m₁ e₁ hm₁) ≠ .notANumber := by
  have hE : -1074 ≤ min e₂ e₁ := Int.le_min.mpr ⟨h₂.1.le, h₁.1.le⟩
  have hle := le_of_height_le h₁ h₂ h hE (Int.min_le_right _ _) (Int.min_le_left _ _)
  have hnonneg := Int.sub_nonneg_of_le hle
  exact ⟨plus_normalize hnonneg _, normalize_ne_notANumber hnonneg _⟩

end

/-- `y - x` is not below zero where `x ≤ y`; `x` may be the negative infinity. -/
theorem zero_le_sub {x y : Float} (hy : y.isFinite = true) (h : x ≤ y) : 0.0 ≤ y - x := by
  have hyfinite : y.toModel.unpack.isFinite = true := hy
  have hx := inRange_unpack x
  have hy := inRange_unpack y
  rw [le_iff, UnpackedFloat.le] at h
  change (0.0 : Float) ≤ .ofModel (pack (.sub .binary64 y.toModel.unpack x.toModel.unpack))
  generalize x.toModel.unpack = u at h hx ⊢
  generalize y.toModel.unpack = v at h hy hyfinite ⊢
  have hv : v ≠ .notANumber := by
    rintro rfl
    cases hyfinite
  have hu : u ≠ .notANumber := by
    rintro rfl
    rw [notANumber_compare] at h
    cases h
  rw [compare_eq_height hx hy hu hv, Option.any_some, Int.isLE_compare] at h
  cases v with
  | notANumber => exact absurd rfl hv
  | infinity t => cases hyfinite
  | zero t =>
    cases u with
    | notANumber => exact absurd rfl hu
    | infinity s =>
      cases s with
      | negative => exact zero_le_pack_infinity
      | positive => cases t <;> exact absurd h (by decide)
    | zero s => cases s <;> cases t <;> decide
    | finite s m e hm =>
      cases s with
      | negative => exact zero_le_pack_finite m e hm
      | positive => exact absurd h (Int.not_le.mpr hx.positive)
  | finite t m e hm =>
    cases u with
    | notANumber => exact absurd rfl hu
    | infinity s =>
      cases s with
      | negative => exact zero_le_pack_infinity
      | positive => exact absurd h (Int.not_le.mpr hy.between.2)
    | zero s =>
      cases t with
      | negative => exact absurd h (Int.not_le.mpr hy.negative)
      | positive => exact zero_le_pack_finite m e hm
    | finite s m' e' hm' =>
      obtain ⟨hplus, hnumber⟩ := plus_sub_finite hx hy h
      exact zero_le_pack hplus hnumber

theorem le_of_rank_le {x y : Float} (hy : y.isNaN = false)
    (h : (rank x).toNat ≤ (rank y).toNat) : x ≤ y := by
  have hheight := height_le_of_rank_le h
  have hx : x.isNaN = false := by
    rw [← Bool.not_eq_true, isNaN_iff]
    intro hnan
    have hlt := height_lt_notANumber (inRange_unpack y) (ne_notANumber hy)
    rw [hnan] at hheight
    omega
  exact (le_iff_height hx hy).mpr hheight

end OppNet.Binary64

namespace OppNet.TimeSpan

open Binary64

/-- A time that has passed is numerically not above a finite duration that is not less. -/
theorem since_le_of_not_lt {t s : Time} {limit : TimeSpan} (hlimit : limit.seconds.isFinite = true)
    (h : ¬ limit < t.since s) : (t.since s).seconds ≤ limit.seconds := by
  have hnumber := isNaN_of_isFinite hlimit
  have hd : (t.since s).seconds.isNaN = false := by
    refine Bool.eq_false_iff.mpr fun hnan => h (lt_of_rankOf_lt ?_)
    refine Double.rankOf_lt_of_isNaN hnumber hnan (Double.isNegative_outcome t.double ?_)
    rw [Time.seconds_since] at hnan
    exact hnan
  refine le_of_rank_le hnumber (Nat.le_of_not_lt fun hlt => h (lt_of_rankOf_lt ?_))
  rw [Double.rankOf_word hnumber, Double.rankOf_word hd]
  exact hlt

theorem zero_le_sub_since {t s : Time} {limit : TimeSpan} (hlimit : limit.seconds.isFinite = true)
    (h : ¬ limit < t.since s) : 0.0 ≤ (limit - t.since s).seconds := by
  rw [seconds_sub]
  exact Binary64.zero_le_sub hlimit (since_le_of_not_lt hlimit h)

end OppNet.TimeSpan
