import OppNet.Binary64

/-!
# OppNet.Proofs.Binary64.Rounding

Rounding to doubles, as arithmetic of natural numbers. Amounts are counted in units of the least
positive double, so that every finite double is a natural number of units, and `place` numbers the
doubles from zero on.

* `place_mono`, `place_lt_place`: places follow amounts, strictly where the larger amount is itself
  a double (`OnGrid`).
* `rounded`: the number of the double that an amount is rounded to, which is the one below it or the
  next one. It follows amounts too (`rounded_mono`).
* `round_exact`, `round_spec`: rounding goes to that double.
-/

open Float.Model Float.Model.UnpackedFloat

namespace OppNet.Binary64

/-- The distance of neighbouring doubles around an amount, as a power of two. -/
def gap (v : Nat) : Nat := v.log2 - 52

/-- The number of the largest double that is not above the amount. -/
def place (v : Nat) : Nat := gap v * 2 ^ 52 + v / 2 ^ gap v

/-- The amount is itself a double. -/
def OnGrid (v : Nat) : Prop := v % 2 ^ gap v = 0

/-! ### Places -/

theorem log2_mono {v w : Nat} (h : v ≤ w) : v.log2 ≤ w.log2 := by
  by_cases hv : v = 0
  · simp [hv]
  · exact (Nat.le_log2 (by omega)).mpr (Nat.le_trans (Nat.log2_self_le hv) h)

theorem gap_mono {v w : Nat} (h : v ≤ w) : gap v ≤ gap w := by
  have := log2_mono h
  unfold gap
  omega

theorem quotient_lt (v : Nat) : v / 2 ^ gap v < 2 ^ 53 := by
  rw [Nat.div_lt_iff_lt_mul (Nat.two_pow_pos _), ← Nat.pow_add]
  refine Nat.lt_of_lt_of_le Nat.lt_log2_self (Nat.pow_le_pow_right (by decide) ?_)
  unfold gap
  omega

theorem le_quotient {v : Nat} (h : 0 < gap v) : 2 ^ 52 ≤ v / 2 ^ gap v := by
  have hv : v ≠ 0 := by
    rintro rfl
    simp [gap] at h
  rw [Nat.le_div_iff_mul_le (Nat.two_pow_pos _), ← Nat.pow_add]
  refine Nat.le_trans (Nat.pow_le_pow_right (by decide) ?_) (Nat.log2_self_le hv)
  unfold gap at h ⊢
  omega

/-- Across a change of the gap, places differ whatever the quotients are. -/
theorem place_lt_of_gap_lt {v w : Nat} (h : gap v < gap w) : place v < place w := by
  have hv := quotient_lt v
  have hw := le_quotient (v := w) (by omega)
  have : (gap v + 1) * 2 ^ 52 ≤ gap w * 2 ^ 52 := Nat.mul_le_mul_right _ h
  unfold place
  omega

theorem place_mono {v w : Nat} (h : v ≤ w) : place v ≤ place w := by
  rcases Nat.lt_or_eq_of_le (gap_mono h) with hg | hg
  · exact Nat.le_of_lt (place_lt_of_gap_lt hg)
  · unfold place
    rw [hg]
    exact Nat.add_le_add_left (Nat.div_le_div_right h) _

theorem place_lt_place {v w : Nat} (h : v < w) (hw : OnGrid w) : place v < place w := by
  rcases Nat.lt_or_eq_of_le (gap_mono (Nat.le_of_lt h)) with hg | hg
  · exact place_lt_of_gap_lt hg
  · have hmul : w / 2 ^ gap w * 2 ^ gap w = w := Nat.div_mul_cancel (Nat.dvd_of_mod_eq_zero hw)
    have hq : v / 2 ^ gap w < w / 2 ^ gap w := by
      rw [Nat.div_lt_iff_lt_mul (Nat.two_pow_pos _), hmul]
      exact h
    unfold place
    rw [hg]
    exact Nat.add_lt_add_left hq _

/-! ### Mantissas and exponents -/

/-- `m * 2 ^ e` in units, for an exponent that is not below that of the unit. -/
def units (m : Nat) (e : Int) : Nat := m * 2 ^ (e + 1074).toNat

/-- Written with a smaller exponent a longer mantissa stands for the same amount. -/
theorem units_mul_two_pow {m k : Nat} {e e' : Int} (h : e = e' + k) (he' : -1074 ≤ e') :
    units (m * 2 ^ k) e' = units m e := by
  have hsplit : (e + 1074).toNat = k + (e' + 1074).toNat := by omega
  rw [units, units, hsplit, Nat.pow_add, Nat.mul_assoc]

theorem units_mono {a b : Nat} (h : a ≤ b) (e : Int) : units a e ≤ units b e :=
  Nat.mul_le_mul_right _ h

theorem units_lt {a b : Nat} (h : a < b) (e : Int) : units a e < units b e :=
  Nat.mul_lt_mul_of_pos_right h (Nat.two_pow_pos _)

theorem units_lt_iff {m₁ m₂ : Nat} {e₁ e₂ : Int} (he₁ : -1074 ≤ e₁) (he : e₁ ≤ e₂) :
    units m₁ e₁ < units m₂ e₂ ↔ m₁ < m₂ * 2 ^ (e₂ - e₁).toNat := by
  have hexp : e₂ = e₁ + (e₂ - e₁).toNat := by omega
  rw [← units_mul_two_pow (m := m₂) hexp he₁]
  exact Nat.mul_lt_mul_right (Nat.two_pow_pos _)

/-- The one mantissa and exponent of an amount that doubles are stored with. -/
structure Canonical (m : Nat) (e : Int) : Prop where
  pos : 0 < m
  lt : m < 2 ^ 53
  le : -1074 ≤ e
  normal : e = -1074 ∨ 2 ^ 52 ≤ m

theorem log2_units {m : Nat} (hm : 0 < m) (e : Int) :
    (units m e).log2 = m.log2 + (e + 1074).toNat := by
  have hpos : units m e ≠ 0 := Nat.pos_iff_ne_zero.mp (Nat.mul_pos hm (Nat.two_pow_pos _))
  rw [Nat.log2_eq_iff hpos, units, Nat.pow_add, Nat.add_right_comm, Nat.pow_add _ (m.log2 + 1)]
  constructor
  · exact Nat.mul_le_mul_right _ (Nat.log2_self_le (by omega))
  · exact Nat.mul_lt_mul_of_pos_right Nat.lt_log2_self (Nat.two_pow_pos _)

theorem Canonical.gap_units {m : Nat} {e : Int} (h : Canonical m e) :
    gap (units m e) = (e + 1074).toNat := by
  have hlt : m.log2 < 53 := (Nat.log2_lt (by have := h.pos; omega)).mpr h.lt
  rw [gap, log2_units h.pos]
  rcases h.normal with rfl | hn
  · simp only [Int.add_left_neg, Int.toNat_zero]
    omega
  · have : 52 ≤ m.log2 := (Nat.le_log2 (by have := h.pos; omega)).mpr hn
    omega

theorem Canonical.place_units {m : Nat} {e : Int} (h : Canonical m e) :
    place (units m e) = (e + 1074).toNat * 2 ^ 52 + m := by
  rw [place, h.gap_units, units, Nat.mul_div_cancel _ (Nat.two_pow_pos _)]

theorem Canonical.onGrid {m : Nat} {e : Int} (h : Canonical m e) : OnGrid (units m e) := by
  rw [OnGrid, h.gap_units, units, Nat.mul_mod_left]

theorem Canonical.ext {m m' : Nat} {e e' : Int} (h : Canonical m e) (h' : Canonical m' e')
    (hp : place (units m e) = place (units m' e')) : m = m' ∧ e = e' := by
  have := h.normal
  have := h.lt
  have := h.le
  have := h'.normal
  have := h'.lt
  have := h'.le
  rw [h.place_units, h'.place_units] at hp
  omega

theorem Canonical.log2_eq {m : Nat} {e : Int} (h : Canonical m e) (he : -1074 < e) :
    m.log2 = 52 := by
  have hpos := h.pos
  have hlow : 2 ^ 52 ≤ m := h.normal.resolve_left (by omega)
  have := (Nat.le_log2 (by omega)).mpr hlow
  have := (Nat.log2_lt (by omega)).mpr h.lt
  omega

theorem canonical_two_pow {e : Int} (he : -1074 ≤ e) : Canonical (2 ^ 52) e :=
  ⟨by decide, by decide, he, .inr (Nat.le_refl _)⟩

/-! ### Shifting and rounding a mantissa -/

theorem shift_add (em : ExtendedMantissa) (j k : Nat) : em >>> (j + k) = em >>> j >>> k := by
  induction k with
  | zero => rfl
  | succ k ih =>
    change (em >>> (j + k)).shiftRightOne = (em >>> j >>> k).shiftRightOne
    rw [ih]

theorem mantissa_shift (em : ExtendedMantissa) (k : Nat) :
    (em >>> k).mantissa = em.mantissa / 2 ^ k := by
  induction k with
  | zero => simp [HShiftRight.hShiftRight, Nat.repeat]
  | succ k ih =>
    change (em >>> k).mantissa / 2 = _
    rw [ih, Nat.div_div_eq_div_mul, Nat.pow_succ]

theorem shift_mul_two_pow (m k : Nat) :
    (⟨m * 2 ^ k, false, false⟩ : ExtendedMantissa) >>> k = ⟨m, false, false⟩ := by
  induction k with
  | zero => simp [HShiftRight.hShiftRight, Nat.repeat]
  | succ k ih =>
    have hone : (⟨m * 2 ^ (k + 1), false, false⟩ : ExtendedMantissa) >>> 1 =
        ⟨m * 2 ^ k, false, false⟩ := by
      have hsplit : m * 2 ^ (k + 1) = m * 2 ^ k * 2 := by rw [Nat.pow_succ, Nat.mul_assoc]
      change ExtendedMantissa.shiftRightOne ⟨m * 2 ^ (k + 1), false, false⟩ = _
      simp [ExtendedMantissa.shiftRightOne, hsplit]
    rw [Nat.add_comm, shift_add, Nat.add_comm, hone, ih]

@[simp] theorem mantissa_ofMantissaAndAccuracy (m : Nat) (a : Accuracy) :
    (ExtendedMantissa.ofMantissaAndAccuracy m a).mantissa = m := by
  cases a with
  | exact => rfl
  | inexact o => cases o <;> rfl

theorem le_roundedMantissa (em : ExtendedMantissa) : em.mantissa ≤ em.roundedMantissa := by
  obtain ⟨m, r, s⟩ := em
  cases r <;> cases s <;>
    simp [ExtendedMantissa.roundedMantissa, ExtendedMantissa.accuracy,
      Accuracy.roundToNearestEven]

theorem roundedMantissa_le (em : ExtendedMantissa) : em.roundedMantissa ≤ em.mantissa + 1 := by
  obtain ⟨m, r, s⟩ := em
  cases r <;> cases s <;>
    simp [ExtendedMantissa.roundedMantissa, ExtendedMantissa.accuracy,
      Accuracy.roundToNearestEven]
  omega

/-- A mantissa and the bits below it as one number. -/
def quarters (em : ExtendedMantissa) : Nat :=
  4 * em.mantissa + 2 * em.roundBit.toNat + em.stickyBit.toNat

theorem quarters_shiftRightOne (em : ExtendedMantissa) :
    quarters em.shiftRightOne = 2 * (quarters em / 4) + min 1 (quarters em % 4) := by
  obtain ⟨m, r, s⟩ := em
  rcases Nat.mod_two_eq_zero_or_one m with hm | hm <;> cases r <;> cases s <;>
    simp [quarters, ExtendedMantissa.shiftRightOne, hm] <;> omega

theorem quarters_shift_mono {em em' : ExtendedMantissa} (h : quarters em ≤ quarters em') (k : Nat) :
    quarters (em >>> k) ≤ quarters (em' >>> k) := by
  induction k with
  | zero => exact h
  | succ k ih =>
    change quarters (em >>> k).shiftRightOne ≤ quarters (em' >>> k).shiftRightOne
    rw [quarters_shiftRightOne, quarters_shiftRightOne]
    omega

theorem roundedMantissa_mono {em em' : ExtendedMantissa} (h : quarters em ≤ quarters em') :
    em.roundedMantissa ≤ em'.roundedMantissa := by
  have hle := roundedMantissa_le em
  have hle' := le_roundedMantissa em'
  obtain ⟨m, r, s⟩ := em
  obtain ⟨m', r', s'⟩ := em'
  have hr' := r'.toNat_le
  have hs' := s'.toNat_le
  rcases Nat.lt_or_ge m m' with hlt | hge
  · exact Nat.le_trans hle (Nat.le_trans hlt hle')
  · -- The bits below decide, and half of a unit goes up or down alike for the same mantissa.
    obtain rfl : m = m' := by
      simp only [quarters] at h
      omega
    cases r <;> cases s <;> cases r' <;> cases s' <;>
      simp only [quarters, ExtendedMantissa.roundedMantissa, ExtendedMantissa.accuracy,
        Accuracy.roundToNearestEven, Bool.toNat_true, Bool.toNat_false] at h ⊢ <;>
      omega

/-! ### Rounded places -/

/-- The number of the double that an amount is rounded to. -/
def rounded (v : Nat) : Nat :=
  gap v * 2 ^ 52 + ((⟨v, false, false⟩ : ExtendedMantissa) >>> gap v).roundedMantissa

theorem place_le_rounded (v : Nat) : place v ≤ rounded v := by
  have := le_roundedMantissa ((⟨v, false, false⟩ : ExtendedMantissa) >>> gap v)
  rw [mantissa_shift] at this
  exact Nat.add_le_add_left this _

theorem rounded_le (v : Nat) : rounded v ≤ place v + 1 := by
  have := roundedMantissa_le ((⟨v, false, false⟩ : ExtendedMantissa) >>> gap v)
  rw [mantissa_shift] at this
  rw [rounded, place, Nat.add_assoc]
  exact Nat.add_le_add_left this _

theorem rounded_mono {v w : Nat} (h : v ≤ w) : rounded v ≤ rounded w := by
  rcases Nat.lt_or_eq_of_le (gap_mono h) with hg | hg
  · have hlt := place_lt_of_gap_lt hg
    exact Nat.le_trans (rounded_le v) (Nat.le_trans hlt (place_le_rounded w))
  · unfold rounded
    rw [hg]
    refine Nat.add_le_add_left (roundedMantissa_mono (quarters_shift_mono ?_ _)) _
    simp only [quarters, Bool.toNat_false]
    omega

theorem OnGrid.rounded_eq {v : Nat} (h : OnGrid v) : rounded v = place v := by
  have hv : v / 2 ^ gap v * 2 ^ gap v = v := Nat.div_mul_cancel (Nat.dvd_of_mod_eq_zero h)
  have hshift := shift_mul_two_pow (v / 2 ^ gap v) (gap v)
  rw [hv] at hshift
  rw [rounded, hshift]
  rfl

/-! ### Rounding an amount -/

theorem targetExponent_eq (m : Nat) (e : Int) :
    Format.binary64.targetExponent (totalExponent m e) = max (m.log2 + e - 52) (-1074) := by
  have hbits : Format.binary64.mantissaBits = 53 := rfl
  have hmin : Format.binary64.minExponent = -1074 := rfl
  rw [Format.targetExponent, totalExponent, hbits, hmin]
  omega

theorem targetExponent_eq_gap {m : Nat} {e : Int} (hm : 0 < m) (he : -1074 ≤ e) :
    Format.binary64.targetExponent (totalExponent m e) = gap (units m e) - 1074 := by
  rw [targetExponent_eq, gap, log2_units hm]
  omega

/-- What is left of a mantissa at the exponent that its amount is rounded at. -/
def trimmed (m : Nat) (e : Int) (a : Accuracy) : ExtendedMantissa :=
  ExtendedMantissa.ofMantissaAndAccuracy m a >>> (gap (units m e) - (e + 1074).toNat)

theorem mantissa_trimmed {m : Nat} {e : Int} (hle : (e + 1074).toNat ≤ gap (units m e))
    (a : Accuracy) : (trimmed m e a).mantissa = units m e / 2 ^ gap (units m e) := by
  obtain ⟨k, hk⟩ : ∃ k, gap (units m e) = k + (e + 1074).toNat :=
    ⟨_, (Nat.sub_add_cancel hle).symm⟩
  rw [trimmed, mantissa_shift, mantissa_ofMantissaAndAccuracy, hk, Nat.add_sub_cancel, Nat.pow_add,
    units, Nat.mul_div_mul_right _ _ (Nat.two_pow_pos _)]

theorem trimmed_exact {m : Nat} {e : Int} (hle : (e + 1074).toNat ≤ gap (units m e)) :
    trimmed m e .exact = (⟨units m e, false, false⟩ : ExtendedMantissa) >>> gap (units m e) := by
  have hgap : (⟨units m e, false, false⟩ : ExtendedMantissa) >>> gap (units m e) =
      (⟨units m e, false, false⟩ : ExtendedMantissa) >>> (e + 1074).toNat >>>
        (gap (units m e) - (e + 1074).toNat) := by
    rw [← shift_add, Nat.add_sub_cancel' hle]
  have hunits : (⟨units m e, false, false⟩ : ExtendedMantissa) >>> (e + 1074).toNat =
      ⟨m, false, false⟩ := shift_mul_two_pow m (e + 1074).toNat
  rw [hgap, hunits]
  rfl

theorem shiftToTargetExponent_eq {m : Nat} {e : Int} (hm : 0 < m) (he : -1074 ≤ e)
    (hle : (e + 1074).toNat ≤ gap (units m e)) (a : Accuracy) :
    shiftToTargetExponent .binary64 m e a =
      (trimmed m e a, (gap (units m e) : Int) - 1074) := by
  have hshift : ((gap (units m e) : Int) - 1074 - e).toNat =
      gap (units m e) - (e + 1074).toNat := by omega
  unfold shiftToTargetExponent shiftToExponent
  rw [targetExponent_eq_gap hm he]
  dsimp only
  rw [hshift]
  refine Prod.ext rfl ?_
  change e + ((gap (units m e) - (e + 1074).toNat : Nat) : Int) = gap (units m e) - 1074
  omega

/-- What is rounded has at most one bit too many, and the second shift drops it. -/
theorem shiftToTargetExponent_carry {r t : Nat} (hr : r ≤ 2 ^ 53) (hn : t = 0 ∨ 2 ^ 52 ≤ r)
    (hpos : 0 < r) :
    ∃ em e, shiftToTargetExponent .binary64 r ((t : Int) - 1074) .exact = (em, e) ∧
      Canonical em.mantissa e ∧ place (units em.mantissa e) = t * 2 ^ 52 + r := by
  by_cases hlt : r < 2 ^ 53
  · have hcan : Canonical r ((t : Int) - 1074) := ⟨hpos, hlt, by omega, by omega⟩
    have ht : gap (units r ((t : Int) - 1074)) = t := by
      rw [hcan.gap_units]
      omega
    refine ⟨⟨r, false, false⟩, (t : Int) - 1074, ?_, hcan, ?_⟩
    · unfold shiftToTargetExponent shiftToExponent
      rw [targetExponent_eq_gap hpos hcan.le, ht]
      simp only [Int.sub_self, Int.toNat_zero]
      exact Prod.ext rfl (by simp)
    · rw [hcan.place_units]
      omega
  · obtain rfl : r = 2 ^ 53 := by omega
    have hcan : Canonical (2 ^ 52) ((t : Int) + 1 - 1074) :=
      ⟨by decide, by decide, by omega, .inr (by decide)⟩
    have ht : Format.binary64.targetExponent (totalExponent (2 ^ 53) ((t : Int) - 1074)) =
        (t : Int) + 1 - 1074 := by
      rw [targetExponent_eq, Nat.log2_two_pow]
      omega
    refine ⟨⟨2 ^ 52, false, false⟩, (t : Int) + 1 - 1074, ?_, hcan, ?_⟩
    · unfold shiftToTargetExponent shiftToExponent
      rw [ht]
      have hone : ((t : Int) + 1 - 1074 - ((t : Int) - 1074)).toNat = 1 := by omega
      dsimp only
      rw [hone]
      exact Prod.ext rfl (show (t : Int) - 1074 + (1 : Nat) = t + 1 - 1074 by omega)
    · rw [hcan.place_units]
      omega

/--
What rounding makes of an amount, of which all but the part described by the accuracy is in the
mantissa.
-/
theorem roundWithAccuracy_spec {m : Nat} {e : Int} (s : Sign) (hm : 0 < m) (he : -1074 ≤ e)
    (hle : (e + 1074).toNat ≤ gap (units m e)) (a : Accuracy) :
    ∃ m' e', ∃ hc : Canonical m' e',
      roundWithAccuracy .binary64 s m e a = .finite s m' e' hc.pos ∧
      place (units m' e') = gap (units m e) * 2 ^ 52 + (trimmed m e a).roundedMantissa := by
  have hmant := mantissa_trimmed hle a
  have hlo := le_roundedMantissa (trimmed m e a)
  have hhi := roundedMantissa_le (trimmed m e a)
  have hlt := quotient_lt (units m e)
  have hnormal : gap (units m e) = 0 ∨ 2 ^ 52 ≤ (trimmed m e a).roundedMantissa := by
    by_cases hg : gap (units m e) = 0
    · exact .inl hg
    · have := le_quotient (v := units m e) (by omega)
      exact .inr (by omega)
  have hpos : 0 < (trimmed m e a).roundedMantissa := by
    rcases hnormal with hg | hn
    · rw [hg, Nat.pow_zero, Nat.div_one] at hmant
      have : 0 < units m e := Nat.mul_pos hm (Nat.two_pow_pos _)
      omega
    · omega
  obtain ⟨em', e', hem', hcan, hplace⟩ :=
    shiftToTargetExponent_carry (r := (trimmed m e a).roundedMantissa) (by omega) hnormal hpos
  refine ⟨em'.mantissa, e', hcan, ?_, hplace⟩
  unfold roundWithAccuracy
  rw [shiftToTargetExponent_eq hm he hle a]
  dsimp only
  rw [hem']
  dsimp only
  rw [dif_neg (Nat.pos_iff_ne_zero.mp hcan.pos)]

/-- Whatever the residue is, rounding goes to the next double at most. -/
theorem roundWithAccuracy_le {m : Nat} {e : Int} (s : Sign) (hm : 0 < m) (he : -1074 ≤ e)
    (hle : (e + 1074).toNat ≤ gap (units m e)) (a : Accuracy) :
    ∃ m' e', ∃ hc : Canonical m' e',
      roundWithAccuracy .binary64 s m e a = .finite s m' e' hc.pos ∧
      place (units m' e') ≤ place (units m e) + 1 := by
  obtain ⟨m', e', hc, hround, hplace⟩ := roundWithAccuracy_spec s hm he hle a
  have hhi := roundedMantissa_le (trimmed m e a)
  rw [mantissa_trimmed hle] at hhi
  refine ⟨m', e', hc, hround, ?_⟩
  rw [hplace, place]
  omega

theorem roundWithAccuracy_exact {m : Nat} {e : Int} (s : Sign) (hm : 0 < m) (he : -1074 ≤ e)
    (hle : (e + 1074).toNat ≤ gap (units m e)) :
    ∃ m' e', ∃ hc : Canonical m' e',
      roundWithAccuracy .binary64 s m e .exact = .finite s m' e' hc.pos ∧
      place (units m' e') = rounded (units m e) := by
  obtain ⟨m', e', hc, hround, hplace⟩ := roundWithAccuracy_spec s hm he hle .exact
  refine ⟨m', e', hc, hround, ?_⟩
  rw [hplace, trimmed_exact hle, rounded]

/-- `decreaseExponent` writes the same amount with more digits. -/
theorem round_exact {m : Nat} {e : Int} (s : Sign) (hm : 0 < m) (he : -1074 ≤ e) :
    ∃ m' e', ∃ hc : Canonical m' e', round .binary64 s m e = .finite s m' e' hc.pos ∧
      place (units m' e') = rounded (units m e) := by
  let k := (e - ((gap (units m e) : Int) - 1074)).toNat
  have hm' : 0 < m <<< k := by
    rw [Nat.shiftLeft_eq]
    exact Nat.mul_pos hm (Nat.two_pow_pos _)
  have hunits : units (m <<< k) (e - k) = units m e := by
    rw [Nat.shiftLeft_eq]
    exact units_mul_two_pow (by omega) (by omega)
  have hround : round .binary64 s m e =
      roundWithAccuracy .binary64 s (m <<< k) (e - k) .exact := by
    unfold UnpackedFloat.round decreaseExponent
    rw [targetExponent_eq_gap hm he]
  rw [hround, ← hunits]
  exact roundWithAccuracy_exact s hm' (by omega) (by rw [hunits]; omega)

/-- An amount is rounded to the double below it, or to the next one. -/
theorem round_spec {m : Nat} {e : Int} (s : Sign) (hm : 0 < m) (he : -1074 ≤ e) :
    ∃ m' e', ∃ hc : Canonical m' e', round .binary64 s m e = .finite s m' e' hc.pos ∧
      place (units m e) ≤ place (units m' e') ∧
      place (units m' e') ≤ place (units m e) + 1 := by
  obtain ⟨m', e', hc, hround, hplace⟩ := round_exact s hm he
  refine ⟨m', e', hc, hround, ?_, ?_⟩
  · rw [hplace]
    exact place_le_rounded _
  · rw [hplace]
    exact rounded_le _

end OppNet.Binary64
