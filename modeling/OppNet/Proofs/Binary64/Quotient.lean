import OppNet.Proofs.Binary64.Merit

/-!
# OppNet.Proofs.Binary64.Quotient

Whole numbers as doubles, and shares of a whole as quotients of these.

* `unpack_ofNat`: a whole number is converted to the double nearest to it.
* `rank_ofNat_mono`: larger numbers have larger doubles, or the same one. `isNaN_ofNat`: however
  large they are, none is the NaN.
* `div_le_one`: the rounded quotient of a double by itself or a larger one is at most one.
* `share_between`: a part divided by the whole lies between zero and one.
* `isNaN_odds`: a whole number divided by the next one is a number.
-/

open Float.Model Float.Model.UnpackedFloat

namespace OppNet.Binary64

theorem unpack_one :
    (1.0 : Float).toModel.unpack = .finite .positive (2 ^ 52) (-52) (by decide) := by
  rfl

/-! ### Whole numbers -/

theorem mul_one {m : Nat} {e : Int} (hc : Canonical m e) (he : -1022 ≤ e) :
    UnpackedFloat.mul .binary64 (.finite .positive m e hc.pos)
      (.finite .positive (2 ^ 52) (-52) (by decide)) = .finite .positive m e hc.pos := by
  have hunits : units (m * 2 ^ 52) (e + -52) = units m e :=
    units_mul_two_pow (by omega) (by omega)
  have hgap : (e + -52 + 1074).toNat ≤ gap (units m e) := by
    rw [hc.gap_units]
    omega
  rw [← hunits] at hgap
  obtain ⟨m', e', hc', hround, hp⟩ := roundWithAccuracy_exact .positive
    (Nat.mul_pos hc.pos (by decide)) (by omega) hgap
  rw [hunits, hc.onGrid.rounded_eq] at hp
  obtain ⟨rfl, rfl⟩ := hc'.ext hc hp
  exact hround

theorem units_one : units (2 ^ 52) (-52) = units 1 0 := by
  rw [← Nat.one_mul (2 ^ 52)]
  exact units_mul_two_pow (by decide) (by decide)

theorem gap_units_nat {n : Nat} (hn : 0 < n) : gap (units n 0) = n.log2 + 1022 := by
  have hunit : ((0 : Int) + 1074).toNat = 1074 := rfl
  rw [gap, log2_units hn, hunit]
  omega

/-- The doubles nearest to the whole numbers up to `2 ^ 64` have no extreme exponents. -/
theorem exponent_of_nat {n m : Nat} {e : Int} (hn : 0 < n) (hlt : n < 2 ^ 64) (hc : Canonical m e)
    (hp : place (units m e) = rounded (units n 0)) : -52 ≤ e ∧ e ≤ 12 := by
  have hlow : place (units (2 ^ 52) (-52)) ≤ place (units m e) := by
    rw [hp, units_one]
    exact Nat.le_trans (place_mono (units_mono hn 0)) (place_le_rounded _)
  have hhigh : place (units m e) ≤ place (units (2 ^ 52) 12) := by
    have hunits : units (2 ^ 52 * 2 ^ 12) 0 = units (2 ^ 52) 12 :=
      units_mul_two_pow (by decide) (by decide)
    rw [hp, ← (canonical_two_pow (by decide)).onGrid.rounded_eq, ← hunits]
    exact rounded_mono (units_mono (Nat.le_of_lt hlt) 0)
  have := hc.lt
  have := hc.normal
  rw [hc.place_units, (canonical_two_pow (by decide)).place_units] at hlow hhigh
  omega

/-- Up to `2 ^ 53` a whole number is converted and multiplied by one. -/
theorem unpack_ofNat_small {n : Nat} (hn : 0 < n) (hlt : n < 2 ^ 53) :
    ∃ m e, ∃ hc : Canonical m e, (Float.ofNat n).toModel.unpack = .finite .positive m e hc.pos ∧
      place (units m e) = rounded (units n 0) := by
  obtain ⟨m, e, hc, hround, hp⟩ := round_exact (m := n) (e := 0) .positive hn (by decide)
  obtain ⟨hlo, hhi⟩ := exponent_of_nat hn (by omega) hc hp
  have hconverted : n.toUInt64.toFloat.toModel.unpack = .finite .positive m e hc.pos := by
    have htoNat : n.toUInt64.toNat = n := Nat.mod_eq_of_lt (by omega)
    have hnormal : normalize .binary64 (n : Int) 0 .positive = .finite .positive m e hc.pos := by
      rw [← hround]
      exact normalize_of_pos (by omega) 0
    change (Float.Model.pack (normalize .binary64 (n.toUInt64.toNat : Int) 0 .positive)).unpack = _
    rw [htoNat, hnormal, unpack_pack hc (by omega)]
  refine ⟨m, e, hc, ?_, hp⟩
  have hfast : Float.ofNat n = n.toUInt64.toFloat * 1.0 := by
    change Float.ofScientific n false 0 = _
    rw [Float.ofScientific, dif_pos ⟨hlt, by decide⟩]
    rfl
  rw [hfast]
  change (Float.Model.pack (.mul .binary64 n.toUInt64.toFloat.toModel.unpack
    (1.0 : Float).toModel.unpack)).unpack = _
  rw [hconverted, unpack_one, mul_one hc (by omega), unpack_pack hc (by omega)]

/-- From `2 ^ 53` on it is rounded with 53 more bits, and what overflows is packed as infinity. -/
theorem ofNat_large {n : Nat} (hle : 2 ^ 53 ≤ n) :
    ∃ m e, ∃ hc : Canonical m e, Float.ofNat n = .ofModel (.pack (.finite .positive m e hc.pos)) ∧
      place (units m e) = rounded (units n 0) := by
  have hn : 0 < n := by omega
  have hpos : 0 < n <<< 53 := by
    rw [Nat.shiftLeft_eq]
    exact Nat.mul_pos hn (by decide)
  have hslow : Float.ofNat n = .ofModel (.pack (roundWithAccuracy .binary64 .positive
      (n <<< 53) (-53) .exact)) := by
    change Float.ofScientific n false 0 = _
    rw [Float.ofScientific, dif_neg (by omega)]
    change Float.ofModel (.pack (UnpackedFloat.ofScientific .binary64 n 0)) = _
    rw [UnpackedFloat.ofScientific, dif_neg (by omega), if_neg (by decide),
      if_neg (show ¬ (0 : Int) < -((2 : Int) ^ 11 + n.log2) by omega), if_pos (by decide)]
    change Float.ofModel (.pack (roundWithAccuracy .binary64 .positive (n <<< 53 * 1) (-53 + 0)
      .exact)) = _
    rw [Nat.mul_one, Int.add_zero]
  have hunits : units (n <<< 53) (-53) = units n 0 := by
    rw [Nat.shiftLeft_eq]
    exact units_mul_two_pow (by decide) (by decide)
  obtain ⟨m, e, hc, hround, hp⟩ := roundWithAccuracy_exact (m := n <<< 53) (e := -53) .positive
    hpos (by decide) (by rw [hunits, gap_units_nat hn]; omega)
  rw [hunits] at hp
  exact ⟨m, e, hc, by rw [hslow, hround], hp⟩

theorem unpack_ofNat {n : Nat} (hn : 0 < n) (hlt : n < 2 ^ 64) :
    ∃ m e, ∃ hc : Canonical m e, (Float.ofNat n).toModel.unpack = .finite .positive m e hc.pos ∧
      place (units m e) = rounded (units n 0) := by
  by_cases hsmall : n < 2 ^ 53
  · exact unpack_ofNat_small hn hsmall
  · obtain ⟨m, e, hc, hlarge, hp⟩ := ofNat_large (Nat.le_of_not_lt hsmall)
    obtain ⟨_, hhi⟩ := exponent_of_nat hn hlt hc hp
    refine ⟨m, e, hc, ?_, hp⟩
    rw [hlarge]
    exact unpack_pack hc (by omega)

/-! ### The order of whole numbers -/

theorem toNat_rank_ofNat {n : Nat} (hn : 0 < n) :
    (rank (Float.ofNat n)).toNat = 2 ^ 63 + min (rounded (units n 0)) infiniteWord := by
  by_cases hsmall : n < 2 ^ 53
  · obtain ⟨m, e, hc, hunpack, hp⟩ := unpack_ofNat_small hn hsmall
    rw [toNat_rank, hunpack, line_finite_positive, hp]
  · obtain ⟨m, e, hc, hlarge, hp⟩ := ofNat_large (Nat.le_of_not_lt hsmall)
    rw [hlarge, toNat_rank_pack (u := .finite .positive m e hc.pos) hc, line_finite_positive, hp]

theorem rank_ofNat_mono {m n : Nat} (h : m ≤ n) :
    (rank (Float.ofNat m)).toNat ≤ (rank (Float.ofNat n)).toNat := by
  rcases Nat.eq_zero_or_pos m with rfl | hm
  · exact unsigned_ofNat n
  · have hle := rounded_mono (units_mono h 0)
    rw [toNat_rank_ofNat hm, toNat_rank_ofNat (Nat.lt_of_lt_of_le hm h)]
    omega

theorem isNaN_ofNat (n : Nat) : (Float.ofNat n).isNaN = false := by
  rcases Nat.eq_zero_or_pos n with rfl | hn
  · rfl
  · rw [← Bool.not_eq_true, isNaN_iff]
    intro hnan
    have hrank := toNat_rank_ofNat hn
    have htop : line (word .notANumber) = 2 ^ 63 + infiniteWord + 2 ^ 51 := by decide
    rw [toNat_rank, hnan, htop] at hrank
    omega

/-- What is less than a whole number is less than every larger one, however these are rounded. -/
theorem lt_ofNat_mono {x : Float} {m n : Nat} (h : x < Float.ofNat m) (hle : m ≤ n) :
    x < Float.ofNat n := by
  obtain ⟨hx, hm⟩ := isNaN_of_lt h
  rw [lt_iff_height hx hm] at h
  rw [lt_iff_height hx (isNaN_ofNat n)]
  exact Int.lt_of_lt_of_le h (height_le_of_rank_le (rank_ofNat_mono hle))

/-! ### Quotients of whole numbers -/

theorem divCore_normal {m₁ m₂ : Nat} {e₁ e₂ : Int} (h₁ : m₁.log2 = 52) (h₂ : m₂.log2 = 52)
    (he : -1021 ≤ e₁ - e₂) : divCore .binary64 m₁ e₁ m₂ e₂ =
      (m₁ <<< 53 / m₂, e₁ - e₂ - 53, accuracyOfFraction (m₁ <<< 53 % m₂) m₂) := by
  have htarget : Format.binary64.targetExponent (totalExponent m₁ e₁ - totalExponent m₂ e₂) =
      e₁ - e₂ - 53 := by
    have hbits : Format.binary64.mantissaBits = 53 := rfl
    have hmin : Format.binary64.minExponent = -1074 := rfl
    rw [Format.targetExponent, totalExponent, totalExponent, hbits, hmin]
    omega
  have hmin : min (e₁ - e₂) (e₁ - e₂ - 53) = e₁ - e₂ - 53 := by omega
  have hshift : (e₁ - e₂ - (e₁ - e₂ - 53)).toNat = 53 := by omega
  unfold divCore
  rw [htarget, hmin]
  dsimp only
  rw [hshift]

theorem div_normal {m₁ m₂ : Nat} {e₁ e₂ : Int} (h₁ : Canonical m₁ e₁) (h₂ : Canonical m₂ e₂)
    (he₁ : -1074 < e₁) (he₂ : -1074 < e₂) (he : -1021 ≤ e₁ - e₂) :
    UnpackedFloat.div .binary64 (.finite .positive m₁ e₁ h₁.pos) (.finite .positive m₂ e₂ h₂.pos) =
      roundWithAccuracy .binary64 .positive (m₁ <<< 53 / m₂) (e₁ - e₂ - 53)
        (accuracyOfFraction (m₁ <<< 53 % m₂) m₂) ∧ 2 ^ 52 ≤ m₁ <<< 53 / m₂ := by
  constructor
  · change roundWithAccuracy .binary64 .positive (divCore .binary64 m₁ e₁ m₂ e₂).1
      (divCore .binary64 m₁ e₁ m₂ e₂).2.1 (divCore .binary64 m₁ e₁ m₂ e₂).2.2 = _
    rw [divCore_normal (h₁.log2_eq he₁) (h₂.log2_eq he₂) he]
  · have := h₁.normal
    have := h₂.lt
    rw [Nat.le_div_iff_mul_le h₂.pos, Nat.shiftLeft_eq]
    omega

/-- The quotient of a double by a larger one, cut off at the precision of its mantissa. -/
theorem quotient_lt_one {m₁ m₂ : Nat} {e₁ e₂ : Int} (h₁ : Canonical m₁ e₁) (h₂ : Canonical m₂ e₂)
    (he : -1021 ≤ e₁ - e₂) (hlt : place (units m₁ e₁) < place (units m₂ e₂)) :
    units (m₁ <<< 53 / m₂) (e₁ - e₂ - 53) < units 1 0 := by
  have he₁₂ : e₁ ≤ e₂ := by
    have := h₁.normal
    have := h₂.le
    have := h₂.lt
    rw [h₁.place_units, h₂.place_units] at hlt
    omega
  have hm : m₁ < m₂ * 2 ^ (e₂ - e₁).toNat := by
    rw [← units_lt_iff h₁.le he₁₂]
    refine Nat.lt_of_not_le fun h => ?_
    exact Nat.not_le_of_lt hlt (place_mono h)
  have hexp : (0 - (e₁ - e₂ - 53)).toNat = (e₂ - e₁).toNat + 53 := by omega
  rw [units_lt_iff (by omega) (by omega), Nat.one_mul, hexp]
  refine Nat.div_lt_of_lt_mul ?_
  rw [Nat.shiftLeft_eq, Nat.pow_add, ← Nat.mul_assoc]
  exact Nat.mul_lt_mul_of_pos_right hm (by decide)

theorem div_le_one {m₁ m₂ : Nat} {e₁ e₂ : Int} (h₁ : Canonical m₁ e₁) (h₂ : Canonical m₂ e₂)
    (he₁ : -1074 < e₁) (he₂ : -1074 < e₂) (he : -1021 ≤ e₁ - e₂)
    (hle : place (units m₁ e₁) ≤ place (units m₂ e₂)) :
    ∃ m e, ∃ hc : Canonical m e, UnpackedFloat.div .binary64 (.finite .positive m₁ e₁ h₁.pos)
      (.finite .positive m₂ e₂ h₂.pos) = .finite .positive m e hc.pos ∧
      place (units m e) ≤ place (units (2 ^ 52) (-52)) := by
  have hone : OnGrid (units (2 ^ 52) (-52)) := (canonical_two_pow (by decide)).onGrid
  obtain ⟨hdiv, hq⟩ := div_normal h₁ h₂ he₁ he₂ he
  have hgap : (e₁ - e₂ - 53 + 1074).toNat ≤
      gap (units (m₁ <<< 53 / m₂) (e₁ - e₂ - 53)) := by
    have := (Nat.le_log2 (by omega)).mpr hq
    rw [gap, log2_units (by omega)]
    omega
  rw [hdiv]
  rcases Nat.lt_or_eq_of_le hle with hlt | heq
  · -- Whatever is cut off, rounding up does not pass one, which is a double itself.
    have hbelow := quotient_lt_one h₁ h₂ he hlt
    rw [← units_one] at hbelow
    obtain ⟨m, e, hc, hround, hp⟩ := roundWithAccuracy_le .positive (by omega) (by omega) hgap
      (accuracyOfFraction (m₁ <<< 53 % m₂) m₂)
    exact ⟨m, e, hc, hround, Nat.le_trans hp (place_lt_place hbelow hone)⟩
  · obtain ⟨rfl, rfl⟩ := h₁.ext h₂ heq
    have hquotient : m₁ <<< 53 / m₁ = 2 ^ 53 := by
      rw [Nat.shiftLeft_eq, Nat.mul_div_cancel_left _ h₁.pos]
    have hexact : accuracyOfFraction (m₁ <<< 53 % m₁) m₁ = .exact := by
      rw [Nat.shiftLeft_eq, Nat.mul_mod_right]
      rfl
    have hunits : units (2 ^ 53) (-53) = units (2 ^ 52) (-52) := by
      rw [units_one, ← Nat.one_mul (2 ^ 53)]
      exact units_mul_two_pow (by decide) (by decide)
    have hexp : e₁ - e₁ - 53 = -53 := by omega
    rw [hquotient, hexp] at hgap ⊢
    rw [hexact]
    obtain ⟨m, e, hc, hround, hp⟩ := roundWithAccuracy_exact .positive (by decide) (by decide) hgap
    rw [hunits, hone.rounded_eq] at hp
    exact ⟨m, e, hc, hround, Nat.le_of_eq hp⟩

theorem between_of_place {x : Float} {m : Nat} {e : Int} (hc : Canonical m e)
    (hx : x.toModel.unpack = .finite .positive m e hc.pos)
    (hp : place (units m e) ≤ place (units (2 ^ 52) (-52))) : 0.0 ≤ x ∧ x ≤ 1.0 := by
  have hone : Canonical (2 ^ 52) (-52) := canonical_two_pow (by decide)
  rw [le_iff, le_iff, hx, unpack_zero, unpack_one]
  refine ⟨rfl, ?_⟩
  change ((compare e (-52)).then (compare m (2 ^ 52))).isLE = true
  have := hc.normal
  rw [hc.place_units, hone.place_units] at hp
  rcases Int.lt_or_eq_of_le (show e ≤ -52 by omega) with hlt | rfl
  · rw [Int.compare_eq_lt.mpr hlt]
    rfl
  · rw [Std.compare_self]
    exact Nat.isLE_compare.mpr (by omega)

theorem share_between {k n : Nat} (hn : 0 < n) (hkn : k ≤ n) (hlt : n < 2 ^ 64) :
    0.0 ≤ Float.ofNat k / Float.ofNat n ∧ Float.ofNat k / Float.ofNat n ≤ 1.0 := by
  obtain ⟨m₂, e₂, h₂, hunpack₂, hp₂⟩ := unpack_ofNat hn hlt
  obtain ⟨hlo₂, hhi₂⟩ := exponent_of_nat hn hlt h₂ hp₂
  rcases Nat.eq_zero_or_pos k with rfl | hk
  · have hnone : (Float.ofNat 0).toModel.unpack = .zero .positive := rfl
    have hzero : Float.ofNat 0 / Float.ofNat n = .ofModel (.pack (.zero .positive)) := by
      change Float.ofModel (.pack (.div .binary64 (Float.ofNat 0).toModel.unpack
        (Float.ofNat n).toModel.unpack)) = _
      rw [hnone, hunpack₂]
      rfl
    rw [hzero]
    decide
  · obtain ⟨m₁, e₁, h₁, hunpack₁, hp₁⟩ := unpack_ofNat hk (by omega)
    obtain ⟨hlo₁, hhi₁⟩ := exponent_of_nat hk (by omega) h₁ hp₁
    obtain ⟨m, e, hc, hdiv, hp⟩ := div_le_one h₁ h₂ (by omega) (by omega) (by omega) (by
      rw [hp₁, hp₂]
      exact rounded_mono (units_mono hkn 0))
    have he : e < 972 := by
      have := hc.lt
      rw [hc.place_units, (canonical_two_pow (by decide)).place_units] at hp
      omega
    refine between_of_place hc ?_ hp
    change (Float.Model.pack (.div .binary64 (Float.ofNat k).toModel.unpack
      (Float.ofNat n).toModel.unpack)).unpack = _
    rw [hunpack₁, hunpack₂, hdiv, unpack_pack hc he]

/-! ### Odds -/

theorem isNaN_add_one {x : Float} {m : Nat} {e : Int} (hm : 0 < m)
    (hx : x.toModel.unpack = .finite .positive m e hm) : (x + 1.0).isNaN = false := by
  change (Float.ofModel (.pack (.add .binary64 x.toModel.unpack
    (1.0 : Float).toModel.unpack))).isNaN = false
  rw [hx, unpack_one]
  have hpos : 0 < (decreaseExponent (2 ^ 52) (-52) (min e (-52))).1 := by
    unfold decreaseExponent
    dsimp only
    rw [Nat.shiftLeft_eq]
    exact Nat.mul_pos (by decide) (Nat.two_pow_pos _)
  have hadd : UnpackedFloat.add .binary64 (.finite .positive m e hm)
      (.finite .positive (2 ^ 52) (-52) (by decide)) =
      normalize .binary64 (((decreaseExponent m e (min e (-52))).1 : Int) +
        ((decreaseExponent (2 ^ 52) (-52) (min e (-52))).1 : Int)) (min e (-52)) .positive := rfl
  rw [hadd]
  refine isNaN_pack (plus_normalize (by omega) _) ?_
  rw [normalize_of_pos (by omega)]
  exact roundWithAccuracy_ne_notANumber _ _ _

theorem isNaN_odds {n : Nat} (hlt : n < 2 ^ 64) :
    (Float.ofNat n / (Float.ofNat n + 1.0)).isNaN = false := by
  rcases Nat.eq_zero_or_pos n with rfl | hn
  · decide +kernel
  · obtain ⟨m, e, hc, hunpack, -⟩ := unpack_ofNat hn hlt
    have hsum := ne_notANumber (isNaN_add_one hc.pos hunpack)
    have hplus := unsigned_iff.mp (unsigned_add (unsigned_ofNat n) unsigned_one)
    change (Float.ofModel (.pack (.div .binary64 (Float.ofNat n).toModel.unpack
      (Float.ofNat n + 1.0).toModel.unpack))).isNaN = false
    rw [hunpack]
    generalize (Float.ofNat n + 1.0).toModel.unpack = v at hsum hplus ⊢
    refine isNaN_pack (plus_div rfl hplus) ?_
    cases v with
    | notANumber => exact absurd rfl hsum
    | infinity t => nofun
    | zero t => nofun
    | finite t m' e' hm' =>
      obtain rfl : t = .positive := hplus
      exact roundWithAccuracy_ne_notANumber _ _ _

end OppNet.Binary64
