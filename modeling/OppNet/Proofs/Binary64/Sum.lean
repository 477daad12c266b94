import OppNet.Proofs.Binary64.Order

/-!
# OppNet.Proofs.Binary64.Sum

Sums of which one part carries no sign.

* `Unsigned x`: `x` is not below `0.0` on the line of all doubles. It holds of the NaN, and
  products, quotients and sums keep it.
* `rank_le_rank_add`: adding an unsigned double never goes back along the line, whatever is
  rounded, and whatever the other part is.
* `not_add_beq_zero`: unsigned doubles only add up to zero if both are `0.0`.
* `isNaN_pack`: what is not the NaN is not packed into it, once it has been rounded.
-/

open Float.Model Float.Model.UnpackedFloat

namespace OppNet.Binary64

/-- Not below `0.0` on the line. -/
def Unsigned (x : Float) : Prop := 2 ^ 63 ≤ (rank x).toNat

def Plus : UnpackedFloat → Prop
  | .notANumber => True
  | .infinity s => s = .positive
  | .zero s => s = .positive
  | .finite s _ _ _ => s = .positive

theorem word_lt_iff (u : UnpackedFloat) : word u < 2 ^ 63 ↔ Plus u := by
  cases u with
  | notANumber => exact iff_of_true (by decide) trivial
  | infinity s =>
    cases s with
    | negative => exact iff_of_false (by decide) nofun
    | positive => exact iff_of_true (by decide) rfl
  | zero s =>
    cases s with
    | negative => exact iff_of_false (by decide) nofun
    | positive => exact iff_of_true (by decide) rfl
  | finite s m e hm =>
    cases s with
    | negative => exact iff_of_false (Nat.not_lt.mpr (Nat.le_add_right _ _)) nofun
    | positive =>
      refine iff_of_true ?_ rfl
      change 0 + min (place (units m e)) infiniteWord < 2 ^ 63
      rw [Nat.zero_add]
      exact Nat.lt_of_le_of_lt (Nat.min_le_right _ _) (by decide)

theorem le_line_iff {w : Nat} (h : w < 2 ^ 64) : 2 ^ 63 ≤ line w ↔ w < 2 ^ 63 := by
  unfold line
  split <;> omega

theorem unsigned_iff {x : Float} : Unsigned x ↔ Plus x.toModel.unpack := by
  have hlt : word x.toModel.unpack < 2 ^ 64 := (unpack_spec x.toModel).2 ▸ x.toBits.toNat_lt
  rw [Unsigned, toNat_rank, le_line_iff hlt, word_lt_iff]

/-! ### Outcomes without a sign -/

theorem toNat_pack_lt {u : UnpackedFloat} (h : Plus u) :
    (UnpackedFloat.pack .binary64 u).toNat < 2 ^ 63 := by
  have hpos : ∀ (e : BitVec 11) (m : BitVec 52),
      (packComponents .binary64 .positive e m).toNat < 2 ^ 63 := by
    intro e m
    have he := e.isLt
    have hm := m.isLt
    rw [toNat_packComponents]
    change 0 + _ + _ < _
    omega
  cases u with
  | notANumber => exact hpos _ _
  | infinity s => rw [show s = .positive from h]; exact hpos _ _
  | zero s => rw [show s = .positive from h]; exact hpos _ _
  | finite s m e hm =>
    rw [show s = .positive from h, pack_finite]
    split
    · exact hpos _ _
    · split <;> exact hpos _ _

theorem unsigned_pack {u : UnpackedFloat} (h : Plus u) : Unsigned (.ofModel (pack u)) := by
  have hlt : (pack u).toBits.toNat < 2 ^ 63 := toNat_pack_lt h
  rw [Unsigned, rank, toNat_rankOf]
  change 2 ^ 63 ≤ line (pack u).toBits.toNat
  unfold line
  split <;> omega

theorem plus_roundWithAccuracy (m : Nat) (e : Int) (a : Accuracy) :
    Plus (roundWithAccuracy .binary64 .positive m e a) := by
  unfold roundWithAccuracy
  dsimp only
  generalize shiftToTargetExponent .binary64 m e a = shifted
  generalize shiftToTargetExponent .binary64 shifted.1.roundedMantissa shifted.2 .exact = rounded
  by_cases hzero : rounded.1.mantissa = 0
  · rw [dif_pos hzero]
    rfl
  · rw [dif_neg hzero]
    rfl

theorem plus_normalize {m : Int} (h : 0 ≤ m) (e : Int) :
    Plus (normalize .binary64 m e .positive) := by
  unfold UnpackedFloat.normalize
  split
  · rename_i hlt
    have := Int.compare_eq_lt.mp hlt
    omega
  · rfl
  · exact plus_roundWithAccuracy _ _ _

theorem plus_mul {u v : UnpackedFloat} (hu : Plus u) (hv : Plus v) :
    Plus (UnpackedFloat.mul .binary64 u v) := by
  cases u <;> cases v <;> cases hu <;> cases hv <;>
    first | trivial | exact plus_roundWithAccuracy _ _ _

theorem plus_div {u v : UnpackedFloat} (hu : Plus u) (hv : Plus v) :
    Plus (UnpackedFloat.div .binary64 u v) := by
  cases u <;> cases v <;> cases hu <;> cases hv <;>
    first | trivial | exact plus_roundWithAccuracy _ _ _

theorem unsigned_mul {x y : Float} (hx : Unsigned x) (hy : Unsigned y) : Unsigned (x * y) :=
  unsigned_pack (plus_mul (unsigned_iff.mp hx) (unsigned_iff.mp hy))

theorem unsigned_div {x y : Float} (hx : Unsigned x) (hy : Unsigned y) : Unsigned (x / y) :=
  unsigned_pack (plus_div (unsigned_iff.mp hx) (unsigned_iff.mp hy))

theorem plus_ofScientific (m : Nat) (e : Int) :
    Plus (UnpackedFloat.ofScientific .binary64 m e) := by
  unfold UnpackedFloat.ofScientific
  by_cases hzero : m = 0
  · rw [dif_pos hzero]
    rfl
  · rw [dif_neg hzero]
    refine iteInduction (fun _ => rfl) fun _ => iteInduction (fun _ => rfl) fun _ => ?_
    refine iteInduction (fun _ => ?_) fun _ => ?_
    · exact plus_mul rfl rfl
    · exact plus_div rfl rfl

theorem unsigned_ofNat (n : Nat) : Unsigned (Float.ofNat n) := by
  change Unsigned (Float.ofScientific n false 0)
  unfold Float.ofScientific
  split
  · rw [if_neg (by decide)]
    refine unsigned_mul (unsigned_pack (plus_normalize (Int.natCast_nonneg _) _)) ?_
    exact unsigned_pack (show Plus (.finite .positive _ _ _) from rfl)
  · exact unsigned_pack (plus_ofScientific _ _)

theorem unsigned_one : Unsigned 1.0 := by
  change 2 ^ 63 ≤ (rank 1.0).toNat
  decide

/-! ### Sums -/

theorem normalize_of_pos {m : Int} (h : 0 < m) (e : Int) :
    normalize .binary64 m e .positive = round .binary64 .positive m.toNat e := by
  unfold UnpackedFloat.normalize
  rw [Int.compare_eq_gt.mpr h]

theorem normalize_of_neg {m : Int} (h : m < 0) (e : Int) :
    normalize .binary64 m e .positive = round .binary64 .negative (-m).toNat e := by
  unfold UnpackedFloat.normalize
  rw [Int.compare_eq_lt.mpr h]

theorem normalize_zero (e : Int) : normalize .binary64 0 e .positive = .zero .positive := rfl

/-- Written with the smaller exponent a mantissa stands for the same amount. -/
theorem units_decreaseExponent {m : Nat} {e e' : Int} (hle : e' ≤ e) (he' : -1074 ≤ e') :
    units (decreaseExponent m e e').1 e' = units m e := by
  unfold decreaseExponent
  dsimp only
  rw [Nat.shiftLeft_eq]
  exact units_mul_two_pow (by omega) he'

theorem line_finite_negative {m : Nat} {e : Int} (hm : 0 < m) :
    line (word (.finite .negative m e hm)) =
      2 ^ 63 - 1 - min (place (units m e)) infiniteWord := by
  have hword : word (.finite .negative m e hm) = signWord .negative +
    min (place (units m e)) infiniteWord := rfl
  have hsign : signWord .negative = 2 ^ 63 := rfl
  unfold line
  rw [hword, hsign, if_pos (Nat.le_add_right _ _)]
  omega

theorem line_finite_positive {m : Nat} {e : Int} (hm : 0 < m) :
    line (word (.finite .positive m e hm)) = 2 ^ 63 + min (place (units m e)) infiniteWord := by
  have hword : word (.finite .positive m e hm) = signWord .positive +
    min (place (units m e)) infiniteWord := rfl
  have hsign : signWord .positive = 0 := rfl
  have hlt := (word_lt_iff (.finite .positive m e hm)).mpr rfl
  unfold line
  rw [if_neg (Nat.not_le.mpr hlt), hword, hsign]
  omega

theorem line_lt_of_not_plus {u : UnpackedFloat} (h : ¬ Plus u) : line (word u) < 2 ^ 63 := by
  rw [← word_lt_iff] at h
  unfold line
  split <;> omega

theorem le_line_of_plus {u : UnpackedFloat} (h : Plus u) : 2 ^ 63 ≤ line (word u) := by
  rw [← word_lt_iff] at h
  unfold line
  split <;> omega

/-- Rounding keeps an amount on its side of a double: at or above it. -/
theorem line_le_round_positive {s : Sign} {m n : Nat} {e E : Int} (hm : 0 < m)
    (hn : 0 < n) (hE : -1074 ≤ E) (h : s = .positive → units m e ≤ units n E) :
    WellFormed (round .binary64 .positive n E) ∧
      line (word (.finite s m e hm)) ≤ line (word (round .binary64 .positive n E)) := by
  obtain ⟨n', E', hc, hround, hlo, -⟩ := round_spec .positive hn hE
  rw [hround]
  refine ⟨hc, ?_⟩
  cases s with
  | negative =>
    have hneg := line_lt_of_not_plus (u := .finite .negative m e hm) nofun
    have hpos := le_line_of_plus (u := .finite .positive n' E' hc.pos) rfl
    omega
  | positive =>
    have hplace := place_mono (h rfl)
    rw [line_finite_positive, line_finite_positive]
    omega

/-- Rounding keeps an amount on its side of a double: a smaller amount below zero. -/
theorem line_le_round_negative {m n : Nat} {e E : Int} (hm : 0 < m) (hc : Canonical m e)
    (hn : 0 < n) (hE : -1074 ≤ E) (h : units n E < units m e) :
    WellFormed (round .binary64 .negative n E) ∧
      line (word (.finite .negative m e hm)) ≤ line (word (round .binary64 .negative n E)) := by
  obtain ⟨n', E', hc', hround, -, hhi⟩ := round_spec .negative hn hE
  rw [hround]
  refine ⟨hc', ?_⟩
  have hplace := place_lt_place h hc.onGrid
  have hmin : min (place (units n' E')) infiniteWord ≤ min (place (units m e)) infiniteWord := by
    omega
  rw [line_finite_negative, line_finite_negative]
  exact Nat.sub_le_sub_left hmin _

theorem line_le_add_finite {s : Sign} {m₁ m₂ : Nat} {e₁ e₂ : Int} (hm₁ : 0 < m₁) (hm₂ : 0 < m₂)
    (hc₁ : Canonical m₁ e₁) (hc₂ : Canonical m₂ e₂) :
    WellFormed (.add .binary64 (.finite s m₁ e₁ hm₁) (.finite .positive m₂ e₂ hm₂)) ∧
      line (word (.finite s m₁ e₁ hm₁)) ≤
        line (word (.add .binary64 (.finite s m₁ e₁ hm₁) (.finite .positive m₂ e₂ hm₂))) := by
  have hE : -1074 ≤ min e₁ e₂ := Int.le_min.mpr ⟨hc₁.le, hc₂.le⟩
  have hunits := units_decreaseExponent (m := m₁) (Int.min_le_left e₁ e₂) hE
  have hpos : 0 < (decreaseExponent m₂ e₂ (min e₁ e₂)).1 := by
    unfold decreaseExponent
    dsimp only
    rw [Nat.shiftLeft_eq]
    exact Nat.mul_pos hm₂ (Nat.two_pow_pos _)
  change WellFormed (normalize .binary64 (s.apply (decreaseExponent m₁ e₁ (min e₁ e₂)).1 +
      (decreaseExponent m₂ e₂ (min e₁ e₂)).1) (min e₁ e₂) .positive) ∧
    _ ≤ line (word (normalize .binary64 (s.apply (decreaseExponent m₁ e₁ (min e₁ e₂)).1 +
      (decreaseExponent m₂ e₂ (min e₁ e₂)).1) (min e₁ e₂) .positive))
  generalize (decreaseExponent m₁ e₁ (min e₁ e₂)).1 = a at hunits ⊢
  generalize (decreaseExponent m₂ e₂ (min e₁ e₂)).1 = b at hpos ⊢
  cases s with
  | positive =>
    change WellFormed (normalize .binary64 ((a : Int) + b) _ _) ∧
      _ ≤ line (word (normalize .binary64 ((a : Int) + b) _ _))
    rw [normalize_of_pos (by omega)]
    refine line_le_round_positive hm₁ (by omega) hE fun _ => ?_
    rw [← hunits]
    exact units_mono (by omega) _
  | negative =>
    change WellFormed (normalize .binary64 (-(a : Int) + b) _ _) ∧
      _ ≤ line (word (normalize .binary64 (-(a : Int) + b) _ _))
    rcases Int.lt_trichotomy (-(a : Int) + b) 0 with hlt | heq | hgt
    · rw [normalize_of_neg hlt]
      refine line_le_round_negative hm₁ hc₁ (by omega) hE ?_
      rw [← hunits]
      exact units_lt (by omega) _
    · rw [heq, normalize_zero]
      refine ⟨trivial, ?_⟩
      have hneg := line_lt_of_not_plus (u := .finite .negative m₁ e₁ hm₁) nofun
      have hzero := le_line_of_plus (u := .zero .positive) rfl
      omega
    · rw [normalize_of_pos hgt]
      exact line_le_round_positive hm₁ (by omega) hE nofun

theorem line_le_notANumber (u : UnpackedFloat) : line (word u) ≤ line (word .notANumber) := by
  cases u with
  | notANumber => exact Nat.le_refl _
  | infinity s => cases s <;> decide
  | zero s => cases s <;> decide
  | finite s m e hm =>
    have hnan : line (word .notANumber) = 2 ^ 63 + (infiniteWord + 2 ^ 51) := by decide
    cases s with
    | negative =>
      have := line_lt_of_not_plus (u := .finite .negative m e hm) nofun
      omega
    | positive =>
      rw [line_finite_positive, hnan]
      omega

theorem line_le_infinity {u : UnpackedFloat} (h : u ≠ .notANumber) :
    line (word u) ≤ line (word (.infinity .positive)) := by
  cases u with
  | notANumber => exact absurd rfl h
  | infinity s => cases s <;> decide
  | zero s => cases s <;> decide
  | finite s m e hm =>
    have hinf : line (word (.infinity .positive)) = 2 ^ 63 + infiniteWord := by decide
    cases s with
    | negative =>
      have := line_lt_of_not_plus (u := .finite .negative m e hm) nofun
      omega
    | positive =>
      rw [line_finite_positive, hinf]
      omega

theorem line_zero_le {u : UnpackedFloat} (h : Plus u) (s : Sign) :
    line (word (.zero s)) ≤ line (word u) := by
  have hzero : line (word (.zero s)) ≤ 2 ^ 63 := by cases s <;> decide
  exact Nat.le_trans hzero (le_line_of_plus h)

theorem line_le_add {u v : UnpackedFloat} (hu : WellFormed u) (hv : WellFormed v) (h : Plus v) :
    WellFormed (.add .binary64 u v) ∧ line (word u) ≤ line (word (.add .binary64 u v)) := by
  cases v with
  | notANumber =>
    have hadd : UnpackedFloat.add .binary64 u .notANumber = .notANumber := by cases u <;> rfl
    rw [hadd]
    exact ⟨trivial, line_le_notANumber u⟩
  | infinity t =>
    obtain rfl : t = .positive := h
    cases u with
    | notANumber => exact ⟨trivial, line_le_notANumber _⟩
    | infinity s =>
      cases s with
      | negative => exact ⟨trivial, line_le_notANumber _⟩
      | positive => exact ⟨trivial, Nat.le_refl _⟩
    | zero s => exact ⟨trivial, line_le_infinity nofun⟩
    | finite s m e hm => exact ⟨trivial, line_le_infinity nofun⟩
  | zero t =>
    obtain rfl : t = .positive := h
    cases u with
    | notANumber => exact ⟨trivial, Nat.le_refl _⟩
    | infinity s => exact ⟨trivial, Nat.le_refl _⟩
    | zero s =>
      have hadd : UnpackedFloat.add .binary64 (.zero s) (.zero .positive) = .zero .positive := by
        cases s <;> rfl
      rw [hadd]
      exact ⟨trivial, line_zero_le (u := .zero .positive) rfl s⟩
    | finite s m e hm => exact ⟨hu, Nat.le_refl _⟩
  | finite t m₂ e₂ hm₂ =>
    obtain rfl : t = .positive := h
    cases u with
    | notANumber => exact ⟨trivial, Nat.le_refl _⟩
    | infinity s => exact ⟨trivial, Nat.le_refl _⟩
    | zero s => exact ⟨hv, line_zero_le (u := .finite .positive m₂ e₂ hm₂) rfl s⟩
    | finite s m₁ e₁ hm₁ => exact line_le_add_finite hm₁ hm₂ hu hv

/-- Adding an unsigned double never goes back along the line of doubles. -/
theorem rank_le_rank_add (x : Float) {y : Float} (hy : Unsigned y) :
    (rank x).toNat ≤ (rank (x + y)).toNat := by
  obtain ⟨hwf, hle⟩ := line_le_add (unpack_spec x.toModel).1 (unpack_spec y.toModel).1
    (unsigned_iff.mp hy)
  rw [toNat_rank]
  exact Nat.le_trans hle (Nat.le_of_eq (toNat_rank_pack hwf).symm)

theorem unsigned_add {x y : Float} (hx : Unsigned x) (hy : Unsigned y) : Unsigned (x + y) :=
  Nat.le_trans hx (rank_le_rank_add x hy)

/-! ### Numeric comparisons -/

theorem unpack_zero : (0.0 : Float).toModel.unpack = .zero .positive := by
  rfl

theorem lt_iff {x y : Float} :
    x < y ↔ UnpackedFloat.lt x.toModel.unpack y.toModel.unpack = true := by
  change decide (x.toModel < y.toModel) = true ↔ _
  rw [decide_eq_true_iff]
  rfl

theorem le_iff {x y : Float} :
    x ≤ y ↔ UnpackedFloat.le x.toModel.unpack y.toModel.unpack = true := by
  change decide (x.toModel ≤ y.toModel) = true ↔ _
  rw [decide_eq_true_iff]
  rfl

theorem beq_zero_iff {x : Float} : (x == 0.0) = true ↔ ∃ s, x.toModel.unpack = .zero s := by
  change UnpackedFloat.beq x.toModel.unpack (0.0 : Float).toModel.unpack = true ↔ _
  rw [unpack_zero]
  generalize x.toModel.unpack = u
  cases u with
  | notANumber => exact iff_of_false nofun nofun
  | infinity s => cases s <;> exact iff_of_false nofun nofun
  | zero s => exact iff_of_true rfl ⟨s, rfl⟩
  | finite s m e hm => cases s <;> exact iff_of_false nofun nofun

theorem unsigned_of_not_lt {x : Float} (hlt : ¬ x < 0.0) (hne : ¬ (x == 0.0) = true) :
    Unsigned x := by
  rw [unsigned_iff]
  rw [lt_iff, unpack_zero] at hlt
  rw [beq_zero_iff] at hne
  generalize x.toModel.unpack = u at hlt hne ⊢
  cases u with
  | notANumber => trivial
  | zero s => exact absurd ⟨s, rfl⟩ hne
  | infinity s =>
    cases s with
    | negative => exact absurd rfl hlt
    | positive => rfl
  | finite s m e hm =>
    cases s with
    | negative => exact absurd rfl hlt
    | positive => rfl

theorem eq_zero_of_line_le {u : UnpackedFloat} (hwf : WellFormed u) (h : Plus u)
    (hle : line (word u) ≤ 2 ^ 63) : u = .zero .positive := by
  cases u with
  | notANumber => exact absurd hle (by decide)
  | infinity s => rw [show s = .positive from h] at hle; exact absurd hle (by decide)
  | zero s => rw [show s = .positive from h]
  | finite s m e hm =>
    have hc : Canonical m e := hwf
    obtain rfl : s = .positive := h
    rw [line_finite_positive, hc.place_units, infiniteWord] at hle
    omega

theorem not_add_beq_zero {x y : Float} (hx : Unsigned x) (hy : Unsigned y) (h : ¬ x ≤ y) :
    (x + y == 0.0) = false := by
  refine Bool.eq_false_iff.mpr fun hzero => ?_
  obtain ⟨t, ht⟩ := beq_zero_iff.mp hzero
  have hsum : (rank (x + y)).toNat ≤ 2 ^ 63 := by
    rw [toNat_rank, ht]
    cases t <;> decide
  obtain ⟨hwfx, -⟩ := unpack_spec x.toModel
  obtain ⟨hwfy, -⟩ := unpack_spec y.toModel
  have hadd := line_le_add hwfx hwfy (unsigned_iff.mp hy)
  have hx0 : x.toModel.unpack = .zero .positive :=
    eq_zero_of_line_le hwfx (unsigned_iff.mp hx)
      (Nat.le_trans (toNat_rank x ▸ rank_le_rank_add x hy) hsum)
  have hy0 : y.toModel.unpack = .zero .positive := by
    have hline : line (word (.add .binary64 x.toModel.unpack y.toModel.unpack)) ≤ 2 ^ 63 := by
      rw [← toNat_rank_pack hadd.1]
      exact hsum
    have hplus := unsigned_iff.mp hy
    rw [hx0] at hline
    refine eq_zero_of_line_le hwfy hplus ?_
    revert hline hplus
    generalize y.toModel.unpack = v
    intro hline hplus
    -- adding to zero gives the other part back, once the zeros are out of the way
    cases v with
    | notANumber => exact hline
    | infinity s => exact hline
    | finite s m e hm => exact hline
    | zero s => cases s <;> decide
  rw [le_iff, hx0, hy0] at h
  exact h rfl

/-! ### Numbers -/

theorem isNaN_iff (x : Float) : x.isNaN = true ↔ x.toModel.unpack = .notANumber := by
  change x.toModel.unpack.isNaN = true ↔ _
  cases x.toModel.unpack with
  | notANumber => exact iff_of_true rfl rfl
  | _ => exact iff_of_false nofun nofun

theorem ne_notANumber {x : Float} (h : x.isNaN = false) : x.toModel.unpack ≠ .notANumber := by
  rw [ne_eq, ← isNaN_iff, h]
  exact Bool.false_ne_true

/-- What has no sign and is not the NaN is not packed into it either. -/
theorem isNaN_pack {u : UnpackedFloat} (h : Plus u) (hu : u ≠ .notANumber) :
    (Float.ofModel (pack u)).isNaN = false := by
  have hpos (e : BitVec 11) (m : BitVec 52) (he : e.toNat < 2047) :
      (packComponents .binary64 .positive e m).toNat < infiniteWord + 2 ^ 51 := by
    have hm := m.isLt
    rw [toNat_packComponents, infiniteWord]
    change 0 + _ + _ < _
    omega
  have hlt : (UnpackedFloat.pack .binary64 u).toNat < infiniteWord + 2 ^ 51 := by
    cases u with
    | notANumber => exact absurd rfl hu
    | infinity s =>
      rw [show s = .positive from h]
      decide +kernel
    | zero s =>
      rw [show s = .positive from h]
      decide +kernel
    | finite s m e hm =>
      rw [show s = .positive from h, pack_finite]
      split
      · rw [toNat_packedInfinity]
        decide
      · split
        · refine hpos _ _ ?_
          rw [BitVec.toNat_ofNat]
          omega
        · exact hpos _ _ (by decide)
  refine Bool.eq_false_iff.mpr fun hnan => ?_
  have hword := (unpack_spec (pack u)).2
  rw [(isNaN_iff _).mp hnan] at hword
  exact Nat.ne_of_lt hlt hword.symm

theorem roundWithAccuracy_ne_notANumber (m : Nat) (e : Int) (a : Accuracy) :
    roundWithAccuracy .binary64 .positive m e a ≠ .notANumber := by
  unfold roundWithAccuracy
  dsimp only
  generalize shiftToTargetExponent .binary64 m e a = shifted
  generalize shiftToTargetExponent .binary64 shifted.1.roundedMantissa shifted.2 .exact = rounded
  by_cases hzero : rounded.1.mantissa = 0
  · rw [dif_pos hzero]
    nofun
  · rw [dif_neg hzero]
    nofun

end OppNet.Binary64
