import OppNet.Proofs.Binary64.Sum

/-!
# OppNet.Proofs.Binary64.Double

Doubles with all their NaNs, and what is lost of one as a `Float`.

* `toFloat_ofFloat`, `ofFloat_toFloat`: nothing, if it is a number.
* `toFloat_add`, `toFloat_sub`: the numbers of sums and differences are those of the parts.
* `isNegative_outcome`: an operation that ends in a NaN ends in one without a sign.
* `Time.not_after_lt`: time does not go back over an unsigned duration, NaNs included.
-/

open Float.Model Float.Model.UnpackedFloat

namespace OppNet

namespace Binary64

/-! ### Words and numbers -/

theorem ofBits_toBits (x : Float) : Float.ofBits x.toBits = x := by
  obtain ⟨hwf, hword⟩ := unpack_spec x.toModel
  refine eq_of_toBits_eq (UInt64.toNat_inj.mp ?_)
  exact (toNat_pack hwf).trans hword

theorem toBits_ofBits {w : UInt64} (h : UnpackedFloat.unpack .binary64 w.toBitVec ≠ .notANumber) :
    (Float.ofBits w).toBits = w := by
  obtain ⟨hwf, hword⟩ := unpack_word h
  exact UInt64.toNat_inj.mp ((toNat_pack hwf).trans hword)

theorem isNaN_ofBits_iff {w : UInt64} :
    (Float.ofBits w).isNaN = true ↔ UnpackedFloat.unpack .binary64 w.toBitVec = .notANumber := by
  rw [isNaN_iff]
  by_cases hw : UnpackedFloat.unpack .binary64 w.toBitVec = .notANumber
  · refine iff_of_true ?_ hw
    change (pack (UnpackedFloat.unpack .binary64 w.toBitVec)).unpack = .notANumber
    rw [hw]
    rfl
  · have hbits := toBits_ofBits hw
    have hparts : (Float.ofBits w).toModel.unpack = UnpackedFloat.unpack .binary64 w.toBitVec :=
      congrArg (fun v : UInt64 => UnpackedFloat.unpack .binary64 v.toBitVec) hbits
    rw [hparts]

/-- The words of the NaNs: an exponent of ones, and a fraction. -/
theorem isNaN_ofBits_iff_toNat {w : UInt64} : (Float.ofBits w).isNaN = true ↔
    w.toNat / 2 ^ 52 % 2 ^ 11 = 2047 ∧ w.toNat % 2 ^ 52 ≠ 0 := by
  rw [isNaN_ofBits_iff, unpack_eq_notANumber_iff, unpackExponent_eq_iff, ne_eq,
    unpackMantissa_eq_iff]
  rfl

theorem eq_of_isNaN {x y : Float} (hx : x.isNaN = true) (hy : y.isNaN = true) : x = y := by
  rw [isNaN_iff] at hx hy
  have hwords : word x.toModel.unpack = word y.toModel.unpack := by rw [hx, hy]
  rw [(unpack_spec x.toModel).2, (unpack_spec y.toModel).2] at hwords
  exact eq_of_toBits_eq (UInt64.toNat_inj.mp hwords)

theorem isNaN_of_isFinite {x : Float} (h : x.isFinite = true) : x.isNaN = false := by
  have hfinite : x.toModel.unpack.isFinite = true := h
  rw [← Bool.not_eq_true, isNaN_iff]
  intro hnan
  rw [hnan] at hfinite
  cases hfinite

theorem isNaN_add_left {x : Float} (y : Float) (h : x.isNaN = true) : (x + y).isNaN = true := by
  rw [isNaN_iff] at h ⊢
  have hadd : UnpackedFloat.add .binary64 x.toModel.unpack y.toModel.unpack = .notANumber := by
    rw [h]
    cases y.toModel.unpack <;> rfl
  change (pack (.add .binary64 x.toModel.unpack y.toModel.unpack)).unpack = .notANumber
  rw [hadd]
  rfl

end Binary64

namespace Double

open Binary64

variable {x : Double} {y : Float}

@[simp] theorem toFloat_ofFloat (y : Float) : (ofFloat y).toFloat = y := ofBits_toBits y

theorem ofFloat_toFloat (h : x.toFloat.isNaN = false) : ofFloat x.toFloat = x := by
  rw [toFloat, ← Bool.not_eq_true, isNaN_ofBits_iff] at h
  exact congrArg Double.mk (toBits_ofBits h)

theorem rankOf_word (h : x.toFloat.isNaN = false) : rankOf x.word = rank x.toFloat :=
  congrArg (fun x : Double => rankOf x.word) (ofFloat_toFloat h).symm

/-! ### Outcomes -/

theorem toNat_unsigned (x : Double) : x.unsigned.word.toNat = x.word.toNat % 2 ^ 63 := by
  have hmask : (~~~signBit).toNat = 2 ^ 63 - 1 := rfl
  rw [unsigned, UInt64.toNat_and, hmask, Nat.and_two_pow_sub_one_eq_mod]

theorem isNaN_unsigned (h : x.toFloat.isNaN = true) : x.unsigned.toFloat.isNaN = true := by
  rw [toFloat, isNaN_ofBits_iff_toNat] at h ⊢
  rw [toNat_unsigned]
  omega

@[simp] theorem toFloat_outcome (x : Double) (y : Float) : (x.outcome y).toFloat = y := by
  unfold outcome
  split
  · rename_i h
    obtain ⟨hx, hy⟩ := Bool.and_eq_true_iff.mp h
    exact eq_of_isNaN (isNaN_unsigned hx) hy
  · exact toFloat_ofFloat y

@[simp] theorem toFloat_add (x y : Double) : (x + y).toFloat = x.toFloat + y.toFloat :=
  toFloat_outcome x _

@[simp] theorem toFloat_sub (x y : Double) : (x - y).toFloat = x.toFloat - y.toFloat :=
  toFloat_outcome x _

theorem isNegative_eq_false_iff : x.isNegative = false ↔ x.word.toNat < 2 ^ 63 := by
  have hsign : signBit.toNat = 2 ^ 63 := rfl
  rw [isNegative, decide_eq_false_iff_not, UInt64.le_iff_toNat_le, hsign, Nat.not_le]

theorem isNegative_outcome (x : Double) (h : y.isNaN = true) :
    (x.outcome y).isNegative = false := by
  rw [isNegative_eq_false_iff]
  unfold outcome
  split
  · rw [toNat_unsigned]
    exact Nat.mod_lt _ (Nat.two_pow_pos 63)
  · have hword := (unpack_spec y.toModel).2
    rw [(isNaN_iff y).mp h] at hword
    exact hword ▸ (word_lt_iff .notANumber).mpr trivial

theorem rankOf_lt_of_isNaN {x y : Double} (hx : x.toFloat.isNaN = false)
    (hy : y.toFloat.isNaN = true) (hsign : y.isNegative = false) :
    (rankOf x.word).toNat < (rankOf y.word).toNat := by
  obtain ⟨hones, hfrac⟩ := isNaN_ofBits_iff_toNat.mp hy
  have hword := isNegative_eq_false_iff.mp hsign
  have hle := line_le_infinity (ne_notANumber hx)
  have hinf : line (Binary64.word (.infinity .positive)) = 2047 * 2 ^ 52 + 2 ^ 63 := by decide
  have hline : line y.word.toNat = y.word.toNat + 2 ^ 63 := if_neg (Nat.not_le.mpr hword)
  rw [rankOf_word hx, toNat_rank, toNat_rankOf, hline]
  omega

/-- Leaving out the sign of a NaN never goes back along the line. -/
theorem rankOf_le_unsigned (x : Double) :
    (rankOf x.word).toNat ≤ (rankOf x.unsigned.word).toNat := by
  have hlt := x.word.toNat_lt
  rw [toNat_rankOf, toNat_rankOf, toNat_unsigned, line, line]
  split <;> split <;> omega

theorem rankOf_le_add (x : Double) {y : Double} (hy : Unsigned y.toFloat) :
    (rankOf x.word).toNat ≤ (rankOf (x + y).word).toNat := by
  change _ ≤ (rankOf (x.outcome _).word).toNat
  unfold outcome
  cases hx : x.toFloat.isNaN with
  | false =>
    rw [Bool.false_and, if_neg Bool.false_ne_true, rankOf_word hx]
    exact rank_le_rank_add x.toFloat hy
  | true =>
    rw [isNaN_add_left y.toFloat hx, Bool.and_self, if_pos rfl]
    exact rankOf_le_unsigned x

end Double

/-! ### Times and durations -/

namespace Time

@[simp] theorem sinceStart_mk (x : Float) : (⟨x⟩ : Time).sinceStart = x := Double.toFloat_ofFloat x

@[simp] theorem sinceStart_after (t : Time) (d : TimeSpan) :
    (t.after d).sinceStart = t.sinceStart + d.seconds := Double.toFloat_add _ _

@[simp] theorem seconds_since (t s : Time) :
    (t.since s).seconds = t.sinceStart - s.sinceStart := Double.toFloat_sub _ _

theorem not_lt_of_rankOf_le {s t : Time}
    (h : (Binary64.rankOf s.double.word).toNat ≤ (Binary64.rankOf t.double.word).toNat) :
    ¬ t < s := by
  intro hlt
  have hrank : compare (Binary64.rankOf t.double.word) (Binary64.rankOf s.double.word) = .lt := hlt
  have := UInt64.lt_iff_toNat_lt.mp (Std.compare_eq_lt.mp hrank)
  omega

theorem not_after_lt (t : Time) {d : TimeSpan} (h : Binary64.Unsigned d.seconds) :
    ¬ t.after d < t :=
  not_lt_of_rankOf_le (Double.rankOf_le_add t.double h)

end Time

namespace TimeSpan

theorem lt_of_rankOf_lt {a b : TimeSpan}
    (h : (Binary64.rankOf a.double.word).toNat < (Binary64.rankOf b.double.word).toNat) :
    a < b := by
  change compare (Binary64.rankOf a.double.word) (Binary64.rankOf b.double.word) = .lt
  exact Std.compare_eq_lt.mpr (UInt64.lt_iff_toNat_lt.mpr h)

@[simp] theorem seconds_mk (x : Float) : (⟨x⟩ : TimeSpan).seconds = x := Double.toFloat_ofFloat x

@[simp] theorem seconds_sub (a b : TimeSpan) : (a - b).seconds = a.seconds - b.seconds :=
  Double.toFloat_sub _ _

@[simp] theorem seconds_scale (k : Float) (a : TimeSpan) : (a.scale k).seconds = k * a.seconds :=
  seconds_mk _

theorem mk_seconds {a : TimeSpan} (h : a.seconds.isFinite = true) : mk a.seconds = a :=
  congrArg ofDouble (Double.ofFloat_toFloat (Binary64.isNaN_of_isFinite h))

end TimeSpan

end OppNet
