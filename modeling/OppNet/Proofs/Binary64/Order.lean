import OppNet.Proofs.Binary64.Rounding
import OppNet.Quantity

/-!
# OppNet.Proofs.Binary64.Order

The line of all doubles, read off their parts instead of their words.

* `toNat_rank`: the rank of a double from its sign, mantissa and exponent (`word`, `line`), and
  `toNat_rank_pack` the same for the outcome of an operation.
* `unpack_word`: a word from what is read off it, unless it is that of a NaN. `unpack_spec`: a
  `Float` is always the word that its parts stand for.
* `unpack_pack`: packing and reading again loses nothing of a finite double.
* `rankOf_injective`: no two words share a rank, so doubles and times are linearly ordered.
-/

open Float.Model Float.Model.UnpackedFloat

namespace OppNet.Binary64

/-! ### Words -/

/-- The magnitude part of the word of infinity. -/
def infiniteWord : Nat := 2047 * 2 ^ 52

def signWord : Sign → Nat
  | .negative => 2 ^ 63
  | .positive => 0

/-- The word of a double, given its parts; a mantissa and exponent out of range overflow. -/
def word : UnpackedFloat → Nat
  | .notANumber => infiniteWord + 2 ^ 51
  | .infinity s => signWord s + infiniteWord
  | .zero s => signWord s
  | .finite s m e _ => signWord s + min (place (units m e)) infiniteWord

/-- The mantissa and exponent are those that doubles are stored with. -/
def WellFormed : UnpackedFloat → Prop
  | .finite _ m e _ => Canonical m e
  | _ => True

theorem toNat_append_word {n k : Nat} (x : BitVec n) (y : BitVec k) :
    (x ++ y).toNat = x.toNat * 2 ^ k + y.toNat := by
  rw [BitVec.toNat_append, ← Nat.shiftLeft_add_eq_or_of_lt y.isLt, Nat.shiftLeft_eq]

theorem toNat_packComponents (s : Sign) (e : BitVec 11) (m : BitVec 52) :
    (packComponents .binary64 s e m).toNat = signWord s + e.toNat * 2 ^ 52 + m.toNat := by
  unfold packComponents
  rw [toNat_append_word, toNat_append_word]
  cases s with
  | positive =>
    simp only [Sign.toBitVec, signWord, BitVec.toNat_ofNat]
    omega
  | negative =>
    simp only [Sign.toBitVec, signWord, BitVec.toNat_ofNat]
    omega

theorem Canonical.le_exponent {m : Nat} {e : Int} (h : Canonical m e) :
    infiniteWord ≤ place (units m e) ↔ 972 ≤ e := by
  have := h.lt
  have := h.le
  have := h.normal
  rw [h.place_units, infiniteWord]
  omega

/-- Packing a finite double, with the numbers of the format filled in. -/
theorem pack_finite (s : Sign) {m : Nat} (e : Int) (hm : 0 < m) :
    UnpackedFloat.pack .binary64 (.finite s m e hm) =
      if 2 ^ 11 ≤ (e + 1075).toNat + 1 then packedInfinity .binary64 s
      else if m.log2 + 1 = 53 then
        packComponents .binary64 s (BitVec.ofNat 11 (e + 1075).toNat) (BitVec.ofNat 52 m)
      else packComponents .binary64 s 0#11 (BitVec.ofNat 52 m) := by
  have hbias : e + ((1023 : Nat) : Int) + ((52 : Nat) : Int) = e + 1075 := by omega
  rw [← hbias]
  rfl

theorem toNat_packedInfinity (s : Sign) :
    (packedInfinity .binary64 s).toNat = signWord s + infiniteWord := by
  cases s <;> decide +kernel

theorem toNat_pack {u : UnpackedFloat} (h : WellFormed u) : (pack u).toBits.toNat = word u := by
  change (UnpackedFloat.pack .binary64 u).toNat = word u
  cases u with
  | notANumber => decide +kernel
  | infinity s => exact toNat_packedInfinity s
  | zero s => cases s <;> decide +kernel
  | finite s m e hm =>
    have hc : Canonical m e := h
    have hplace := hc.place_units
    have hle := hc.le
    have hlt := hc.lt
    have hbig := hc.le_exponent
    change _ = signWord s + min (place (units m e)) infiniteWord
    rw [pack_finite]
    split
    · rename_i hover
      rw [Nat.min_eq_right (hbig.mpr (by omega)), toNat_packedInfinity]
    · rename_i hover
      have hsmall : ¬ infiniteWord ≤ place (units m e) := by
        rw [hbig]
        omega
      have hmin := Nat.min_eq_left (Nat.le_of_not_le hsmall)
      rw [hmin, hplace]
      split
      · rename_i hlog
        have hm52 : 2 ^ m.log2 ≤ m := Nat.log2_self_le (by omega)
        rw [show m.log2 = 52 by omega] at hm52
        rw [toNat_packComponents, BitVec.toNat_ofNat, BitVec.toNat_ofNat]
        omega
      · rename_i hlog
        have hm53 : m.log2 < 53 := (Nat.log2_lt (by omega)).mpr hlt
        have hm52 : m < 2 ^ 52 := (Nat.log2_lt (by omega)).mp (by omega)
        have he : e = -1074 := by have := hc.normal; omega
        rw [toNat_packComponents, BitVec.toNat_ofNat, BitVec.toNat_ofNat]
        omega

/-! ### Reading a word -/

theorem toNat_unpackMantissa (b : BitVec 64) :
    (@unpackMantissa .binary64 b).toNat = b.toNat % 2 ^ 52 := by
  simp [unpackMantissa, Nat.shiftRight_eq_div_pow]

theorem toNat_unpackExponent (b : BitVec 64) :
    (@unpackExponent .binary64 b).toNat = b.toNat / 2 ^ 52 % 2 ^ 11 := by
  simp [unpackExponent, Nat.shiftRight_eq_div_pow]

theorem signWord_unpackSign (b : BitVec 64) :
    signWord (Sign.ofBitVec (@unpackSign .binary64 b)) = b.toNat / 2 ^ 63 * 2 ^ 63 := by
  have hlt := b.isLt
  have hsign : (@unpackSign .binary64 b).toNat = b.toNat / 2 ^ 63 % 2 := by
    change (BitVec.cast _ (b.extractLsb (52 + 11) (52 + 11))).toNat = _
    simp [Nat.shiftRight_eq_div_pow]
  unfold Sign.ofBitVec
  split
  · rename_i h0
    rw [h0] at hsign
    simp only [BitVec.toNat_ofNat, Nat.zero_mod] at hsign
    simp only [signWord]
    omega
  · rename_i h1
    have : (@unpackSign .binary64 b).toNat ≠ 0 := fun h0 => h1 (BitVec.eq_of_toNat_eq h0)
    simp only [signWord]
    omega

theorem unpackExponent_eq_iff {b : BitVec 64} {e : BitVec 11} :
    @unpackExponent .binary64 b = e ↔ b.toNat / 2 ^ 52 % 2 ^ 11 = e.toNat := by
  rw [← toNat_unpackExponent]
  exact ⟨fun h => h ▸ rfl, BitVec.eq_of_toNat_eq⟩

theorem unpackMantissa_eq_iff {b : BitVec 64} {m : BitVec 52} :
    @unpackMantissa .binary64 b = m ↔ b.toNat % 2 ^ 52 = m.toNat := by
  rw [← toNat_unpackMantissa]
  exact ⟨fun h => h ▸ rfl, BitVec.eq_of_toNat_eq⟩

theorem finite_spec {s : Sign} {m : Nat} {e : Int} {n : Nat} (m' : Nat) (e' : Int) (hm : 0 < m)
    (hmm : m = m') (hee : e = e') (hc : Canonical m' e') (he : e' < 972)
    (hn : signWord s + ((e' + 1074).toNat * 2 ^ 52 + m') = n) :
    WellFormed (.finite s m e hm) ∧ word (.finite s m e hm) = n := by
  subst hmm hee
  refine ⟨hc, ?_⟩
  have hsmall : ¬ infiniteWord ≤ place (units m e) := by
    rw [hc.le_exponent]
    omega
  change signWord s + min (place (units m e)) infiniteWord = n
  rw [Nat.min_eq_left (Nat.le_of_not_le hsmall), hc.place_units]
  exact hn

theorem unpack_eq_notANumber_iff {b : BitVec 64} :
    UnpackedFloat.unpack .binary64 b = .notANumber ↔
      @unpackExponent .binary64 b = -1#11 ∧ @unpackMantissa .binary64 b ≠ 0#52 := by
  unfold UnpackedFloat.unpack
  dsimp only
  by_cases hones : @unpackExponent .binary64 b = -1#11
  · rw [if_pos hones]
    by_cases hzero : @unpackMantissa .binary64 b = 0#52
    · rw [if_pos hzero]
      refine iff_of_false ?_ fun h => h.2 hzero
      intro h
      cases h
    · rw [if_neg hzero]
      exact iff_of_true rfl ⟨hones, hzero⟩
  · rw [if_neg hones]
    refine iff_of_false ?_ fun h => hones h.1
    intro h
    by_cases hnone : @unpackExponent .binary64 b = 0#11
    · rw [if_pos hnone] at h
      by_cases hzero : @unpackMantissa .binary64 b = 0#52
      · rw [dif_pos hzero] at h
        cases h
      · rw [dif_neg hzero] at h
        cases h
    · rw [if_neg hnone] at h
      cases h

/-- The parts that are read off a word, and the way back. -/
theorem unpack_word {b : BitVec 64} (hb : UnpackedFloat.unpack .binary64 b ≠ .notANumber) :
    WellFormed (UnpackedFloat.unpack .binary64 b) ∧
      word (UnpackedFloat.unpack .binary64 b) = b.toNat := by
  have hlt := b.isLt
  have hsign := signWord_unpackSign b
  have hmant := toNat_unpackMantissa b
  have hnumber := mt unpack_eq_notANumber_iff.mpr hb
  unfold UnpackedFloat.unpack
  dsimp only
  by_cases hones : @unpackExponent .binary64 b = -1#11
  · have hall : b.toNat / 2 ^ 52 % 2 ^ 11 = 2047 := unpackExponent_eq_iff.mp hones
    have hzero : @unpackMantissa .binary64 b = 0#52 :=
      Decidable.not_not.mp fun hzero => hnumber ⟨hones, hzero⟩
    have hfrac : b.toNat % 2 ^ 52 = 0 := unpackMantissa_eq_iff.mp hzero
    rw [if_pos hones, if_pos hzero]
    refine ⟨trivial, ?_⟩
    change signWord _ + infiniteWord = _
    rw [hsign, infiniteWord]
    omega
  · have hnot : ¬ b.toNat / 2 ^ 52 % 2 ^ 11 = 2047 := fun h => hones (unpackExponent_eq_iff.mpr h)
    rw [if_neg hones]
    by_cases hnone : @unpackExponent .binary64 b = 0#11
    · have hexp : b.toNat / 2 ^ 52 % 2 ^ 11 = 0 := unpackExponent_eq_iff.mp hnone
      rw [if_pos hnone]
      by_cases hzero : @unpackMantissa .binary64 b = 0#52
      · have hfrac : b.toNat % 2 ^ 52 = 0 := unpackMantissa_eq_iff.mp hzero
        rw [dif_pos hzero]
        refine ⟨trivial, ?_⟩
        change signWord _ = _
        rw [hsign]
        omega
      · have hfrac : ¬ b.toNat % 2 ^ 52 = 0 := fun h => hzero (unpackMantissa_eq_iff.mpr h)
        rw [dif_neg hzero]
        refine finite_spec (b.toNat % 2 ^ 52) (-1074) _ hmant ?_
          ⟨by omega, by omega, by omega, .inl rfl⟩ (by omega) ?_
        · rw [toNat_unpackExponent, hexp]
          rfl
        · rw [hsign, Int.add_left_neg, Int.toNat_zero, Nat.zero_mul]
          omega
    · have hnz : ¬ b.toNat / 2 ^ 52 % 2 ^ 11 = 0 := fun h => hnone (unpackExponent_eq_iff.mpr h)
      rw [if_neg hnone]
      refine finite_spec (2 ^ 52 + b.toNat % 2 ^ 52)
        ((b.toNat / 2 ^ 52 % 2 ^ 11 : Nat) - 1075) _ ?_ ?_
        ⟨by omega, by omega, by omega, .inr (by omega)⟩ (by omega) ?_
      · rw [toNat_append_word, hmant]
        exact congrArg (· + b.toNat % 2 ^ 52) (Nat.one_mul (2 ^ 52))
      · rw [toNat_unpackExponent]
        rfl
      · rw [hsign]
        omega

/-- The parts of a double, and the way back to its word. -/
theorem unpack_spec (x : Float.Model) :
    WellFormed x.unpack ∧ word x.unpack = x.toBits.toNat := by
  by_cases hnan : x.unpack = .notANumber
  · obtain ⟨hones, hzero⟩ := unpack_eq_notANumber_iff.mp hnan
    have hword : x.toBits.toBitVec = packedNaN .binary64 := x.valid.eq_packedNaN hones hzero
    have htoNat : x.toBits.toNat = (packedNaN .binary64).toNat := congrArg BitVec.toNat hword
    rw [hnan, htoNat]
    exact ⟨trivial, by decide +kernel⟩
  · exact unpack_word hnan

/-- A word below that of infinity tells the parts of a double. -/
theorem eq_finite_of_word {u : UnpackedFloat} {m : Nat} {e : Int} (hwf : WellFormed u)
    (hc : Canonical m e) (he : e < 972) (hword : word u = place (units m e)) :
    u = .finite .positive m e hc.pos := by
  have hpos : 0 < place (units m e) := by
    have := hc.pos
    rw [hc.place_units]
    omega
  have hsmall : place (units m e) < infiniteWord := by
    rw [← Nat.not_le, hc.le_exponent]
    omega
  have hsign : infiniteWord < signWord .negative := by decide
  cases u with
  | notANumber =>
    refine absurd hword (Nat.ne_of_gt ?_)
    exact Nat.lt_of_lt_of_le hsmall (Nat.le_add_right _ _)
  | infinity s =>
    refine absurd hword (Nat.ne_of_gt ?_)
    exact Nat.lt_of_lt_of_le hsmall (Nat.le_add_left _ _)
  | zero s =>
    cases s with
    | negative => exact absurd hword (Nat.ne_of_gt (Nat.lt_trans hsmall hsign))
    | positive => exact absurd hword (Nat.ne_of_lt hpos)
  | finite s m' e' hm' =>
    have hc' : Canonical m' e' := hwf
    cases s with
    | negative =>
      refine absurd hword (Nat.ne_of_gt ?_)
      exact Nat.lt_of_lt_of_le (Nat.lt_trans hsmall hsign) (Nat.le_add_right _ _)
    | positive =>
      have hmin : min (place (units m' e')) infiniteWord = place (units m e) :=
        (Nat.zero_add _).symm.trans hword
      obtain ⟨rfl, rfl⟩ := hc'.ext hc (by omega)
      rfl

/-- Below the overflow, packing a double loses nothing. -/
theorem unpack_pack {m : Nat} {e : Int} (hc : Canonical m e) (he : e < 972) :
    (Float.Model.pack (.finite .positive m e hc.pos)).unpack = .finite .positive m e hc.pos := by
  obtain ⟨hwf, hword⟩ := unpack_spec (Float.Model.pack (.finite .positive m e hc.pos))
  refine eq_finite_of_word hwf hc he ?_
  have hsmall : place (units m e) ≤ infiniteWord := by
    refine Nat.le_of_not_le ?_
    rw [hc.le_exponent]
    omega
  rw [hword, toNat_pack (u := .finite .positive m e hc.pos) hc]
  change 0 + min (place (units m e)) infiniteWord = _
  rw [Nat.zero_add, Nat.min_eq_left hsmall]

/-! ### Ranks -/

/-- The rank that belongs to a word. -/
def line (w : Nat) : Nat := if 2 ^ 63 ≤ w then 2 ^ 64 - 1 - w else w + 2 ^ 63

theorem toNat_rankOf (w : UInt64) : (rankOf w).toNat = line w.toNat := by
  have hlt := w.toNat_lt
  unfold rankOf line
  simp only [UInt64.le_iff_toNat_le]
  change (if 2 ^ 63 ≤ w.toNat then _ else _ : UInt64).toNat = _
  split
  · exact UInt64.toNat_not w
  · have hsign : signBit.toNat = 2 ^ 63 := rfl
    rw [UInt64.toNat_add, hsign]
    omega

theorem rankOf_injective {v w : UInt64} (h : rankOf v = rankOf w) : v = w := by
  have hline : line v.toNat = line w.toNat := by
    rw [← toNat_rankOf, ← toNat_rankOf, h]
  have hv := v.toNat_lt
  have hw := w.toNat_lt
  refine UInt64.toNat_inj.mp ?_
  unfold line at hline
  split at hline <;> split at hline <;> omega

theorem toNat_rank (x : Float) : (rank x).toNat = line (word x.toModel.unpack) := by
  rw [rank, toNat_rankOf, (unpack_spec x.toModel).2]
  rfl

theorem toNat_rank_pack {u : UnpackedFloat} (h : WellFormed u) :
    (rank (.ofModel (pack u))).toNat = line (word u) := by
  rw [rank, toNat_rankOf, ← toNat_pack h]
  rfl

theorem eq_of_toBits_eq {x y : Float} (h : x.toBits = y.toBits) : x = y := by
  obtain ⟨⟨bx, _⟩⟩ := x
  obtain ⟨⟨b_y, _⟩⟩ := y
  obtain rfl : bx = b_y := h
  rfl

theorem rank_injective {x y : Float} (h : rank x = rank y) : x = y :=
  eq_of_toBits_eq (rankOf_injective h)

end OppNet.Binary64

namespace OppNet

open Binary64 (rankOf rankOf_injective)

instance : Std.TransOrd Double :=
  inferInstanceAs (Std.TransCmp (compareOn fun x : Double => rankOf x.word))

instance : Std.LawfulEqOrd Double where
  compare_self := (inferInstance : Std.ReflCmp (compareOn rankOf)).compare_self
  eq_of_compare {x y} h := by
    have hrank : compare (rankOf x.word) (rankOf y.word) = .eq := h
    exact congrArg Double.mk (rankOf_injective (Std.LawfulEqCmp.eq_of_compare hrank))

instance : Std.TransOrd Time := inferInstanceAs (Std.TransCmp (compareOn Time.double))

instance : Std.LawfulEqOrd Time where
  compare_self := (inferInstance : Std.ReflCmp (compareOn Time.double)).compare_self
  eq_of_compare {s t} h := by
    have hdouble : compare s.double t.double = .eq := h
    exact congrArg Time.ofDouble (Std.LawfulEqCmp.eq_of_compare hdouble)

instance : Std.IsLinearOrder Time := .of_ord

end OppNet
