import OppNet.Proofs.Binary64.Double

/-!
# OppNet.Proofs.Binary64.Merit

The order of sort keys, in the terms of the numeric comparisons.

* `height`: where a double lies among all of them, as a signed number of places. Both zeros lie at
  zero, and the NaN lies above infinity. `meritCompare_eq`: merits are compared by their heights.
* `compare_eq_height`: so are the numeric comparisons, as long as neither double is the NaN
  (`lt_iff_height`, `le_iff_height`). `lt_of_add_lt`: an unsigned addition raises.
* `meritCompare_eq_lt`, `meritCompare_eq_eq`: a merit is less if the other one is `Above` it, and
  two are equal if they are `Level`.
-/

open Float.Model Float.Model.UnpackedFloat

namespace OppNet.Binary64

/-- Greater as a sort key: numerically, or as the NaN next to any other double. -/
def Above (x y : Float) : Prop := y < x ∨ (x.isNaN = true ∧ y.isNaN = false)

/-- Equal as sort keys: numerically, as both zeros are, or as two NaNs. -/
def Level (x y : Float) : Prop := (x == y) = true ∨ (x.isNaN = true ∧ y.isNaN = true)

/-! ### Heights -/

/-- A number of places above zero or below it. -/
def signed : Sign → Nat → Int
  | .negative, n => -n
  | .positive, n => n

/-- Where a double lies, counted in places from zero. -/
def height : UnpackedFloat → Int
  | .notANumber => (infiniteWord + 2 ^ 51 : Nat)
  | .infinity s => signed s infiniteWord
  | .zero _ => 0
  | .finite s m e _ => signed s (place (units m e))

theorem height_infinity (s : Sign) : height (.infinity s) = signed s infiniteWord := rfl

theorem height_finite (s : Sign) {m : Nat} {e : Int} (hm : 0 < m) :
    height (.finite s m e hm) = signed s (place (units m e)) := rfl

/-- Finite parts are those of a double that has not overflowed. -/
def InRange : UnpackedFloat → Prop
  | .finite _ m e _ => Canonical m e ∧ place (units m e) < infiniteWord
  | _ => True

/-- No double has the parts of one that has overflowed. -/
theorem inRange_unpack (x : Float) : InRange x.toModel.unpack := by
  obtain ⟨hwf, hword⟩ := unpack_spec x.toModel
  cases hu : x.toModel.unpack with
  | finite s m e hm =>
    rw [hu] at hwf hword
    refine ⟨hwf, Nat.lt_of_not_le fun hover => ?_⟩
    have hmin : min (place (units m e)) infiniteWord = infiniteWord := Nat.min_eq_right hover
    -- Its word would be that of an infinity, and there is only one double of each word.
    have hrank : (rank x).toNat = (rank (.ofModel (pack (.infinity s)))).toNat := by
      rw [toNat_rank_pack (u := .infinity s) trivial, toNat_rank, hu]
      change line (signWord s + min (place (units m e)) infiniteWord) = _
      rw [hmin]
      rfl
    rw [rank_injective (UInt64.toNat_inj.mp hrank)] at hu
    cases s <;> cases hu
  | _ => trivial

/-- The point of a height on the line of merits, which has no room for a second zero. -/
def meritLine (h : Int) : Nat :=
  if 0 ≤ h then ((2 ^ 63 : Nat) + h).toNat else ((2 ^ 63 - 1 : Nat) + h).toNat

theorem toNat_meritRank (x : Float) :
    (meritRank x).toNat = meritLine (height x.toModel.unpack) := by
  have hrange := inRange_unpack x
  unfold meritRank
  by_cases hzero : (x == 0.0) = true
  · obtain ⟨s, hs⟩ := beq_zero_iff.mp hzero
    rw [if_pos hzero, hs]
    rfl
  · rw [if_neg hzero, toNat_rank]
    rw [beq_zero_iff] at hzero
    generalize x.toModel.unpack = u at hrange hzero ⊢
    cases u with
    | notANumber => decide
    | infinity s => cases s <;> decide
    | zero s => exact absurd ⟨s, rfl⟩ hzero
    | finite s m e hm =>
      obtain ⟨hc, hsmall⟩ := hrange
      have hpos : 0 < place (units m e) := by
        have := hc.pos
        rw [hc.place_units]
        omega
      rw [infiniteWord] at hsmall
      cases s with
      | negative =>
        have hneg : ¬ (0 : Int) ≤ -(place (units m e) : Int) := by omega
        rw [line_finite_negative, infiniteWord]
        change _ = meritLine (-(place (units m e) : Int))
        rw [meritLine, if_neg hneg]
        omega
      | positive =>
        have hnat : (0 : Int) ≤ (place (units m e) : Int) := by omega
        rw [line_finite_positive, infiniteWord]
        change _ = meritLine (place (units m e) : Int)
        rw [meritLine, if_pos hnat]
        omega

theorem neg_lt_height {u : UnpackedFloat} (h : InRange u) : -(2 ^ 63 : Nat) < height u := by
  cases u with
  | notANumber => decide
  | infinity s => cases s <;> decide
  | zero s => cases s <;> decide
  | finite s m e hm =>
    have hsmall := h.2
    rw [infiniteWord] at hsmall
    rw [height_finite]
    cases s <;> simp only [signed] <;> omega

theorem meritLine_lt_iff {g h : Int} (hg : -(2 ^ 63 : Nat) < g) :
    meritLine g < meritLine h ↔ g < h := by
  unfold meritLine
  split <;> split <;> omega

theorem meritRank_lt_iff (x y : Float) :
    meritRank x < meritRank y ↔ height x.toModel.unpack < height y.toModel.unpack := by
  rw [UInt64.lt_iff_toNat_lt, toNat_meritRank, toNat_meritRank,
    meritLine_lt_iff (neg_lt_height (inRange_unpack x))]

theorem meritCompare_eq (x y : Float) :
    meritCompare x y = compare (height x.toModel.unpack) (height y.toModel.unpack) := by
  rcases Int.lt_trichotomy (height x.toModel.unpack) (height y.toModel.unpack) with h | h | h
  · rw [Int.compare_eq_lt.mpr h]
    exact Std.compare_eq_lt.mpr ((meritRank_lt_iff x y).mpr h)
  · have hrank : meritRank x = meritRank y := by
      rw [← UInt64.toNat_inj, toNat_meritRank, toNat_meritRank, h]
    rw [Int.compare_eq_eq.mpr h, meritCompare, hrank]
    exact Std.ReflCmp.compare_self
  · rw [Int.compare_eq_gt.mpr h]
    exact Std.compare_eq_gt.mpr ((meritRank_lt_iff y x).mpr h)

/-! ### Numeric comparisons -/

/-- Of two canonical forms the larger exponent decides, and then the larger mantissa. -/
theorem compare_place {m₁ m₂ : Nat} {e₁ e₂ : Int} (h₁ : Canonical m₁ e₁) (h₂ : Canonical m₂ e₂) :
    (compare e₁ e₂).then (compare m₁ m₂) =
      compare (place (units m₁ e₁) : Int) (place (units m₂ e₂)) := by
  rw [h₁.place_units, h₂.place_units]
  obtain ⟨_, hlt₁, hle₁, hn₁⟩ := h₁
  obtain ⟨_, hlt₂, hle₂, hn₂⟩ := h₂
  rcases Int.lt_trichotomy e₁ e₂ with h | rfl | h
  · rw [Int.compare_eq_lt.mpr h]
    exact (Int.compare_eq_lt.mpr (by omega)).symm
  · rw [Int.compare_eq_eq.mpr rfl]
    rcases Nat.lt_trichotomy m₁ m₂ with h | rfl | h
    · rw [Nat.compare_eq_lt.mpr h]
      exact (Int.compare_eq_lt.mpr (by omega)).symm
    · rw [Nat.compare_eq_eq.mpr rfl]
      exact (Int.compare_eq_eq.mpr rfl).symm
    · rw [Nat.compare_eq_gt.mpr h]
      exact (Int.compare_eq_gt.mpr (by omega)).symm
  · rw [Int.compare_eq_gt.mpr h]
    exact (Int.compare_eq_gt.mpr (by omega)).symm

theorem compare_neg (g h : Int) : compare (-g) (-h) = (compare g h).swap := by
  rcases Int.lt_trichotomy g h with hlt | rfl | hgt
  · rw [Int.compare_eq_lt.mpr hlt]
    exact Int.compare_eq_gt.mpr (by omega)
  · rw [Int.compare_eq_eq.mpr rfl, Int.compare_eq_eq.mpr rfl]
    rfl
  · rw [Int.compare_eq_gt.mpr hgt]
    exact Int.compare_eq_lt.mpr (by omega)

section Finite

variable {s t : Sign} {m m₁ m₂ : Nat} {e e₁ e₂ : Int} {hm : 0 < m} {hm₁ : 0 < m₁} {hm₂ : 0 < m₂}

theorem InRange.place_pos (h : InRange (.finite s m e hm)) : 0 < place (units m e) := by
  rw [h.1.place_units]
  omega

theorem InRange.negative (h : InRange (.finite .negative m e hm)) :
    height (.finite .negative m e hm) < 0 := by
  have hpos := h.place_pos
  rw [height_finite]
  simp only [signed]
  omega

theorem InRange.positive (h : InRange (.finite .positive m e hm)) :
    0 < height (.finite .positive m e hm) :=
  Int.ofNat_lt.mpr h.place_pos

theorem InRange.between (h : InRange (.finite s m e hm)) :
    height (.infinity .negative) < height (.finite s m e hm) ∧
      height (.finite s m e hm) < height (.infinity .positive) := by
  have hsmall := h.2
  rw [height_finite, height_infinity, height_infinity]
  cases s <;> simp only [signed] <;> omega

theorem some_lt {g h : Int} (hlt : g < h) : some Ordering.lt = some (compare g h) :=
  congrArg some (Int.compare_eq_lt.mpr hlt).symm

theorem some_gt {g h : Int} (hgt : h < g) : some Ordering.gt = some (compare g h) :=
  congrArg some (Int.compare_eq_gt.mpr hgt).symm

theorem compare_finite (hu : InRange (.finite s m₁ e₁ hm₁)) (hv : InRange (.finite t m₂ e₂ hm₂)) :
    UnpackedFloat.compare (.finite s m₁ e₁ hm₁) (.finite t m₂ e₂ hm₂) =
      some (compare (height (.finite s m₁ e₁ hm₁)) (height (.finite t m₂ e₂ hm₂))) := by
  have hplace := compare_place hu.1 hv.1
  cases s with
  | negative =>
    cases t with
    | negative =>
      refine congrArg some (?_ : ((compare e₁ e₂).then (compare m₁ m₂)).swap = _)
      rw [hplace]
      exact (compare_neg _ _).symm
    | positive => exact some_lt (Int.lt_trans hu.negative hv.positive)
  | positive =>
    cases t with
    | negative => exact some_gt (Int.lt_trans hv.negative hu.positive)
    | positive => exact congrArg some hplace

end Finite

theorem compare_eq_height {u v : UnpackedFloat} (hu : InRange u) (hv : InRange v)
    (hu' : u ≠ .notANumber) (hv' : v ≠ .notANumber) :
    UnpackedFloat.compare u v = some (compare (height u) (height v)) := by
  cases u with
  | notANumber => exact absurd rfl hu'
  | infinity s =>
    cases v with
    | notANumber => exact absurd rfl hv'
    | infinity t => cases s <;> cases t <;> rfl
    | zero t => cases s <;> rfl
    | finite t m e hm =>
      cases s with
      | negative => exact some_lt hv.between.1
      | positive => exact some_gt hv.between.2
  | zero s =>
    cases v with
    | notANumber => exact absurd rfl hv'
    | infinity t => cases t <;> rfl
    | zero t => rfl
    | finite t m e hm =>
      cases t with
      | negative => exact some_gt hv.negative
      | positive => exact some_lt hv.positive
  | finite s m e hm =>
    cases v with
    | notANumber => exact absurd rfl hv'
    | infinity t =>
      cases t with
      | negative =>
        refine Eq.trans ?_ (some_gt hu.between.1)
        cases s <;> rfl
      | positive =>
        refine Eq.trans ?_ (some_lt hu.between.2)
        cases s <;> rfl
    | zero t =>
      cases s with
      | negative => exact some_lt hu.negative
      | positive => exact some_gt hu.positive
    | finite t m' e' hm' => exact compare_finite hu hv

theorem height_lt_notANumber {u : UnpackedFloat} (hu : InRange u) (hu' : u ≠ .notANumber) :
    height u < height .notANumber := by
  cases u with
  | notANumber => exact absurd rfl hu'
  | infinity s => cases s <;> decide
  | zero s => cases s <;> decide
  | finite s m e hm =>
    have hbetween := hu.between.2
    exact Int.lt_trans hbetween (by decide)

theorem beq_eq (u v : UnpackedFloat) :
    UnpackedFloat.beq u v = (UnpackedFloat.compare u v == some .eq) := rfl

theorem notANumber_compare (u : UnpackedFloat) : UnpackedFloat.compare .notANumber u = none := by
  cases u <;> rfl

theorem compare_notANumber (u : UnpackedFloat) : UnpackedFloat.compare u .notANumber = none := by
  cases u <;> rfl

/-- What a comparison says, if the NaN is placed above everything else and level with itself. -/
theorem compare_height_iff {u v : UnpackedFloat} (hu : InRange u) (hv : InRange v) :
    (compare (height u) (height v) = .lt ↔
      UnpackedFloat.lt u v = true ∨ u ≠ .notANumber ∧ v = .notANumber) ∧
    (compare (height u) (height v) = .eq ↔
      UnpackedFloat.beq u v = true ∨ u = .notANumber ∧ v = .notANumber) := by
  by_cases hu' : u = .notANumber
  · subst hu'
    rw [UnpackedFloat.lt, beq_eq, notANumber_compare]
    by_cases hv' : v = .notANumber
    · subst hv'
      simp
    · have hlt := height_lt_notANumber hv hv'
      rw [Int.compare_eq_gt.mpr hlt]
      simp [hv']
  · by_cases hv' : v = .notANumber
    · subst hv'
      have hlt := height_lt_notANumber hu hu'
      rw [UnpackedFloat.lt, beq_eq, compare_notANumber, Int.compare_eq_lt.mpr hlt]
      simp [hu']
    · rw [UnpackedFloat.lt, beq_eq, compare_eq_height hu hv hu' hv']
      simp [hu', hv']

/-! ### Doubles that are not the NaN -/

theorem lt_iff_height {x y : Float} (hx : x.isNaN = false) (hy : y.isNaN = false) :
    x < y ↔ height x.toModel.unpack < height y.toModel.unpack := by
  rw [lt_iff, UnpackedFloat.lt, compare_eq_height (inRange_unpack x) (inRange_unpack y)
    (ne_notANumber hx) (ne_notANumber hy), beq_iff_eq, Option.some_inj, Int.compare_eq_lt]

theorem le_iff_height {x y : Float} (hx : x.isNaN = false) (hy : y.isNaN = false) :
    x ≤ y ↔ height x.toModel.unpack ≤ height y.toModel.unpack := by
  rw [le_iff, UnpackedFloat.le, compare_eq_height (inRange_unpack x) (inRange_unpack y)
    (ne_notANumber hx) (ne_notANumber hy), Option.any_some, Int.isLE_compare]

theorem le_refl_of_number {x : Float} (hx : x.isNaN = false) : x ≤ x :=
  (le_iff_height hx hx).mpr (Int.le_refl _)

theorem not_lt_iff_le {x y : Float} (hx : x.isNaN = false) (hy : y.isNaN = false) :
    ¬ x < y ↔ y ≤ x := by
  rw [lt_iff_height hx hy, le_iff_height hy hx, Int.not_lt]

theorem le_of_lt_of_numbers {x y : Float} (hx : x.isNaN = false) (hy : y.isNaN = false)
    (h : x < y) : x ≤ y :=
  (le_iff_height hx hy).mpr (Int.le_of_lt ((lt_iff_height hx hy).mp h))

theorem isNaN_of_comparable {x y : Float}
    (h : UnpackedFloat.compare x.toModel.unpack y.toModel.unpack ≠ none) :
    x.isNaN = false ∧ y.isNaN = false := by
  rw [← Bool.not_eq_true, ← Bool.not_eq_true, isNaN_iff, isNaN_iff]
  constructor
  · intro hx
    rw [hx] at h
    exact h (notANumber_compare _)
  · intro hy
    rw [hy] at h
    exact h (compare_notANumber _)

theorem isNaN_of_lt {x y : Float} (h : x < y) : x.isNaN = false ∧ y.isNaN = false := by
  refine isNaN_of_comparable fun hnone => ?_
  rw [lt_iff, UnpackedFloat.lt, hnone] at h
  cases h

theorem isNaN_of_le {x y : Float} (h : x ≤ y) : x.isNaN = false ∧ y.isNaN = false := by
  refine isNaN_of_comparable fun hnone => ?_
  rw [le_iff, UnpackedFloat.le, hnone] at h
  cases h

/-- The zeros lie at the middle of the line and right below it. -/
theorem rank_of_beq_zero {x : Float} (h : (x == 0.0) = true) :
    2 ^ 63 - 1 ≤ (rank x).toNat ∧ (rank x).toNat ≤ 2 ^ 63 := by
  obtain ⟨s, hs⟩ := beq_zero_iff.mp h
  rw [toNat_rank, hs]
  cases s <;> decide

theorem beq_zero_of_rank {x : Float} (h : (rank x).toNat = 2 ^ 63 - 1) : (x == 0.0) = true := by
  have hzero : rank x = rank (-0.0) := by
    rw [← UInt64.toNat_inj, h]
    rfl
  rw [rank_injective hzero]
  rfl

/-- What is not further along the line of doubles does not lie higher. -/
theorem height_le_of_rank_le {x y : Float} (h : (rank x).toNat ≤ (rank y).toNat) :
    height x.toModel.unpack ≤ height y.toModel.unpack := by
  refine Int.not_lt.mp fun hlt => ?_
  rw [← meritRank_lt_iff, UInt64.lt_iff_toNat_lt] at hlt
  unfold meritRank at hlt
  have hmiddle : signBit.toNat = 2 ^ 63 := rfl
  split at hlt <;> split at hlt
  · exact Nat.lt_irrefl _ hlt
  · rename_i hy _
    have := (rank_of_beq_zero hy).2
    omega
  · rename_i hy hx
    have := (rank_of_beq_zero hx).1
    exact hy (beq_zero_of_rank (by omega))
  · omega

/-- What is less after the addition of an unsigned double was less before it. -/
theorem lt_of_add_lt {x y z : Float} (hx : x.isNaN = false) (hz : Unsigned z) (h : x + z < y) :
    x < y := by
  obtain ⟨hsum, hy⟩ := isNaN_of_lt h
  rw [lt_iff_height hsum hy] at h
  rw [lt_iff_height hx hy]
  exact Int.lt_of_le_of_lt (height_le_of_rank_le (rank_le_rank_add x hz)) h

theorem meritCompare_eq_lt {x y : Float} : meritCompare x y = .lt ↔ Above y x := by
  rw [meritCompare_eq, Above, lt_iff, ← Bool.not_eq_true, isNaN_iff, isNaN_iff,
    and_comm (a := y.toModel.unpack = _)]
  exact (compare_height_iff (inRange_unpack x) (inRange_unpack y)).1

theorem meritCompare_eq_eq {x y : Float} : meritCompare x y = .eq ↔ Level x y := by
  rw [meritCompare_eq, Level, isNaN_iff, isNaN_iff]
  exact (compare_height_iff (inRange_unpack x) (inRange_unpack y)).2

instance : Std.TransCmp meritCompare := inferInstanceAs (Std.TransCmp (compareOn meritRank))

end OppNet.Binary64
