import OppNet.Proofs.Binary64.Positive
import OppNet.Proofs.Random.Draw

/-!
# OppNet.Proofs.Random.Distribution

Which distributions can be sampled. `flaw?` looks at the parameters before a run, and `sample`
refuses what it cannot draw from.

* `samples_normal`, `samples_exponential`: the ziggurats refuse nothing.
* `sample_unsampleable_iff`: what has passed `flaw?` is refused for one reason only, a range of
  doubles that is wider than the largest double.
-/

namespace OppNet.Random

variable {σ : Type} [Source σ]

/-! ### Ziggurats -/

namespace Ziggurat

open Draw

theorem samples_attempt (table : ZigguratTable) (point : UInt64 → Float)
    (width density : Float → Float) {tail : Float → Draw σ Float} (h : ∀ u, (tail u).Samples) :
    (attempt table point width density tail).Samples := by
  refine samples_word.bind fun w => ?_
  dsimp only
  split
  · exact samples_pure _
  · split
    · exact (h _).bind fun _ => samples_pure _
    · refine samples_unit.bind fun v => ?_
      split <;> exact samples_pure _

theorem samples_exponential : (exponential : Draw σ Float).Samples :=
  (samples_attempt _ _ _ _ fun _ => samples_unit.bind fun _ => samples_pure _).untilSome _

theorem samples_tryNormalTail : (tryNormalTail : Draw σ (Option Float)).Samples := by
  refine samples_openUnit.bind fun a => samples_openUnit.bind fun b => ?_
  dsimp only
  split <;> exact samples_pure _

theorem samples_normal : (normal : Draw σ Float).Samples := by
  refine (samples_attempt _ _ _ _ fun u => ?_).untilSome _
  exact (samples_tryNormalTail.untilSome _).bind fun x => samples_pure _

end Ziggurat

/-! ### Distributions -/

namespace Distribution

open Binary64

theorem uniform_unsampleable_iff {min max : Float} (h : (uniform min max).flaw? = none) (g : σ) :
    (uniform min max).sample g = .error .unsampleable ↔ (max - min).isFinite = false := by
  simp only [flaw?, ite_eq_right_iff, reduceCtorEq, imp_false, Bool.or_eq_true, not_or,
    Bool.not_eq_true, Bool.not_eq_false', Bool.and_eq_true, decide_eq_true_eq] at h
  obtain ⟨⟨hmin, hmax⟩, hlt⟩ := h
  have hlt : min < max := lt_of_not_le (isNaN_of_isFinite hmin) (isNaN_of_isFinite hmax) hlt
  rw [sample, Uniform.double]
  cases hwidth : (max - min).isFinite with
  | true =>
    rw [if_pos (by simp [hlt])]
    exact iff_of_false nofun nofun
  | false =>
    rw [if_neg (by simp)]
    exact iff_of_true rfl rfl

/--
A distribution without a flaw is refused, by any source of words, exactly when it is uniform and
its bounds are so far apart that their distance is not finite.
-/
theorem sample_unsampleable_iff {d : Distribution} (h : d.flaw? = none) (g : σ) :
    d.sample g = .error .unsampleable ↔
      ∃ min max, d = .uniform min max ∧ (max - min).isFinite = false := by
  cases d with
  | always value => exact iff_of_false nofun nofun
  | uniform min max =>
    rw [uniform_unsampleable_iff h]
    constructor
    · exact fun hwidth => ⟨min, max, rfl, hwidth⟩
    · rintro ⟨_, _, he, hwidth⟩
      cases he
      exact hwidth
  | normal mean stdDev =>
    refine iff_of_false ?_ nofun
    have hdev : stdDev.isFinite = true := by
      simp only [flaw?, ite_eq_right_iff, reduceCtorEq, imp_false, Bool.or_eq_true, not_or,
        Bool.not_eq_true, Bool.not_eq_false', Bool.and_eq_true] at h
      exact h.1.2
    rw [sample, if_pos hdev]
    exact Ziggurat.samples_normal.bind (fun _ => Draw.samples_pure _) g
  | exponential mean =>
    refine iff_of_false ?_ nofun
    -- The inverse of a large mean may be zero, which is still a rate.
    have hmean : mean.isFinite = true ∧ ¬ mean ≤ 0.0 := by
      simpa [flaw?] using h
    have hpos : 0.0 < mean := lt_of_not_le (by decide) (isNaN_of_isFinite hmean.1) hmean.2
    rw [sample, if_pos (zero_le_one_div hpos)]
    exact Ziggurat.samples_exponential.bind (fun _ => Draw.samples_pure _) g

/-- All finite doubles lie in this range. -/
def widest : Distribution := .uniform lowest (-lowest)

theorem widest_unsampleable :
    widest.flaw? = none ∧ widest.sample (Generator.ofSeed 1) = .error .unsampleable := by
  refine ⟨by decide +kernel, ?_⟩
  rfl

theorem widest_unsampleable_iff : widest.flaw? = none ∧
    (widest.sample (Generator.ofSeed 1) = .error .unsampleable ↔
      ∃ min max, widest = .uniform min max ∧ (max - min).isFinite = false) :=
  ⟨by decide +kernel, sample_unsampleable_iff (by decide +kernel) _⟩

end Distribution

end OppNet.Random
