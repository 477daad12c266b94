import OppNet.Random.Distribution

/-!
# OppNet.Proofs.Random.Draw

Draws from any source of words, step by step.

* `bind_eq_ok`: what a draw yields that goes on with the outcome of another one.
* `exists_attempt`: what a repetition yields comes from one of its attempts.
* `Samples`: the draw never refuses its parameters, whatever the source yields. Sequences and
  repetitions of such draws are such draws.
* `Uniform.integer_bounds`: an integer is drawn from its range.
-/

namespace OppNet.Random

namespace Draw

variable {σ α β : Type}

theorem bind_of_ok {d : Draw σ α} (f : α → Draw σ β) {g g' : σ} {a : α} (h : d g = .ok (a, g')) :
    (d >>= f) g = f a g' := by
  change (d g >>= fun r => f r.1 r.2) = _
  rw [h]
  rfl

theorem bind_of_error {d : Draw σ α} (f : α → Draw σ β) {g : σ} {e : DrawFailure}
    (h : d g = .error e) : (d >>= f) g = .error e := by
  change (d g >>= fun r => f r.1 r.2) = _
  rw [h]
  rfl

theorem bind_eq_ok {d : Draw σ α} {f : α → Draw σ β} {g g'' : σ} {b : β}
    (h : (d >>= f) g = .ok (b, g'')) : ∃ a g', d g = .ok (a, g') ∧ f a g' = .ok (b, g'') := by
  cases hd : d g with
  | error e =>
    rw [bind_of_error f hd] at h
    cases h
  | ok r =>
    rw [bind_of_ok f hd] at h
    exact ⟨r.1, r.2, rfl, h⟩

theorem pure_eq_ok {g g' : σ} {a b : α} (h : (pure a : Draw σ α) g = .ok (b, g')) : a = b := by
  cases h
  rfl

theorem untilSome_succ (attempt : Draw σ (Option α)) (fuel : Nat) (g : σ) :
    untilSome attempt (fuel + 1) g =
      match attempt g with
      | .error f => .error f
      | .ok (some a, g) => .ok (a, g)
      | .ok (none, g) => untilSome attempt fuel g := rfl

/-- What a repetition yields is what one of its attempts has yielded. -/
theorem exists_attempt {attempt : Draw σ (Option α)} {fuel : Nat} {g g' : σ} {a : α}
    (h : untilSome attempt fuel g = .ok (a, g')) : ∃ g₀, attempt g₀ = .ok (some a, g') := by
  induction fuel generalizing g with
  | zero => cases h
  | succ fuel ih =>
    rw [untilSome_succ] at h
    split at h
    · cases h
    · rename_i hsome
      cases h
      exact ⟨g, hsome⟩
    · exact ih h

/-! ### Draws that never refuse -/

/-- Whatever the source yields, the parameters admit a sample. -/
def Samples (d : Draw σ α) : Prop := ∀ g, d g ≠ .error .unsampleable

theorem samples_pure (a : α) : Samples (pure a : Draw σ α) := fun _ => nofun

theorem Samples.bind {d : Draw σ α} {f : α → Draw σ β} (hd : d.Samples)
    (hf : ∀ a, (f a).Samples) : (d >>= f).Samples := by
  intro g
  cases h : d g with
  | error e =>
    rw [bind_of_error f h]
    exact fun he => hd g (h.trans (congrArg Except.error (Except.error.inj he)))
  | ok r =>
    rw [bind_of_ok f h]
    exact hf r.1 r.2

theorem Samples.untilSome {attempt : Draw σ (Option α)} (h : attempt.Samples) (fuel : Nat) :
    (untilSome attempt fuel).Samples := by
  induction fuel with
  | zero => exact fun _ => nofun
  | succ fuel ih =>
    intro g
    rw [untilSome_succ]
    split
    · rename_i e he
      exact fun hf => h g (he.trans (congrArg Except.error (Except.error.inj hf)))
    · exact nofun
    · exact ih _

variable [Source σ]

theorem samples_word : Samples (word : Draw σ UInt64) := fun _ => nofun

theorem samples_unit : Samples (unit : Draw σ Float) := fun _ => nofun

theorem samples_openUnit : Samples (openUnit : Draw σ Float) := fun _ => nofun

end Draw

/-! ### Integers -/

namespace Uniform

variable {σ : Type} [Source σ]

theorem lt_of_tryBelow {range n : Nat} (hr : 0 < range) {g g' : σ}
    (h : tryBelow range g = .ok (some n, g')) : n < range := by
  unfold tryBelow at h
  dsimp only at h
  split at h
  · cases h
    have hword : (Source.next g).1.toNat < words := UInt64.toNat_lt _
    exact Nat.div_lt_of_lt_mul (Nat.mul_lt_mul_of_pos_right hword hr)
  · cases h

theorem integer_bounds {low high n : Nat} {g g' : σ} (h : integer low high g = .ok (n, g')) :
    low ≤ n ∧ n < high := by
  unfold integer at h
  split at h
  · cases h
  · rename_i hrange
    dsimp only at h
    split at h
    · cases h
    · rename_i m g₁ hm
      cases h
      obtain ⟨g₀, hattempt⟩ := Draw.exists_attempt hm
      have := lt_of_tryBelow (by omega) hattempt
      omega

end Uniform

end OppNet.Random
