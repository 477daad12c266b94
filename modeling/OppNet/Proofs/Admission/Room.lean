import OppNet.Proofs.Admission.Decision
import OppNet.Proofs.Binary64.Quotient

/-!
# OppNet.Proofs.Admission.Room

A receiver with more room is sent no less.

* `Roomier s₁ s₂`: the receiver `s₂` has at least the room of `s₁`, and the same prospects.
* `accepts_mono`, `lt_of_accepts`: one candidate that is offered to both. If only the roomier one
  takes it, then it had a place more to begin with.
* `riskAware_mono`: so whatever it takes along the way, it never has less room than the other.
* `admission_mono`: every policy that goes by the free places.
-/

namespace OppNet

/--
The receiver `s₂` has at least as many free places as `s₁`, and gains and loses entries at the same
rate. An unbounded one has the most.
-/
structure ReceiverState.Roomier (s₁ s₂ : ReceiverState) : Prop where
  netGrowthRate : s₂.netGrowthRate = s₁.netGrowthRate
  meanDropRemaining : s₂.meanDropRemaining = s₁.meanDropRemaining
  room : ∀ free₂, s₂.free? = some free₂ → ∃ free₁, s₁.free? = some free₁ ∧ free₁ ≤ free₂

namespace AdmissionPolicy

variable {infoOf : PacketId → Option PacketInfo} {s₁ s₂ : ReceiverState} {info : PacketInfo}
  {free₁ free₂ : Nat} {ids chosen₁ : List PacketId}

/-- Whether the risk-aware policy admits a packet, from what is known about it. -/
def accepts (state : ReceiverState) (free : Nat) (info : PacketInfo) : Bool :=
  isSafe state free info || isDoomed state info

theorem riskAware_of_info {state : ReceiverState} {id : PacketId} (hi : infoOf id = some info)
    (free : Nat) (rest : List PacketId) : riskAware infoOf state free (id :: rest) =
      if accepts state free info then (riskAware infoOf state (free - 1) rest).map (id :: ·)
      else riskAware infoOf state free rest := by
  rw [riskAware, hi]
  rfl

theorem admitted_of_unbounded {policy : AdmissionPolicy} {state : ReceiverState}
    (hp : policy ≠ .fairRoute) (hfree : state.free? = none) :
    policy.admitted state infoOf ids = .ok ids := by
  cases policy with
  | fairRoute => exact absurd rfl hp
  | _ => simp only [admitted, hfree]

section Roomier

variable (h : s₁.Roomier s₂)
include h

theorem accepts_eq (free : Nat) (info : PacketInfo) :
    accepts s₂ free info = accepts s₁ free info := by
  simp only [accepts, isSafe, isDoomed, h.netGrowthRate, h.meanDropRemaining]

theorem accepts_mono (hle : free₁ ≤ free₂) (ha : accepts s₁ free₁ info = true) :
    accepts s₂ free₂ info = true := by
  rw [accepts_eq h]
  rcases Bool.or_eq_true_iff.mp ha with hsafe | hdoomed
  · refine Bool.or_eq_true_iff.mpr (.inl (decide_eq_true ?_))
    exact Binary64.lt_ofNat_mono (of_decide_eq_true hsafe) hle
  · exact Bool.or_eq_true_iff.mpr (.inr hdoomed)

theorem lt_of_accepts (hle : free₁ ≤ free₂) (ha₁ : accepts s₁ free₁ info = false)
    (ha₂ : accepts s₂ free₂ info = true) : free₁ < free₂ := by
  refine Nat.lt_of_le_of_ne hle fun heq => ?_
  rw [accepts_eq h, ← heq, ha₁] at ha₂
  cases ha₂

/-- Of two runs through the same candidates the one with more room keeps up with the other one. -/
theorem riskAware_mono (hle : free₁ ≤ free₂) (h₁ : riskAware infoOf s₁ free₁ ids = .ok chosen₁) :
    ∃ chosen₂, riskAware infoOf s₂ free₂ ids = .ok chosen₂ ∧ chosen₁.Sublist chosen₂ := by
  induction ids generalizing free₁ free₂ chosen₁ with
  | nil =>
    cases h₁
    exact ⟨[], rfl, .slnil⟩
  | cons id rest ih =>
    cases hi : infoOf id with
    | none =>
      rw [riskAware, hi] at h₁
      cases h₁
    | some info =>
      rw [riskAware_of_info hi] at h₁ ⊢
      cases ha₁ : accepts s₁ free₁ info with
      | true =>
        rw [ha₁, if_pos rfl] at h₁
        rw [accepts_mono h hle ha₁, if_pos rfl]
        cases hrest : riskAware infoOf s₁ (free₁ - 1) rest with
        | error f =>
          rw [hrest] at h₁
          cases h₁
        | ok chosen =>
          rw [hrest] at h₁
          cases h₁
          obtain ⟨chosen₂, h₂, hsub⟩ := ih (Nat.sub_le_sub_right hle 1) hrest
          exact ⟨id :: chosen₂, by rw [h₂]; rfl, hsub.cons_cons id⟩
      | false =>
        rw [ha₁, if_neg (by simp)] at h₁
        cases ha₂ : accepts s₂ free₂ info with
        | true =>
          -- The place that the packet takes is one that the other receiver does not have.
          have hlt := lt_of_accepts h hle ha₁ ha₂
          obtain ⟨chosen₂, h₂, hsub⟩ := ih (Nat.le_sub_one_of_lt hlt) h₁
          rw [if_pos rfl, h₂]
          exact ⟨id :: chosen₂, rfl, hsub.cons id⟩
        | false =>
          rw [if_neg (by simp)]
          exact ih hle h₁

theorem admitted_mono {policy : AdmissionPolicy} (hp : policy ≠ .fairRoute)
    (h₁ : policy.admitted s₁ infoOf ids = .ok chosen₁) :
    ∃ chosen₂, policy.admitted s₂ infoOf ids = .ok chosen₂ ∧ chosen₁.Sublist chosen₂ := by
  cases hfree₂ : s₂.free? with
  | none => exact ⟨ids, admitted_of_unbounded hp hfree₂, admitted_sublist h₁⟩
  | some free₂ =>
    obtain ⟨free₁, hfree₁, hle⟩ := h.room free₂ hfree₂
    cases policy with
    | admitAll => exact ⟨ids, rfl, admitted_sublist h₁⟩
    | fairRoute => exact absurd rfl hp
    | avoidOverflow =>
      simp only [admitted, hfree₁, Except.ok.injEq] at h₁
      subst h₁
      refine ⟨lastFitting free₂ ids, by simp only [admitted, hfree₂], ?_⟩
      exact List.drop_sublist_drop_left ids (Nat.sub_le_sub_left hle ids.length)
    | acc =>
      simp only [admitted, hfree₁, hfree₂] at h₁ ⊢
      exact riskAware_mono h hle h₁

end Roomier

end AdmissionPolicy

namespace Admitter

/--
Whatever is admitted to a receiver is admitted to every roomier one, in the same order, by all
policies but the fair one. In particular there is a decision.
-/
theorem admission_mono {policy : AdmissionPolicy} (hp : policy ≠ .fairRoute)
    {s₁ s₂ : ReceiverState} (h : s₁.Roomier s₂) (infos : List PacketInfo)
    (candidates : List PacketId) :
    let outcome s := ((Admitter.mk policy (some s) infos).filter candidates).1
    ∀ admitted₁, outcome s₁ = .ok admitted₁ → ∃ admitted₂, outcome s₂ = .ok admitted₂ ∧
      (admitted₁.getD []).Sublist (admitted₂.getD []) := by
  intro outcome admitted₁ h₁
  have houtcome (s : ReceiverState) : outcome s =
      (policy.admitted s (PacketInfo.lookup? infos) candidates.eraseDups).map someUnlessEmpty :=
    decide_of_state (a := ⟨policy, some s, infos⟩) rfl
  rw [houtcome] at h₁
  cases hchosen : policy.admitted s₁ (PacketInfo.lookup? infos) candidates.eraseDups with
  | error f =>
    rw [hchosen] at h₁
    cases h₁
  | ok chosen₁ =>
    rw [hchosen] at h₁
    cases h₁
    obtain ⟨chosen₂, h₂, hsub⟩ := AdmissionPolicy.admitted_mono h hp hchosen
    refine ⟨someUnlessEmpty chosen₂, by rw [houtcome, h₂]; rfl, ?_⟩
    rw [getD_someUnlessEmpty, getD_someUnlessEmpty]
    exact hsub

/-- With a third place the first packet is safe too, and the second one still is. -/
theorem admission_mono_third_place :
    let info (n : Nat) (left : Float) : PacketInfo := ⟨⟨n⟩, some ⟨left⟩, 0.0, 1.0⟩
    let infos := [info 2 1.5, info 1 2.5]
    let outcome (capacity : Nat) :=
      ((Admitter.mk .acc (some ⟨1, capacity, 0, 1.0, none⟩) infos).filter [⟨1⟩, ⟨2⟩]).1
    outcome 3 = .ok (some [⟨2⟩]) ∧ outcome 4 = .ok (some [⟨1⟩, ⟨2⟩]) ∧
      [(⟨2⟩ : PacketId)].Sublist [⟨1⟩, ⟨2⟩] := by
  intro info infos outcome
  have h₃ : outcome 3 = .ok (some [⟨2⟩]) := by decide +kernel
  have h₄ : outcome 4 = .ok (some [⟨1⟩, ⟨2⟩]) := by decide +kernel
  have hroom : (ReceiverState.mk 1 3 0 1.0 none).Roomier (ReceiverState.mk 1 4 0 1.0 none) :=
    ⟨rfl, rfl, fun free₂ hfree => ⟨2, rfl, by cases hfree; decide⟩⟩
  obtain ⟨admitted₂, h, hsub⟩ := admission_mono (by decide) hroom infos [⟨1⟩, ⟨2⟩] _ h₃
  rw [Except.ok.inj (h.symm.trans h₄)] at hsub
  exact ⟨h₃, h₄, hsub⟩

end Admitter

end OppNet
