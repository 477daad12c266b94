import OppNet.Admission
import OppNet.Proofs.Buffer.Views

/-!
# OppNet.Proofs.Admission

What a policy admits is a part of the candidates in their order (`admitted_sublist`), and a decision
is made whenever every candidate has an info (`exists_decide`). An admitter looks up the info that
was added last (`PacketInfo.lookup?_eq_some`).
-/

namespace OppNet

namespace PacketInfo

variable {told : List PacketInfo} {id : PacketId} {info : PacketInfo}

/-- The info on a packet that was added last, where `told` is in the order of the additions. -/
def AddedLast (told : List PacketInfo) (id : PacketId) (info : PacketInfo) : Prop :=
  ∃ earlier later, told = earlier ++ info :: later ∧ info.packet = id ∧
    ∀ i ∈ later, i.packet ≠ id

theorem AddedLast.mem (h : AddedLast told id info) : info ∈ told := by
  obtain ⟨earlier, later, rfl, -⟩ := h
  exact List.mem_append_right earlier List.mem_cons_self

theorem lookup?_eq_some : lookup? told.reverse id = some info ↔ AddedLast told id info := by
  rw [lookup?, List.find?_eq_some_iff_append, decide_eq_true_iff]
  constructor
  · rintro ⟨hid, later, earlier, hsplit, hlater⟩
    refine ⟨earlier.reverse, later.reverse, ?_, hid, fun i hi => ?_⟩
    · rw [← List.reverse_reverse told, hsplit]
      simp
    · simpa using hlater i (List.mem_reverse.mp hi)
  · rintro ⟨earlier, later, rfl, hid, hlater⟩
    refine ⟨hid, later.reverse, earlier.reverse, by simp, fun i hi => ?_⟩
    simpa using hlater i (List.mem_reverse.mp hi)

end PacketInfo

namespace AdmissionPolicy

variable {infoOf : PacketId → Option PacketInfo} {state : ReceiverState}

theorem reciprocal_sublist (senderLength length : Nat) (ids : List PacketId) :
    (reciprocal infoOf senderLength length ids).Sublist ids := by
  induction ids generalizing length with
  | nil => exact .slnil
  | cons id rest ih =>
    rw [reciprocal]
    split
    · exact (ih _).cons_cons id
    · exact (ih _).cons id

theorem riskAware_sublist {free : Nat} {ids chosen : List PacketId}
    (h : riskAware infoOf state free ids = .ok chosen) : chosen.Sublist ids := by
  induction ids generalizing free chosen with
  | nil => cases h; exact .slnil
  | cons id rest ih =>
    rw [riskAware] at h
    cases hi : infoOf id with
    | none => rw [hi] at h; cases h
    | some info =>
      rw [hi] at h
      dsimp only at h
      split at h
      · cases hr : riskAware infoOf state (free - 1) rest with
        | error f => rw [hr] at h; cases h
        | ok chosen' => rw [hr] at h; cases h; exact (ih hr).cons_cons id
      · exact (ih h).cons id

theorem exists_riskAware {free : Nat} {ids : List PacketId}
    (h : ∀ id ∈ ids, (infoOf id).isSome = true) :
    ∃ chosen, riskAware infoOf state free ids = .ok chosen := by
  induction ids generalizing free with
  | nil => exact ⟨[], rfl⟩
  | cons id rest ih =>
    obtain ⟨info, hi⟩ := Option.isSome_iff_exists.mp (h id List.mem_cons_self)
    have hrest : ∀ free, ∃ chosen, riskAware infoOf state free rest = .ok chosen :=
      fun _ => ih fun x hx => h x (List.mem_cons_of_mem _ hx)
    rw [riskAware, hi]
    dsimp only
    split
    · obtain ⟨chosen, hc⟩ := hrest (free - 1)
      exact ⟨id :: chosen, by rw [hc]; rfl⟩
    · exact hrest free

theorem admitted_sublist {policy : AdmissionPolicy} {ids chosen : List PacketId}
    (h : policy.admitted state infoOf ids = .ok chosen) : chosen.Sublist ids := by
  unfold admitted at h
  split at h
  · cases h; exact .refl _
  · cases h; exact .refl _
  · cases h; exact List.drop_sublist _ _
  · cases h; exact reciprocal_sublist _ _ _
  · cases h; exact .refl _
  · exact riskAware_sublist h

theorem exists_admitted (policy : AdmissionPolicy) {ids : List PacketId}
    (h : ∀ id ∈ ids, (infoOf id).isSome = true) :
    ∃ chosen, policy.admitted state infoOf ids = .ok chosen := by
  unfold admitted
  split
  · exact ⟨_, rfl⟩
  · exact ⟨_, rfl⟩
  · exact ⟨_, rfl⟩
  · exact ⟨_, rfl⟩
  · exact ⟨_, rfl⟩
  · exact exists_riskAware h

end AdmissionPolicy

namespace Admitter

variable {a : Admitter} {ids : List PacketId}

theorem decide_sublist {chosen : List PacketId} (h : a.decide ids = .ok (some chosen)) :
    chosen.Sublist ids.eraseDups := by
  unfold decide at h
  cases hs : a.receiver with
  | none =>
    rw [hs] at h
    dsimp only at h
    split at h <;> cases h
  | some state =>
    rw [hs] at h
    dsimp only at h
    split at h
    · cases h
    · cases ha : a.policy.admitted state (PacketInfo.lookup? a.infos) ids.eraseDups with
      | error f => rw [ha] at h; cases h
      | ok chosen' =>
        rw [ha] at h
        change Except.ok (someUnlessEmpty chosen') = _ at h
        unfold someUnlessEmpty at h
        split at h
        · cases h
        · cases h
          exact AdmissionPolicy.admitted_sublist ha

theorem exists_decide {state : ReceiverState} (hs : a.receiver = some state)
    (h : ∀ id ∈ ids, (PacketInfo.lookup? a.infos id).isSome = true) :
    ∃ chosen?, a.decide ids = .ok chosen? := by
  unfold decide
  rw [hs]
  dsimp only
  split
  · exact ⟨none, rfl⟩
  · obtain ⟨chosen, hc⟩ : ∃ chosen, a.policy.admitted state (PacketInfo.lookup? a.infos)
        ids.eraseDups = .ok chosen :=
      a.policy.exists_admitted fun id hid => h id (List.mem_eraseDups.mp hid)
    exact ⟨_, by rw [hc]; rfl⟩

theorem decide_admitAll {state : ReceiverState} (hs : a.receiver = some state)
    (hp : a.policy = .admitAll) (hne : ids ≠ []) : a.decide ids = .ok (some ids.eraseDups) := by
  have hsome : ids.eraseDups ≠ [] := by
    obtain ⟨id, hid⟩ := List.exists_mem_of_ne_nil ids hne
    exact List.ne_nil_of_mem (List.mem_eraseDups.mpr hid)
  unfold decide
  rw [hs, hp]
  dsimp only
  rw [if_neg (by simpa using hne)]
  change Except.ok (someUnlessEmpty ids.eraseDups) = _
  rw [someUnlessEmpty, if_neg (by simpa using hsome)]

end Admitter

end OppNet
