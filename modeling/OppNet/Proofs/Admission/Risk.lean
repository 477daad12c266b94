import OppNet.Proofs.Admission.Room
import OppNet.Proofs.Binary64.Positive

/-!
# OppNet.Proofs.Admission.Risk

The risk-aware policy promises a growing receiver no more places than it has.

* `Turns infoOf state free ids chosen`: the candidates in turn, of which every admitted one takes a
  place as long as there is one.
* `isDoomed_of_accepts_zero`: a receiver that does not shrink is safe for no packet once it has no
  place left.
* `Turns.mem_of_isDoomed`, `Turns.isDoomed_of_split`: so what is doomed is always admitted, and when
  the places are taken nothing else is.
* `growing_not_overcommitted`: a decision of the risk-aware policy.
-/

namespace OppNet

/-- What was told last of a packet is that it expires sooner than what the receiver has been
evicting. -/
def ReceiverState.Doomed (state : ReceiverState) (told : List PacketInfo) (id : PacketId) : Prop :=
  ∃ info left risk, PacketInfo.AddedLast told id info ∧ info.remaining = some left ∧
    state.meanDropRemaining = some risk ∧ left < risk

namespace AdmissionPolicy

variable {infoOf : PacketId → Option PacketInfo} {state : ReceiverState} {info : PacketInfo}
  {free : Nat} {ids chosen : List PacketId} {id : PacketId}

/-! ### Candidates in turn -/

/-- The candidates in turn, from `free` places on, and those that are admitted. -/
inductive Turns (infoOf : PacketId → Option PacketInfo) (state : ReceiverState) :
    Nat → List PacketId → List PacketId → Prop where
  | done (free : Nat) : Turns infoOf state free [] []
  | admitted {free : Nat} {id : PacketId} {info : PacketInfo} {ids chosen : List PacketId}
      (told : infoOf id = some info) (accepted : accepts state free info = true)
      (rest : Turns infoOf state (free - 1) ids chosen) :
      Turns infoOf state free (id :: ids) (id :: chosen)
  | refused {free : Nat} {id : PacketId} {info : PacketInfo} {ids chosen : List PacketId}
      (told : infoOf id = some info) (accepted : accepts state free info = false)
      (rest : Turns infoOf state free ids chosen) : Turns infoOf state free (id :: ids) chosen

theorem turns_of_riskAware (h : riskAware infoOf state free ids = .ok chosen) :
    Turns infoOf state free ids chosen := by
  induction ids generalizing free chosen with
  | nil =>
    cases h
    exact .done free
  | cons id rest ih =>
    cases hi : infoOf id with
    | none =>
      rw [riskAware, hi] at h
      cases h
    | some info =>
      rw [riskAware_of_info hi] at h
      cases ha : accepts state free info with
      | false =>
        rw [ha] at h
        exact .refused hi ha (ih h)
      | true =>
        rw [ha, if_pos rfl] at h
        cases hr : riskAware infoOf state (free - 1) rest with
        | error f =>
          rw [hr] at h
          cases h
        | ok chosen' =>
          rw [hr] at h
          cases h
          exact .admitted hi ha (ih hr)

theorem Turns.mem_of_isDoomed (h : Turns infoOf state free ids chosen) (hid : id ∈ ids)
    (hi : infoOf id = some info) (hd : isDoomed state info = true) : id ∈ chosen := by
  induction h with
  | done free => cases hid
  | admitted told accepted rest ih =>
    rcases List.mem_cons.mp hid with rfl | hrest
    · exact List.mem_cons_self
    · exact List.mem_cons_of_mem _ (ih hrest)
  | refused told accepted rest ih =>
    rcases List.mem_cons.mp hid with rfl | hrest
    · rw [hi] at told
      cases told
      rw [accepts, hd, Bool.or_true] at accepted
      cases accepted
    · exact ih hrest

/-! ### Growing receivers -/

/-- The receiver does not shrink, and no packet has outlived its lifetime. -/
structure Growing (infoOf : PacketId → Option PacketInfo) (state : ReceiverState) : Prop where
  rate : ¬ state.netGrowthRate < 0.0
  remaining : ∀ id info left, infoOf id = some info → info.remaining = some left →
    ¬ left.seconds < 0.0

/-- A growth that is not below zero does not fit where there is no place. -/
theorem isDoomed_of_accepts_zero (hg : Growing infoOf state) (hi : infoOf id = some info)
    (ha : accepts state 0 info = true) : isDoomed state info = true := by
  have hzero : Float.ofNat 0 = 0.0 := by decide
  have hsafe : isSafe state 0 info = false := by
    refine decide_eq_false ?_
    rw [hzero, projectedGrowth]
    cases hleft : info.remaining with
    | some left => exact Binary64.not_mul_lt_zero hg.rate (hg.remaining id info left hi hleft)
    | none =>
      dsimp only
      split
      · decide
      · decide
  rw [accepts, hsafe, Bool.false_or] at ha
  exact ha

/-- A place is taken by every admitted packet that is not doomed. -/
theorem Turns.countP_le (h : Turns infoOf state free ids chosen) (hg : Growing infoOf state)
    {p : PacketId → Bool} (hp : ∀ id info, infoOf id = some info → p id = true →
      isDoomed state info = false) : chosen.countP p ≤ free := by
  induction h with
  | done free => exact Nat.zero_le free
  | refused told accepted rest ih => exact ih
  | @admitted free id info ids chosen told accepted rest ih =>
    rw [List.countP_cons]
    split
    · rename_i hpid
      have hpos : free ≠ 0 := by
        rintro rfl
        have hd := isDoomed_of_accepts_zero hg told accepted
        rw [hp id info told hpid] at hd
        cases hd
      omega
    · omega

/-- Once as many are admitted as there were places, only the doomed follow. -/
theorem Turns.isDoomed_of_split (h : Turns infoOf state free ids chosen)
    (hg : Growing infoOf state) {taken later : List PacketId} (hsplit : chosen = taken ++ id :: later)
    (hfree : free ≤ taken.length) : ∃ info, infoOf id = some info ∧ isDoomed state info = true := by
  induction h generalizing taken with
  | done free => cases taken <;> cases hsplit
  | @admitted free x info ids chosen told accepted rest ih =>
    cases taken with
    | nil =>
      cases hsplit
      obtain rfl : free = 0 := Nat.le_zero.mp hfree
      exact ⟨info, told, isDoomed_of_accepts_zero hg told accepted⟩
    | cons y taken =>
      refine ih (List.cons.inj hsplit).2 ?_
      rw [List.length_cons] at hfree
      omega
  | refused told accepted rest ih => exact ih hsplit hfree

/-! ### Decisions -/

theorem isDoomed_iff : isDoomed state info = true ↔ ∃ left risk, info.remaining = some left ∧
    state.meanDropRemaining = some risk ∧ left < risk := by
  unfold isDoomed
  cases info.remaining with
  | none => exact iff_of_false nofun nofun
  | some left =>
    cases state.meanDropRemaining with
    | none => exact iff_of_false nofun nofun
    | some risk => simp

end AdmissionPolicy

namespace ReceiverState

open AdmissionPolicy

variable {state : ReceiverState} {told : List PacketInfo} {id : PacketId}

theorem doomed_iff : state.Doomed told id ↔
    ∃ info, PacketInfo.lookup? told.reverse id = some info ∧ isDoomed state info = true := by
  simp only [Doomed, PacketInfo.lookup?_eq_some, isDoomed_iff]
  constructor
  · rintro ⟨info, left, risk, hlast, hdoomed⟩
    exact ⟨info, hlast, left, risk, hdoomed⟩
  · rintro ⟨info, hlast, left, risk, hdoomed⟩
    exact ⟨info, left, risk, hlast, hdoomed⟩

instance (state : ReceiverState) (told : List PacketInfo) : DecidablePred (state.Doomed told) :=
  fun id => decidable_of_iff ((PacketInfo.lookup? told.reverse id).any (isDoomed state) = true) <| by
    rw [doomed_iff, Option.any_eq_true]

end ReceiverState

namespace Admitter

open AdmissionPolicy

theorem turns_of_filter {state : ReceiverState} {free : Nat} {infos : List PacketInfo}
    {candidates : List PacketId} {admitted? : Option (List PacketId)}
    (hfree : state.free? = some free)
    (h : ((Admitter.mk .acc (some state) infos).filter candidates).1 = .ok admitted?) :
    Turns (PacketInfo.lookup? infos) state free candidates.eraseDups (admitted?.getD []) := by
  have hpolicy : AdmissionPolicy.acc.admitted state (PacketInfo.lookup? infos)
      candidates.eraseDups = riskAware (PacketInfo.lookup? infos) state free candidates.eraseDups := by
    simp only [admitted, hfree]
  rw [filter_of_state, hpolicy] at h
  cases hchosen : riskAware (PacketInfo.lookup? infos) state free candidates.eraseDups with
  | error f =>
    rw [hchosen] at h
    cases h
  | ok chosen =>
    rw [hchosen] at h
    cases h
    rw [getD_someUnlessEmpty]
    exact turns_of_riskAware hchosen

/--
A receiver that is bounded and does not shrink has a place for every packet that the risk-aware
policy admits, those apart that it will not have for long. Those are all admitted, and nothing else
is once as many have been admitted as there were places.
-/
theorem growing_not_overcommitted {state : ReceiverState} {free : Nat}
    (hfree : state.free? = some free) (hrate : ¬ state.netGrowthRate < 0.0)
    {told : List PacketInfo} (htold : ∀ info ∈ told, ∀ left, info.remaining = some left →
      ¬ left.seconds < 0.0) {candidates : List PacketId} {admitted? : Option (List PacketId)}
    (h : ((Admitter.mk .acc (some state) told.reverse).filter candidates).1 = .ok admitted?) :
    let admitted := admitted?.getD []
    (admitted.countP fun id => ¬ state.Doomed told id) ≤ free ∧
    (∀ id ∈ candidates, state.Doomed told id → id ∈ admitted) ∧
    ∀ taken id later, admitted = taken ++ id :: later → free ≤ taken.length →
      state.Doomed told id := by
  intro admitted
  have hturns : Turns (PacketInfo.lookup? told.reverse) state free candidates.eraseDups admitted :=
    turns_of_filter hfree h
  have hgrowing : Growing (PacketInfo.lookup? told.reverse) state := by
    refine ⟨hrate, fun id info left hi => htold info ?_ left⟩
    exact (PacketInfo.lookup?_eq_some.mp hi).mem
  refine ⟨hturns.countP_le hgrowing fun id info hi hid => ?_, fun id hid hdoomed => ?_, ?_⟩
  · refine Bool.eq_false_iff.mpr fun hd => ?_
    exact of_decide_eq_true hid (ReceiverState.doomed_iff.mpr ⟨info, hi, hd⟩)
  · obtain ⟨info, hi, hd⟩ := ReceiverState.doomed_iff.mp hdoomed
    exact hturns.mem_of_isDoomed (List.mem_eraseDups.mpr hid) hi hd
  · intro taken id later hsplit hlen
    exact ReceiverState.doomed_iff.mpr (hturns.isDoomed_of_split hgrowing hsplit hlen)

/-- One place, which the first packet takes. The second one is doomed, and the third one comes too
late. -/
theorem last_place_taken :
    let info (n : Nat) (left : Float) : PacketInfo := ⟨⟨n⟩, some ⟨left⟩, 0.0, 1.0⟩
    let told := [info 2 50.0, info 3 40.0, info 2 20.0, info 1 40.0]
    let state : ReceiverState := ⟨9, 10, 0, 0.0078125, some ⟨30.0⟩⟩
    ((Admitter.mk .acc (some state) told.reverse).filter [⟨1⟩, ⟨2⟩, ⟨3⟩]).1 =
        .ok (some [⟨1⟩, ⟨2⟩]) ∧
      ([(⟨1⟩ : PacketId), ⟨2⟩].countP fun id => ¬ state.Doomed told id) ≤ 1 ∧
      state.Doomed told ⟨2⟩ := by
  intro info told state
  have hfree : state.free? = some 1 := rfl
  have h : ((Admitter.mk .acc (some state) told.reverse).filter [⟨1⟩, ⟨2⟩, ⟨3⟩]).1 =
      .ok (some [⟨1⟩, ⟨2⟩]) := by
    decide +kernel
  have hrate : ¬ state.netGrowthRate < 0.0 := by decide
  have htold : ∀ info ∈ told, ∀ left, info.remaining = some left → ¬ left.seconds < 0.0 := by
    simp only [told, info, List.forall_mem_cons, Option.some.injEq, forall_eq']
    decide
  obtain ⟨hcount, -, hlast⟩ := growing_not_overcommitted hfree hrate htold h
  exact ⟨h, hcount, hlast [⟨1⟩] ⟨2⟩ [] rfl (by decide)⟩

end Admitter

end OppNet
