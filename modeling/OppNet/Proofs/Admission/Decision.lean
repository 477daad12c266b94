import Mathlib.Data.List.Induction
import OppNet.Proofs.Admission

/-!
# OppNet.Proofs.Admission.Decision

What an admitter decides, whatever it was told before.

* `Admitter.after`: an admitter once it has been called in some way. `after_eq`: what it holds then
  is what the calls since the latest decision have told it (`recent`).
* `FirstOccurrences`: a list without repeats, each element where it came first.
* `riskAware_eq_error_iff`: the risk-aware policy stops at the first candidate without an info.
* `filter_exact`: which faults a decision can end in, and when, and what it admits otherwise.
-/

namespace OppNet

/-! ### First occurrences -/

section FirstOccurrences

variable {α : Type}

/-- What is left of the first list if it is read from the front and repeats are left out. -/
inductive FirstOccurrences : List α → List α → Prop
  | nil : FirstOccurrences [] []
  | repeated {xs ys : List α} {x : α} (h : FirstOccurrences xs ys) (hx : x ∈ xs) :
    FirstOccurrences (xs ++ [x]) ys
  | fresh {xs ys : List α} {x : α} (h : FirstOccurrences xs ys) (hx : x ∉ xs) :
    FirstOccurrences (xs ++ [x]) (ys ++ [x])

variable {xs ys : List α}

/-- The first element of some kind is not a repeat. -/
theorem FirstOccurrences.find?_eq (h : FirstOccurrences xs ys) (p : α → Bool) :
    ys.find? p = xs.find? p := by
  induction h with
  | nil => rfl
  | @repeated xs ys x _ hx ih =>
    rw [ih, List.find?_append]
    cases hfind : xs.find? p with
    | some y => rfl
    | none =>
      have hpx : ¬ p x = true := List.find?_eq_none.mp hfind x hx
      rw [List.find?_cons_of_neg hpx]
      rfl
  | fresh _ _ ih => rw [List.find?_append, List.find?_append, ih]

theorem firstOccurrences_eraseDups [BEq α] [LawfulBEq α] (xs : List α) :
    FirstOccurrences xs xs.eraseDups := by
  induction xs using List.reverseRecOn with
  | nil => exact .nil
  | append_singleton xs x ih =>
    rw [List.eraseDups_append]
    by_cases hx : x ∈ xs
    · have hnone : [x].removeAll xs = [] := by simp [List.removeAll, hx]
      rw [hnone, List.eraseDups_nil, List.append_nil]
      exact ih.repeated hx
    · have hall : [x].removeAll xs = [x] := by simp [List.removeAll, hx]
      rw [hall]
      exact ih.fresh hx

end FirstOccurrences

/-! ### Policies -/

namespace AdmissionPolicy

variable {infoOf : PacketId → Option PacketInfo} {state : ReceiverState} {ids : List PacketId}
  {f : Fault}

/-- The risk-aware policy stops at the first candidate without an info, and for nothing else. -/
theorem riskAware_eq_error_iff {free : Nat} : riskAware infoOf state free ids = .error f ↔
    ∃ id, ids.find? (fun id => (infoOf id).isNone) = some id ∧ f = .missingPacketInfo id := by
  induction ids generalizing free with
  | nil =>
    constructor
    · intro h
      cases h
    · rintro ⟨_, h, -⟩
      cases h
  | cons id rest ih =>
    rw [riskAware, List.find?_cons]
    cases hi : infoOf id with
    | none =>
      constructor
      · intro h
        cases h
        exact ⟨id, rfl, rfl⟩
      · rintro ⟨_, hid, rfl⟩
        cases hid
        rfl
    | some info =>
      dsimp only [Option.isNone_some]
      split
      · rw [← @ih (free - 1)]
        cases riskAware infoOf state (free - 1) rest with
        | error g => exact Iff.rfl
        | ok chosen =>
          refine iff_of_false ?_ ?_
          · intro h
            cases h
          · intro h
            cases h
      · exact ih

theorem admitted_eq_error_iff {policy : AdmissionPolicy} :
    policy.admitted state infoOf ids = .error f ↔ policy = .acc ∧ state.free? ≠ none ∧
      ∃ id, ids.find? (fun id => (infoOf id).isNone) = some id ∧ f = .missingPacketInfo id := by
  cases policy with
  | acc =>
    unfold admitted
    cases state.free? with
    | none => exact iff_of_false nofun fun h => h.2.1 rfl
    | some free =>
      dsimp only
      rw [riskAware_eq_error_iff]
      exact ⟨fun h => ⟨rfl, nofun, h⟩, fun h => h.2.2⟩
  | avoidOverflow =>
    unfold admitted
    cases state.free? <;> exact iff_of_false nofun nofun
  | _ => exact iff_of_false nofun nofun

theorem length_lastFitting (free : Nat) (ids : List PacketId) :
    (lastFitting free ids).length = min free ids.length := by
  rw [lastFitting, List.length_drop]
  omega

end AdmissionPolicy

/-! ### Calls -/

namespace Admitter

inductive Call where
  | state (s : ReceiverState)
  | info (i : PacketInfo)
  | filter (candidates : List PacketId)

namespace Call

def state? : Call → Option ReceiverState
  | state s => some s
  | _ => none

def info? : Call → Option PacketInfo
  | info i => some i
  | _ => none

def isFilter : Call → Bool
  | filter _ => true
  | _ => false

end Call

def call (a : Admitter) : Call → Admitter
  | .state s => a.recordState s
  | .info i => a.addInfo i
  | .filter candidates => (a.filter candidates).2

def after (policy : AdmissionPolicy) (calls : List Call) : Admitter :=
  calls.foldl call (new policy)

/-- The calls since the latest decision, the latest one first. -/
def recent (calls : List Call) : List Call := calls.reverse.takeWhile fun c => !c.isFilter

theorem recent_concat (calls : List Call) (c : Call) :
    recent (calls ++ [c]) = if c.isFilter then [] else c :: recent calls := by
  rw [recent, List.reverse_concat, List.takeWhile_cons]
  cases c.isFilter <;> rfl

/-- An admitter holds the state recorded last and all infos since its latest decision. -/
theorem after_eq (policy : AdmissionPolicy) (calls : List Call) : after policy calls =
    ⟨policy, (recent calls).findSome? Call.state?, (recent calls).filterMap Call.info?⟩ := by
  induction calls using List.reverseRecOn with
  | nil => rfl
  | append_singleton calls c ih =>
    rw [after, List.foldl_append, ← after, ih, recent_concat]
    cases c <;> rfl

/-! ### Decisions -/

variable {a : Admitter} {state : ReceiverState} {candidates : List PacketId}
  {admitted? : Option (List PacketId)} {f : Fault}

def isUninformed (infos : List PacketInfo) (id : PacketId) : Bool := infos.all (·.packet != id)

theorem isUninformed_eq (infos : List PacketInfo) :
    isUninformed infos = fun id => (PacketInfo.lookup? infos id).isNone := by
  funext id
  rw [Bool.eq_iff_iff, isUninformed, PacketInfo.lookup?, Option.isNone_iff_eq_none]
  simp

theorem admitted_nil (policy : AdmissionPolicy) (state : ReceiverState)
    (infoOf : PacketId → Option PacketInfo) : policy.admitted state infoOf [] = .ok [] := by
  obtain ⟨chosen, h⟩ : ∃ chosen, policy.admitted state infoOf [] = .ok chosen :=
    policy.exists_admitted nofun
  rw [h, List.sublist_nil.mp (AdmissionPolicy.admitted_sublist h)]

theorem getD_someUnlessEmpty (ids : List PacketId) : (someUnlessEmpty ids).getD [] = ids := by
  cases ids <;> rfl

/-- Without candidates there would be no need to ask the policy. -/
theorem decide_of_state (h : a.receiver = some state) : a.decide candidates =
    (a.policy.admitted state (PacketInfo.lookup? a.infos) candidates.eraseDups).map
      someUnlessEmpty := by
  rw [decide, h]
  dsimp only
  split
  · rename_i hempty
    rw [List.isEmpty_iff.mp hempty, List.eraseDups_nil, admitted_nil]
    rfl
  · rfl

theorem filter_of_state (policy : AdmissionPolicy) (state : ReceiverState)
    (infos : List PacketInfo) (candidates : List PacketId) :
    ((Admitter.mk policy (some state) infos).filter candidates).1 =
      (policy.admitted state (PacketInfo.lookup? infos) candidates.eraseDups).map someUnlessEmpty :=
  decide_of_state (a := ⟨policy, some state, infos⟩) rfl

theorem decide_of_state_eq_error (h : a.receiver = some state) :
    a.decide candidates = .error f ↔ a.policy = .acc ∧ state.capacity ≠ 0 ∧
      ∃ id, candidates.find? (isUninformed a.infos) = some id ∧ f = .missingPacketInfo id := by
  have hfree : state.free? ≠ none ↔ state.capacity ≠ 0 := by simp [ReceiverState.free?]
  rw [decide_of_state h, isUninformed_eq, ← (firstOccurrences_eraseDups candidates).find?_eq,
    ← hfree, ← AdmissionPolicy.admitted_eq_error_iff]
  cases a.policy.admitted state (PacketInfo.lookup? a.infos) candidates.eraseDups with
  | error g => exact ⟨fun h => by cases h; rfl, fun h => by cases h; rfl⟩
  | ok chosen => exact iff_of_false nofun nofun

theorem decide_of_none (h : a.receiver = none) : a.decide candidates =
    if a.infos = [] ∧ candidates = [] then .ok none else .error .missingReceiverState := by
  rw [decide, h]
  simp only [Bool.and_eq_true, List.isEmpty_iff]

theorem decide_eq_missingReceiverState : a.decide candidates = .error .missingReceiverState ↔
    a.receiver = none ∧ (a.infos ≠ [] ∨ candidates ≠ []) := by
  cases hs : a.receiver with
  | none =>
    rw [decide_of_none hs, ← not_and_or]
    split
    · rename_i hempty
      exact iff_of_false nofun fun h => h.2 hempty
    · rename_i hne
      exact iff_of_true rfl ⟨rfl, hne⟩
  | some state =>
    rw [decide_of_state_eq_error hs]
    refine iff_of_false ?_ nofun
    rintro ⟨-, -, id, -, h⟩
    cases h

theorem decide_eq_missingPacketInfo {id : PacketId} :
    a.decide candidates = .error (.missingPacketInfo id) ↔
      a.policy = .acc ∧ (∃ state, a.receiver = some state ∧ state.capacity ≠ 0) ∧
        candidates.find? (isUninformed a.infos) = some id := by
  cases hs : a.receiver with
  | none =>
    rw [decide_of_none hs]
    refine iff_of_false ?_ ?_
    · split <;> nofun
    · rintro ⟨-, ⟨state, h, -⟩, -⟩
      cases h
  | some state =>
    rw [decide_of_state_eq_error hs]
    constructor
    · rintro ⟨hp, hc, _, hid, h⟩
      cases h
      exact ⟨hp, ⟨state, rfl, hc⟩, hid⟩
    · rintro ⟨hp, ⟨_, h, hc⟩, hid⟩
      cases h
      exact ⟨hp, hc, id, hid, rfl⟩

theorem fault_of_decide (h : a.decide candidates = .error f) :
    f = .missingReceiverState ∨ ∃ id, f = .missingPacketInfo id := by
  cases hs : a.receiver with
  | none =>
    rw [decide_of_none hs] at h
    split at h
    · cases h
    · cases h
      exact .inl rfl
  | some state =>
    obtain ⟨-, -, id, -, hf⟩ := (decide_of_state_eq_error hs).mp h
    exact .inr ⟨id, hf⟩

/-- What may be admitted of the candidates once their repeats are left out. -/
structure Lawful (policy : AdmissionPolicy) (recorded : Option ReceiverState)
    (distinct admitted : List PacketId) : Prop where
  sublist : admitted.Sublist distinct
  nodup : admitted.Nodup
  all : policy = .admitAll → admitted = distinct
  unbounded : ∀ state, recorded = some state → policy = .avoidOverflow → state.capacity = 0 →
    admitted = distinct
  bounded : ∀ state, recorded = some state → policy = .avoidOverflow → state.capacity ≠ 0 →
    admitted <:+ distinct ∧
      admitted.length = min (state.capacity - state.length) distinct.length

theorem Lawful.length_le {policy : AdmissionPolicy} {recorded : Option ReceiverState}
    {distinct admitted : List PacketId} (h : Lawful policy recorded distinct admitted)
    (hs : recorded = some state) (hp : policy = .avoidOverflow) (hc : state.capacity ≠ 0) :
    admitted.length ≤ state.capacity - state.length := by
  rw [(h.bounded state hs hp hc).2]
  exact Nat.min_le_left _ _

theorem lawful_admitted {policy : AdmissionPolicy} {infoOf : PacketId → Option PacketInfo}
    {chosen : List PacketId} (h : policy.admitted state infoOf candidates.eraseDups = .ok chosen) :
    Lawful policy (some state) candidates.eraseDups chosen where
  sublist := AdmissionPolicy.admitted_sublist h
  nodup := (AdmissionPolicy.admitted_sublist h).nodup (nodup_eraseDups candidates)
  all := by
    rintro rfl
    cases h
    rfl
  unbounded := by
    rintro _ ⟨⟩ rfl hc
    simp only [AdmissionPolicy.admitted, ReceiverState.free?, if_pos hc] at h
    cases h
    rfl
  bounded := by
    rintro _ ⟨⟩ rfl hc
    simp only [AdmissionPolicy.admitted, ReceiverState.free?, if_neg hc] at h
    cases h
    exact ⟨List.drop_suffix _ _, AdmissionPolicy.length_lastFitting _ _⟩

theorem lawful_of_decide (h : a.decide candidates = .ok admitted?) :
    (admitted? = none ↔ admitted?.getD [] = []) ∧
      Lawful a.policy a.receiver candidates.eraseDups (admitted?.getD []) := by
  cases hs : a.receiver with
  | none =>
    rw [decide_of_none hs] at h
    split at h
    · rename_i hempty
      cases h
      rw [hempty.2]
      exact ⟨iff_of_true rfl rfl, .slnil, .nil, fun _ => rfl, nofun, nofun⟩
    · cases h
  | some state =>
    rw [decide_of_state hs] at h
    cases hchosen : a.policy.admitted state (PacketInfo.lookup? a.infos) candidates.eraseDups with
    | error f =>
      rw [hchosen] at h
      cases h
    | ok chosen =>
      rw [hchosen] at h
      cases h
      rw [getD_someUnlessEmpty]
      refine ⟨?_, lawful_admitted hchosen⟩
      cases chosen with
      | nil => exact iff_of_true rfl rfl
      | cons id rest => exact iff_of_false nofun nofun

/-- After any calls, a decision fails for want of a state or of an info and for nothing else. If it
does not fail, then it admits some of the candidates, each one where it came first. -/
theorem filter_exact (policy : AdmissionPolicy) (calls : List Call) (candidates : List PacketId) :
    let recorded := (recent calls).findSome? Call.state?
    let infos := (recent calls).filterMap Call.info?
    let distinct := candidates.eraseDups
    let outcome := ((after policy calls).filter candidates).1
    FirstOccurrences candidates distinct ∧
    (outcome = .error .missingReceiverState ↔
      recorded = none ∧ (infos ≠ [] ∨ candidates ≠ [])) ∧
    (∀ id, outcome = .error (.missingPacketInfo id) ↔
      policy = .acc ∧ (∃ state, recorded = some state ∧ state.capacity ≠ 0) ∧
        candidates.find? (isUninformed infos) = some id) ∧
    (∀ f, outcome = .error f → f = .missingReceiverState ∨ ∃ id, f = .missingPacketInfo id) ∧
    ∀ admitted?, outcome = .ok admitted? →
      (admitted? = none ↔ admitted?.getD [] = []) ∧
      Lawful policy recorded distinct (admitted?.getD []) ∧
      ∀ state, recorded = some state → policy = .avoidOverflow → state.capacity ≠ 0 →
        (admitted?.getD []).length ≤ state.capacity - state.length := by
  intro recorded infos distinct outcome
  have houtcome : outcome = (Admitter.mk policy recorded infos).decide candidates := by
    change ((after policy calls).filter candidates).1 = _
    rw [after_eq]
    rfl
  rw [houtcome]
  refine ⟨firstOccurrences_eraseDups candidates, decide_eq_missingReceiverState,
    fun id => decide_eq_missingPacketInfo, fun f => fault_of_decide, fun admitted? h => ?_⟩
  obtain ⟨hnone, hlawful⟩ := lawful_of_decide h
  exact ⟨hnone, hlawful, fun state hs => hlawful.length_le hs⟩

/-- A state that was forgotten, an info and a state that count, and two free places for three
candidates. -/
theorem filter_two_places :
    let info (n : Nat) : PacketInfo := ⟨⟨n⟩, none, 0.0, 1.0⟩
    let calls : List Call := [.state ⟨0, 0, 0, 0.0, none⟩, .filter [], .info (info 5),
      .state ⟨1, 3, 0, 0.0, none⟩]
    let candidates : List PacketId := [⟨5⟩, ⟨3⟩, ⟨5⟩, ⟨8⟩]
    ((after .avoidOverflow calls).filter candidates).1 = .ok (some [⟨3⟩, ⟨8⟩]) ∧
      [⟨3⟩, ⟨8⟩] <:+ candidates.eraseDups := by
  intro info calls candidates
  have h : ((after .avoidOverflow calls).filter candidates).1 = .ok (some [⟨3⟩, ⟨8⟩]) := by
    decide +kernel
  obtain ⟨-, hlawful, -⟩ := (filter_exact .avoidOverflow calls candidates).2.2.2.2 _ h
  exact ⟨h, (hlawful.bounded _ rfl rfl (by decide)).1⟩

end Admitter

end OppNet
