import Mathlib.Data.List.DropRight
import OppNet.Proofs.Admission.Decision
import OppNet.Proofs.Scheduling.Strict

/-!
# OppNet.Proofs.Isolation

A scheduler and an admitter serve one contact after another. What was called during one contact has
no bearing on the next one.

* `since`: the calls after the latest one that closes a contact. `foldl_since`: if such a call leads
  back to the start, then no earlier call matters.
* `Scheduler.after`, `Admitter.after`: the two of them once they have been called in some way.
* `contacts_isolated`: both answer the way a new one does that has had the calls of this contact
  only, and what that answer depends on.
-/

namespace OppNet

section Since

variable {κ σ : Type} (closes : κ → Bool)

/-- The calls after the latest one that closes a contact. -/
def since (calls : List κ) : List κ := calls.rtakeWhile fun c => !closes c

variable {closes} {calls : List κ} {c : κ}

theorem since_concat_closing (h : closes c = true) : since closes (calls ++ [c]) = [] := by
  rw [since, List.rtakeWhile_concat_neg]
  rw [h]
  decide

theorem since_concat (h : closes c = false) :
    since closes (calls ++ [c]) = since closes calls ++ [c] := by
  rw [since, List.rtakeWhile_concat_pos]
  · rfl
  · rw [h]
    rfl

theorem not_closes_of_mem_since (h : c ∈ since closes calls) : closes c = false := by
  have hc := List.mem_rtakeWhile_imp h
  cases hcloses : closes c with
  | false => rfl
  | true =>
    rw [hcloses] at hc
    cases hc

/-- In front of them there is a call that closes a contact, if there is anything. -/
theorem since_split (closes : κ → Bool) (calls : List κ) : since closes calls = calls ∨
    ∃ earlier c, closes c = true ∧ calls = earlier ++ c :: since closes calls := by
  induction calls using List.reverseRecOn with
  | nil => exact .inl (List.rtakeWhile_nil _)
  | append_singleton calls c ih =>
    cases hc : closes c with
    | true => exact .inr ⟨calls, c, hc, by rw [since_concat_closing hc]⟩
    | false =>
      rw [since_concat hc]
      rcases ih with hall | ⟨earlier, d, hd, hsplit⟩
      · exact .inl (by rw [hall])
      · refine .inr ⟨earlier, d, hd, ?_⟩
        rw [← List.cons_append, ← List.append_assoc, ← hsplit]

/-- No call before the latest one that led back to the start matters. -/
theorem foldl_since {step : σ → κ → σ} {start : σ}
    (h : ∀ (calls : List κ) (c : κ), closes c = true → step (calls.foldl step start) c = start)
    (calls : List κ) :
    calls.foldl step start = (since closes calls).foldl step start := by
  induction calls using List.reverseRecOn with
  | nil => rfl
  | append_singleton calls c ih =>
    cases hc : closes c with
    | true =>
      rw [since_concat_closing hc, List.foldl_append]
      exact h calls c hc
    | false => rw [since_concat hc, List.foldl_append, List.foldl_append, ih]

end Since

/-! ### Schedulers -/

namespace Scheduler

inductive Call where
  | add (o : Offer)
  | order (slotOf : PacketId → Option Nat)

namespace Call

def offer? : Call → Option Offer
  | add o => some o
  | order _ => none

def isOrder : Call → Bool
  | add _ => false
  | order _ => true

theorem isOrder_eq_false {c : Call} (h : c.isOrder = false) : ∃ o, c = .add o := by
  cases c with
  | add o => exact ⟨o, rfl⟩
  | order slotOf => cases h

theorem isOrder_eq_true {c : Call} (h : c.isOrder = true) : ∃ slotOf, c = .order slotOf := by
  cases c with
  | add o => cases h
  | order slotOf => exact ⟨slotOf, rfl⟩

end Call

def call (s : Scheduler) : Call → Scheduler
  | .add o => s.add o
  | .order slotOf => (s.computeOrder slotOf).2

def after (policy : SchedulingPolicy) (calls : List Call) : Scheduler :=
  calls.foldl call (new policy)

theorem after_concat (policy : SchedulingPolicy) (calls : List Call) (c : Call) :
    after policy (calls ++ [c]) = (after policy calls).call c := by
  rw [after, List.foldl_append]
  rfl

theorem policy_after (policy : SchedulingPolicy) (calls : List Call) :
    (after policy calls).policy = policy := by
  induction calls using List.reverseRecOn with
  | nil => rfl
  | append_singleton calls c ih =>
    rw [after_concat]
    cases c with
    | add o => exact ih
    | order slotOf => exact ih

theorem call_order_after (policy : SchedulingPolicy) (calls : List Call)
    (slotOf : PacketId → Option Nat) :
    (after policy calls).call (.order slotOf) = new policy := by
  change new (after policy calls).policy = new policy
  rw [policy_after]

theorem after_since (policy : SchedulingPolicy) (calls : List Call) :
    after policy calls = after policy (since Call.isOrder calls) := by
  refine foldl_since (fun calls c hc => ?_) calls
  obtain ⟨slotOf, rfl⟩ := Call.isOrder_eq_true hc
  exact call_order_after policy calls slotOf

/-- A scheduler holds what was added to it since its latest order. -/
theorem after_eq (policy : SchedulingPolicy) (calls : List Call) :
    after policy calls = ⟨policy, (since Call.isOrder calls).filterMap Call.offer?⟩ := by
  induction calls using List.reverseRecOn with
  | nil => rfl
  | append_singleton calls c ih =>
    rw [after_concat]
    cases c with
    | add o =>
      rw [ih, since_concat rfl, List.filterMap_append]
      rfl
    | order slotOf =>
      rw [call_order_after, since_concat_closing rfl]
      rfl

end Scheduler

/-! ### Admitters -/

namespace Admitter

theorem Call.isFilter_eq_true {c : Call} (h : c.isFilter = true) :
    ∃ candidates, c = .filter candidates := by
  cases c with
  | state s => cases h
  | info i => cases h
  | filter candidates => exact ⟨candidates, rfl⟩

theorem recent_eq_reverse (calls : List Call) :
    recent calls = (since Call.isFilter calls).reverse := by
  rw [since, List.rtakeWhile, List.reverse_reverse]
  rfl

theorem call_filter_after (policy : AdmissionPolicy) (calls : List Call)
    (candidates : List PacketId) :
    (after policy calls).call (.filter candidates) = new policy := by
  rw [after_eq]
  rfl

theorem after_since (policy : AdmissionPolicy) (calls : List Call) :
    after policy calls = after policy (since Call.isFilter calls) := by
  refine foldl_since (fun calls c hc => ?_) calls
  obtain ⟨candidates, rfl⟩ := Call.isFilter_eq_true hc
  exact call_filter_after policy calls candidates

end Admitter

/-! ### Contacts -/

/-- Whatever was called before, and whatever came of it, a scheduler and an admitter answer the way
a new one does that has had the calls since the latest answer only. A scheduler then orders the
offers that were added, and an admitter decides by the state recorded last and by the infos. -/
theorem contacts_isolated :
    (∀ (policy : SchedulingPolicy) (calls : List Scheduler.Call) (slotOf : PacketId → Option Nat),
      let contact := since Scheduler.Call.isOrder calls
      (contact = calls ∨ ∃ earlier slotOf', calls = earlier ++ .order slotOf' :: contact) ∧
      (∀ c ∈ contact, ∃ o, c = .add o) ∧
      ((Scheduler.after policy calls).computeOrder slotOf).1 =
        ((Scheduler.after policy contact).computeOrder slotOf).1 ∧
      ((Scheduler.after policy contact).computeOrder slotOf).1 =
        policy.order slotOf (contact.filterMap Scheduler.Call.offer?)) ∧
    ∀ (policy : AdmissionPolicy) (calls : List Admitter.Call) (candidates : List PacketId),
      let contact := since Admitter.Call.isFilter calls
      (contact = calls ∨ ∃ earlier candidates',
        calls = earlier ++ .filter candidates' :: contact) ∧
      (∀ c ∈ contact, (∃ s, c = .state s) ∨ ∃ i, c = .info i) ∧
      ((Admitter.after policy calls).filter candidates).1 =
        ((Admitter.after policy contact).filter candidates).1 ∧
      ((Admitter.after policy contact).filter candidates).1 =
        (Admitter.mk policy (contact.filterMap Admitter.Call.state?).getLast?
          (contact.filterMap Admitter.Call.info?).reverse).decide candidates := by
  refine ⟨fun policy calls slotOf => ?_, fun policy calls candidates => ?_⟩
  · intro contact
    refine ⟨?_, fun c hc => ?_, ?_, ?_⟩
    · rcases since_split Scheduler.Call.isOrder calls with hall | ⟨earlier, c, hc, hsplit⟩
      · exact .inl hall
      · obtain ⟨slotOf', rfl⟩ := Scheduler.Call.isOrder_eq_true hc
        exact .inr ⟨earlier, slotOf', hsplit⟩
    · exact Scheduler.Call.isOrder_eq_false (not_closes_of_mem_since hc)
    · rw [Scheduler.after_since policy calls]
    · rw [← Scheduler.after_since, Scheduler.after_eq]
      rfl
  · intro contact
    refine ⟨?_, fun c hc => ?_, ?_, ?_⟩
    · rcases since_split Admitter.Call.isFilter calls with hall | ⟨earlier, c, hc, hsplit⟩
      · exact .inl hall
      · obtain ⟨candidates', rfl⟩ := Admitter.Call.isFilter_eq_true hc
        exact .inr ⟨earlier, candidates', hsplit⟩
    · have hopen := not_closes_of_mem_since hc
      cases c with
      | state s => exact .inl ⟨s, rfl⟩
      | info i => exact .inr ⟨i, rfl⟩
      | filter candidates' => cases hopen
    · rw [Admitter.after_since policy calls]
    · rw [← Admitter.after_since, Admitter.after_eq, Admitter.recent_eq_reverse,
        List.filterMap_reverse, ← List.head?_filterMap, List.filterMap_reverse,
        List.head?_reverse]
      rfl

end OppNet
