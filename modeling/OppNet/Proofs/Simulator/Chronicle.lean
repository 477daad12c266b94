import OppNet.Proofs.Event.Flow
import OppNet.Proofs.Simulator.Run

/-!
# OppNet.Proofs.Simulator.Chronicle

What has been queued, and what has happened, up to a network between two events.

* `Chronicle scenario trace queued past s`: the network `s` of a run, every event that was ever
  queued on the way there, and every event that was taken out, in this order.
* `Chronicle.flow`: what was queued has entered the queue and what has happened has left it. So
  nothing happens twice, and nothing before what has already happened (`Chronicle.nodup_slots`,
  `Chronicle.ordered`).
* `Chronicle.happened_or_pending`: nothing that was queued is lost.
-/

namespace OppNet

namespace Simulator

open Event.Queue (Flow)

/-- An event that was taken out of the queue, its slot there, and the network just before. -/
structure Occurrence where
  slot : Event.Slot
  event : Event
  before : Simulator

def Occurrence.entry (o : Occurrence) : Event.Slot × Event := (o.slot, o.event)

/--
The networks between two events of a run, with the events queued and those taken out so far. What
an event has queued is pending right after it, under turns that were not given out before.
-/
inductive Chronicle (scenario : Scenario) (trace : Trace) :
    List (Event.Slot × Event) → List Occurrence → Simulator → Prop where
  | start {s : Simulator} (h : ofTrace scenario trace = .ok s) :
      Chronicle scenario trace s.queue.pending.toList [] s
  | event {queued : List (Event.Slot × Event)} {past : List Occurrence} {s : Simulator}
      {slot : Event.Slot} {e : Event} {q : Event.Queue} (h : Chronicle scenario trace queued past s)
      (hf : s.queue.first? = some (slot, e)) (hd : s.due? = some (e, q)) :
      Chronicle scenario trace (queued ++ ((process e q).run s).2.queue.since s.queue.turns)
        (past ++ [⟨slot, e, s⟩]) ((process e q).run s).2
  | finish {queued : List (Event.Slot × Event)} {past : List Occurrence} {s : Simulator}
      (h : Chronicle scenario trace queued past s) (hd : s.due? = none) :
      Chronicle scenario trace queued past (s.sweepAll s.stop)

variable {now : Time} {s s' : Simulator} {scenario : Scenario} {trace : Trace}
  {queued : List (Event.Slot × Event)} {past : List Occurrence}

/-! ### Due events -/

theorem pop?_of_due? {e : Event} {q : Event.Queue} (h : s.due? = some (e, q)) :
    s.queue.pop? = some (e, q) ∧ e.time ≤ s.stop := by
  obtain ⟨hp, hdue⟩ := Option.filter_eq_some_iff.mp h
  simp only [Bool.not_eq_true', decide_eq_false_iff_not] at hdue
  exact ⟨hp, Std.not_lt.mp hdue⟩

theorem exists_first? {e : Event} {q : Event.Queue} (h : s.due? = some (e, q)) :
    ∃ slot, s.queue.first? = some (slot, e) := by
  obtain ⟨slot, hslots, _, _⟩ := Event.Queue.slots_pop? (pop?_of_due? h).1
  exact ⟨slot, by simp [Event.Queue.first?_eq, hslots]⟩

/-- If nothing is due, everything that is pending lies beyond the end. -/
theorem stop_lt_of_due?_eq_none (hr : s.queue.Regular) (h : s.due? = none) {e : Event}
    (he : e ∈ s.queue.toList) : s.stop < e.time := by
  cases hp : s.queue.pop? with
  | none =>
    rw [Event.Queue.pop?_eq_none.mp hp] at he
    simp at he
  | some x =>
    obtain ⟨first, q⟩ := x
    have hlate : s.stop < first.time := by
      by_cases hlate : s.stop < first.time
      · exact hlate
      · simp [due?, hp, hlate] at h
    obtain ⟨hregular, _, slot, hslots, hkey, hahead⟩ := hr.pop? hp
    rw [Event.Queue.toList, hslots] at he
    obtain ⟨x, hx, rfl⟩ := List.mem_map.mp he
    rcases List.mem_cons.mp hx with rfl | hx
    · exact hlate
    · have hle := Event.time_le_of_compare (hahead x hx)
      rw [hkey, hregular.keyed x hx] at hle
      exact Std.lt_of_lt_of_le hlate hle

/-! ### One event -/

/-- A valid transfer between nodes of the scenario. -/
def Genuine (scenario : Scenario) (e : Event) : Prop :=
  ∃ sender receiver packet, e.kind = .transmission sender receiver packet true ∧
    sender.index < scenario.nodes ∧ receiver.index < scenario.nodes

theorem Feasible.genuine {e : Event} (h : Feasible s e) (hs : Sane scenario s) :
    Genuine scenario e := by
  obtain ⟨sender, receiver, packet, hkind, htx, hrx⟩ := h
  exact ⟨sender, receiver, packet, hkind, hs.node?_ne_none.mp htx, hs.node?_ne_none.mp hrx⟩

/-- Only genuine transfers enter the queue while an event is handled, and nothing leaves it. -/
theorem Handled.flow {k : EventKind} (h : Handled now k s s') (hs : Sane scenario s)
    (hr : s.queue.Regular) :
    Flow s.queue s'.queue (s'.queue.since s.queue.turns) [] ∧
      ∀ x ∈ s'.queue.since s.queue.turns, Genuine scenario x.2 := by
  rcases h.queue_cases with ⟨events, hins, hnew⟩ | ⟨a, b, _, hlink⟩
  · obtain ⟨entering, hflow, hevents, hperm⟩ := Flow.insertAll hr hins
    have hsince := hflow.since_perm hr hperm
    refine ⟨hflow.of_perm hsince, fun x hx => ?_⟩
    have hmem : x.2 ∈ events := by
      rw [← hevents]
      exact List.mem_map_of_mem (hsince.mem_iff.mp hx)
    exact (hnew x.2 hmem).genuine hs
  · have hflow := Flow.invalidateLink hr a b
    rw [← hlink] at hflow
    -- No turn is given out, so none is later than those before.
    have hnone : s'.queue.since s.queue.turns = [] := by
      refine List.filter_eq_nil_iff.mpr fun x hx => ?_
      have hturn := hflow.regular.turn_le hx
      rw [hflow.turns] at hturn
      simpa using hturn
    rw [hnone]
    exact ⟨hflow, nofun⟩

/-- The event leaves the queue, and genuine transfers enter it. -/
theorem Reachable.flow {slot : Event.Slot} {e : Event} {q : Event.Queue}
    (h : Reachable scenario trace s) (hr : s.queue.Regular)
    (hf : s.queue.first? = some (slot, e)) (hd : s.due? = some (e, q)) :
    Flow s.queue ((process e q).run s).2.queue
        (((process e q).run s).2.queue.since s.queue.turns) [(slot, e)] ∧
      ∀ x ∈ ((process e q).run s).2.queue.since s.queue.turns, Genuine scenario x.2 := by
  obtain ⟨hp, _⟩ := pop?_of_due? hd
  obtain ⟨slot', hf', hout⟩ := Flow.pop? hr hp
  obtain rfl : slot = slot' := by
    rw [hf] at hf'
    simpa using hf'
  obtain ⟨hin, hnew⟩ := (h.handled hd).flow (h.sane.taken hd) hout.regular
  have hturns : (s.taken e q).queue.turns = s.queue.turns := hout.turns
  rw [hturns] at hin hnew
  exact ⟨hout.trans hin, hnew⟩

/-! ### All events -/

theorem insertAll_of_ofTrace (h : ofTrace scenario trace = .ok s) :
    Event.Queue.empty.insertAll trace.events = .ok s.queue := by
  unfold ofTrace at h
  cases hq : Event.Queue.empty.insertAll trace.events with
  | error f =>
    rw [hq] at h
    cases h
  | ok q =>
    rw [hq] at h
    cases h
    rfl

theorem Reachable.exists_chronicle (h : Reachable scenario trace s) :
    ∃ queued past, Chronicle scenario trace queued past s := by
  induction h with
  | start h => exact ⟨_, _, .start h⟩
  | event _ hd ih =>
    obtain ⟨queued, past, hpast⟩ := ih
    obtain ⟨slot, hf⟩ := exists_first? hd
    exact ⟨_, _, hpast.event hf hd⟩
  | finish _ hd ih =>
    obtain ⟨queued, past, hpast⟩ := ih
    exact ⟨_, _, hpast.finish hd⟩

namespace Chronicle

theorem reachable (h : Chronicle scenario trace queued past s) : Reachable scenario trace s := by
  induction h with
  | start h => exact .start h
  | event _ _ hd ih => exact ih.event hd
  | finish _ hd ih => exact ih.finish hd

/-- What was queued has entered the queue, and what has happened has left it. -/
theorem flow (h : Chronicle scenario trace queued past s) :
    Flow .empty s.queue queued (past.map (·.entry)) := by
  induction h with
  | @start s h =>
    obtain ⟨entering, hflow, _, hperm⟩ :=
      Flow.insertAll Event.Queue.regular_empty (insertAll_of_ofTrace h)
    rw [Event.Queue.slots_empty, List.append_nil] at hperm
    exact hflow.of_perm hperm
  | event h hf hd ih =>
    obtain ⟨hstep, _⟩ := h.reachable.flow ih.regular hf hd
    rw [List.map_append]
    exact ih.trans hstep
  | @finish _ _ s _ _ ih =>
    rw [(quiet_sweepAll s.stop s).queue]
    exact ih

theorem regular (h : Chronicle scenario trace queued past s) : s.queue.Regular :=
  h.flow.regular

theorem origin (h : Chronicle scenario trace queued past s) :
    ∃ handed, (queued.map (·.2)).Perm (trace.events ++ handed) ∧
      ∀ e ∈ handed, Genuine scenario e := by
  induction h with
  | start h =>
    have hperm := (fresh_of_ofTrace h).pending
    exact ⟨[], by rw [List.append_nil]; exact hperm, nofun⟩
  | @event _ _ s _ e q h hf hd ih =>
    obtain ⟨handed, hperm, hgenuine⟩ := ih
    obtain ⟨_, hnew⟩ := h.reachable.flow h.regular hf hd
    refine ⟨handed ++ (((process e q).run s).2.queue.since s.queue.turns).map (·.2), ?_, ?_⟩
    · rw [List.map_append, ← List.append_assoc]
      exact hperm.append_right _
    · intro e' he'
      rcases List.mem_append.mp he' with he' | he'
      · exact hgenuine e' he'
      · obtain ⟨x, hx, rfl⟩ := List.mem_map.mp he'
        exact hnew x hx
  | finish _ _ ih => exact ih

theorem events_eq (h : Chronicle scenario trace queued past s) :
    s.traffic.events = past.length := by
  induction h with
  | start h => rw [(fresh_of_ofTrace h).traffic]; rfl
  | @event _ _ s _ e q h _ hd ih =>
    rw [(h.reachable.handled hd).events_eq, List.length_append, ← ih]
    rfl
  | @finish _ _ s _ _ ih =>
    rw [(quiet_sweepAll s.stop s).traffic]
    exact ih

theorem due (h : Chronicle scenario trace queued past s) : ∀ o ∈ past,
    Reachable scenario trace o.before ∧ o.before.queue.first? = some o.entry ∧
      ∃ q, o.before.due? = some (o.event, q) := by
  induction h with
  | start =>
    intro o ho
    cases ho
  | @event _ _ _ _ _ q h hf hd ih =>
    intro o ho
    rcases List.mem_append.mp ho with ho | ho
    · exact ih o ho
    · obtain rfl := List.mem_singleton.mp ho
      exact ⟨h.reachable, hf, q, hd⟩
  | finish _ _ ih => exact ih

/-! ### What follows for the order of events -/

theorem ordered (h : Chronicle scenario trace queued past s) :
    past.Pairwise fun o o' => o.event.time ≤ o'.event.time := by
  have hordered := h.flow.ordered
  rw [List.pairwise_map] at hordered
  exact hordered

theorem turns_eq (h : Chronicle scenario trace queued past s) : s.queue.turns = queued.length :=
  h.flow.turns.trans (Nat.zero_add _)

theorem nodup_queued (h : Chronicle scenario trace queued past s) : (queued.map (·.1)).Nodup := by
  have hnodup := h.flow.nodup_entering Event.Queue.regular_empty
  rw [List.map_append, List.nodup_append] at hnodup
  exact hnodup.1

theorem nodup_slots (h : Chronicle scenario trace queued past s) :
    (past.map (·.slot) ++ s.queue.pending.toList.map (·.1)).Nodup := by
  have hnodup := h.flow.nodup_slots Event.Queue.regular_empty
  rw [List.map_append, List.map_map] at hnodup
  exact hnodup

/-- What has happened and what is pending is what was queued, marks apart. -/
theorem balance (h : Chronicle scenario trace queued past s) :
    ((past.map (·.entry) ++ s.queue.pending.toList).map Event.Queue.stripped).Perm
      (queued.map Event.Queue.stripped) := by
  have hbalance := h.flow.balance
  rwa [Event.Queue.slots_empty, List.append_nil] at hbalance

/-- What was queued has happened, exactly once, or is pending. -/
theorem happened_or_pending (h : Chronicle scenario trace queued past s)
    {x : Event.Slot × Event} (hx : x ∈ queued) :
    ((past.map (·.slot)).count x.1 = 1 ∧
      ∃ o ∈ past, o.slot = x.1 ∧ o.event.aborted = x.2.aborted) ∨
    ∃ y ∈ s.queue.pending.toList, y.1 = x.1 ∧ y.2.aborted = x.2.aborted := by
  have hmem := h.balance.mem_iff.mpr (List.mem_map_of_mem (f := Event.Queue.stripped) hx)
  obtain ⟨y, hy, hsame⟩ := List.mem_map.mp hmem
  obtain ⟨hslot, hevent⟩ := Prod.mk.inj hsame
  rcases List.mem_append.mp hy with hy | hy
  · left
    obtain ⟨o, ho, rfl⟩ := List.mem_map.mp hy
    have hnodup : (past.map (·.slot)).Nodup := (List.nodup_append.mp h.nodup_slots).1
    have hpast : x.1 ∈ past.map (·.slot) := List.mem_map.mpr ⟨o, ho, hslot⟩
    exact ⟨List.count_eq_one_of_mem hnodup hpast, o, ho, hslot, hevent⟩
  · exact .inr ⟨y, hy, hslot, hevent⟩

end Chronicle

/-! ### Some events at a time -/

/-- What was queued, what has happened and the network there, after so many more due events. -/
def record : Nat → List (Event.Slot × Event) → List Occurrence → Simulator →
    List (Event.Slot × Event) × List Occurrence × Simulator
  | 0, queued, past, s => (queued, past, s)
  | n + 1, queued, past, s =>
    match s.queue.first?, s.due? with
    | some (slot, _), some (e, q) =>
      let s' := ((process e q).run s).2
      record n (queued ++ s'.queue.since s.queue.turns) (past ++ [⟨slot, e, s⟩]) s'
    | _, _ => (queued, past, s)

theorem Chronicle.record (h : Chronicle scenario trace queued past s) (n : Nat) :
    Chronicle scenario trace (record n queued past s).1 (record n queued past s).2.1
      (record n queued past s).2.2 := by
  induction n generalizing queued past s with
  | zero => exact h
  | succ n ih =>
    rw [Simulator.record]
    cases hd : s.due? with
    | none =>
      split
      · contradiction
      · exact h
    | some x =>
      obtain ⟨e, q⟩ := x
      obtain ⟨slot, hf⟩ := exists_first? hd
      rw [hf]
      exact ih (h.event hf hd)

theorem exists_chronicle (scenario : Scenario) (trace : Trace) (n : Nat)
    (p : List (Event.Slot × Event) → List Occurrence → Simulator → Bool)
    (h : (match ofTrace scenario trace with
      | .ok s =>
        let (queued, past, s) := record n s.queue.pending.toList [] s
        p queued past s
      | .error _ => false) = true) :
    ∃ queued past s, Chronicle scenario trace queued past s ∧ p queued past s = true := by
  cases hs : ofTrace scenario trace with
  | error f =>
    rw [hs] at h
    cases h
  | ok s =>
    rw [hs] at h
    exact ⟨_, _, _, (Chronicle.start hs).record n, h⟩

end Simulator

end OppNet
