import OppNet.Proofs.Simulator.Chronicle

/-!
# OppNet.Proofs.Simulator.Termination

A run comes to an end, and leaves nothing undone.

* `Loop s ending`: the loop of a run without a bound on its rounds, and what it ends in.
* `Reachable.work_lt`: a round leaves fewer contacts to begin, or as many and fewer events. So the
  loop ends (`Reachable.exists_loop`), and a run is the loop with a sweep and a report after it
  (`Loop.run_eq`).
* `Chronicle.complete`: where nothing is due, everything up to the end has happened once.
* `run_terminates_complete`: all of this for a run from any network between two events.
-/

namespace OppNet

namespace Simulator

variable {s s' : Simulator} {scenario : Scenario} {trace : Trace} {e : Event} {q : Event.Queue}
  {queued : List (Event.Slot × Event)} {past : List Occurrence}
  {ending : Except Fault Unit × Simulator}

/-! ### The loop -/

/-- Takes out and handles one due event after the other, until none is left or one of them fails. -/
inductive Loop : Simulator → Except Fault Unit × Simulator → Prop where
  | done {s : Simulator} (hd : s.due? = none) : Loop s (.ok (), s)
  | failed {s s' : Simulator} {e : Event} {q : Event.Queue} {f : Fault}
      (hd : s.due? = some (e, q)) (hp : (process e q).run s = (.error f, s')) :
      Loop s (.error f, s')
  | next {s s' : Simulator} {e : Event} {q : Event.Queue} {ending : Except Fault Unit × Simulator}
      (hd : s.due? = some (e, q)) (hp : (process e q).run s = (.ok (), s'))
      (h : Loop s' ending) : Loop s ending

/-- The contacts to begin, and the events to come. -/
def work (s : Simulator) : Nat × Nat := (ups s.queue.toList, s.queue.size)

/-- A round leaves fewer contacts to begin, or as many and fewer events. -/
theorem Reachable.work_lt (h : Reachable scenario trace s) (hd : s.due? = some (e, q)) :
    Prod.Lex (· < ·) (· < ·) ((process e q).run s).2.work s.work := by
  have hhandled := h.handled hd
  have hlist := (due?_eq_some hd).1
  have hups : ups ((process e q).run s).2.queue.toList = ups q.toList := hhandled.ups_eq
  simp only [work, Event.Queue.size_eq, hups, hlist]
  cases hup : e.kind.isContactUp with
  | true =>
    -- A contact may queue any number of transfers, but there is one contact less.
    apply Prod.Lex.left
    simp [ups, hup]
  | false =>
    have hlen : ((process e q).run s).2.queue.toList.length = q.toList.length :=
      hhandled.length_eq hup
    have hsame : ups (e :: q.toList) = ups q.toList := by simp [ups, hup]
    rw [hlen, hsame]
    apply Prod.Lex.right
    simp

/-- The loop ends, whatever the events queue on the way. -/
theorem Reachable.exists_loop (h : Reachable scenario trace s) : ∃ ending, Loop s ending := by
  have hwf : WellFounded fun s' s : Simulator =>
      Prod.Lex (· < ·) (· < ·) s'.work s.work :=
    InvImage.wf work (Prod.lex Nat.lt_wfRel Nat.lt_wfRel).wf
  induction s using hwf.induction with
  | _ s ih =>
    cases hd : s.due? with
    | none => exact ⟨_, .done hd⟩
    | some x =>
      obtain ⟨e, q⟩ := x
      have hless := h.work_lt hd
      have hreach := h.event hd
      cases hp : (process e q).run s with
      | mk result s' =>
        rw [hp] at hless hreach
        cases result with
        | error f => exact ⟨_, .failed hd hp⟩
        | ok u =>
          obtain ⟨ending, hloop⟩ := ih s' hless hreach
          exact ⟨ending, .next hd hp hloop⟩

/-! ### A run as a loop -/

/-- A bounded part of the loop: the loop fails there, or goes on from where the part has ended. -/
structure Partly (ending : Except Fault Unit × Simulator) (r : Except Fault Unit × Simulator) :
    Prop where
  failed : ∀ f, r.1 = .error f → r = ending
  goesOn : r.1 = .ok () → Loop r.2 ending

theorem Partly.pure (h : Loop s ending) : Partly ending ((Pure.pure () : Action Unit).run s) :=
  ⟨nofun, fun _ => h⟩

theorem Partly.bind {x y : Action Unit} (hx : Partly ending (x.run s))
    (hy : ∀ s', Loop s' ending → Partly ending (y.run s')) :
    Partly ending ((x >>= fun _ => y).run s) := by
  cases hr : x.run s with
  | mk result s₁ =>
    rw [hr] at hx
    cases result with
    | error f =>
      rw [run_bind_error hr]
      exact ⟨fun _ _ => hx.failed f rfl, nofun⟩
    | ok u =>
      rw [run_bind_ok hr]
      exact hy s₁ (hx.goesOn rfl)

theorem Loop.process (h : Loop s ending) (hd : s.due? = some (e, q)) :
    Partly ending ((process e q).run s) := by
  cases h with
  | done hnone =>
    rw [hd] at hnone
    cases hnone
  | failed hd' hp =>
    rw [hd] at hd'
    cases hd'
    rw [hp]
    exact ⟨fun _ _ => rfl, nofun⟩
  | next hd' hp h =>
    rw [hd] at hd'
    cases hd'
    rw [hp]
    exact ⟨nofun, fun _ => h⟩

theorem Loop.settle (h : Loop s ending) (fuel : Nat) :
    Partly ending ((settle fuel).run s) := by
  induction fuel generalizing s with
  | zero => exact .pure h
  | succ fuel ih =>
    rw [Simulator.settle, run_bind_ok (run_get s)]
    cases hd : s.due? with
    | none => exact .pure h
    | some x =>
      obtain ⟨e, q⟩ := x
      dsimp only
      split
      · exact .pure h
      · exact (h.process hd).bind fun _ h' => ih h'

theorem Loop.advance (h : Loop s ending) (n : Nat) : Partly ending ((advance n).run s) := by
  induction n generalizing s with
  | zero => exact .pure h
  | succ n ih =>
    rw [Simulator.advance, run_bind_ok (run_get s)]
    refine (h.settle _).bind fun s₁ h₁ => ?_
    rw [run_bind_ok (run_get s₁)]
    cases hd : s₁.due? with
    | none => exact .pure h₁
    | some x => exact (h₁.process hd).bind fun _ h₂ => ih h₂

/-- What a run makes of the end of its loop: a failure, or a last sweep and a report. -/
def conclude : Except Fault Unit × Simulator → Except Fault Report × Simulator
  | (.error f, s) => (.error f, s)
  | (.ok (), s) => (.ok (s.sweepAll s.stop).report, s.sweepAll s.stop)

/-- A run is its loop and what it makes of the end: its bounds never cut the loop short. -/
theorem Loop.run_eq (h : Loop s ending) (hs : Reachable scenario trace s) :
    run.run s = conclude ending := by
  have hpart := h.advance (s.queue.count (·.kind.isContactUp) + 1)
  rw [run, run_bind_ok (run_get s)]
  cases hadv : (Simulator.advance (s.queue.count (·.kind.isContactUp) + 1)).run s with
  | mk result s₁ =>
    rw [hadv] at hpart
    cases result with
    | error f =>
      obtain rfl := hpart.failed f rfl
      exact run_bind_error hadv
    | ok u =>
      -- Nothing is due where the bounded part ends, so the loop has ended there too.
      have hnone := advance_run_exhausts hs hadv
      rw [run_bind_ok hadv]
      cases hpart.goesOn rfl with
      | done => rfl
      | failed hd =>
        rw [hnone] at hd
        cases hd
      | next hd =>
        rw [hnone] at hd
        cases hd

/-! ### Everything happens -/

namespace Chronicle

theorem loop (h : Chronicle scenario trace queued past s) (hl : Loop s ending) :
    ∃ queued' past', Chronicle scenario trace (queued ++ queued') (past ++ past') ending.2 ∧
      (ending.1 = .ok () → ending.2.due? = none) := by
  induction hl generalizing queued past with
  | done hd => exact ⟨[], [], by simpa using h, fun _ => hd⟩
  | failed hd hp =>
    obtain ⟨slot, hf⟩ := exists_first? hd
    have hstep := h.event hf hd
    rw [hp] at hstep
    exact ⟨_, _, hstep, nofun⟩
  | next hd hp _ ih =>
    obtain ⟨slot, hf⟩ := exists_first? hd
    have hstep := h.event hf hd
    rw [hp] at hstep
    obtain ⟨queued', past', hrest, hend⟩ := ih hstep
    rw [List.append_assoc, List.append_assoc] at hrest
    exact ⟨_, _, hrest, hend⟩

theorem run (h : Chronicle scenario trace queued past s) :
    ∃ queued' past',
      Chronicle scenario trace (queued ++ queued') (past ++ past') (run.run s).2 ∧
      ∀ r, (run.run s).1 = .ok r → (run.run s).2.due? = none := by
  obtain ⟨ending, hloop⟩ := h.reachable.exists_loop
  rw [hloop.run_eq h.reachable]
  obtain ⟨queued', past', hpast, hend⟩ := h.loop hloop
  obtain ⟨result, s₁⟩ := ending
  cases result with
  | error f => exact ⟨queued', past', hpast, nofun⟩
  | ok u =>
    have hnone := hend rfl
    have hq := quiet_sweepAll s₁.stop s₁
    refine ⟨queued', past', hpast.finish hnone, fun _ _ => ?_⟩
    change (s₁.sweepAll s₁.stop).due? = none
    rw [due?, hq.queue, hq.stop]
    exact hnone

/-- Where nothing is due, all that was queued up to the end has happened once, and the rest lies
beyond the end. -/
theorem complete (h : Chronicle scenario trace queued past s) (hd : s.due? = none) :
    (∀ e ∈ s.queue.toList, scenario.stop < e.time) ∧
    ∀ x ∈ queued, x.2.time ≤ scenario.stop → (past.map (·.slot)).count x.1 = 1 ∧
      ∃ o ∈ past, o.slot = x.1 ∧ o.event.aborted = x.2.aborted := by
  have hlate : ∀ e ∈ s.queue.toList, scenario.stop < e.time := by
    intro e he
    rw [← h.reachable.sane.stop]
    exact stop_lt_of_due?_eq_none h.regular hd he
  refine ⟨hlate, fun x hx hdue => ?_⟩
  rcases h.happened_or_pending hx with hpast | ⟨y, hy, _, hsame⟩
  · exact hpast
  · have htime : y.2.time = x.2.time := by
      rw [← Event.time_aborted, hsame, Event.time_aborted]
    have hbeyond := hlate y.2 (List.mem_map_of_mem hy)
    rw [htime] at hbeyond
    exact absurd hdue (Std.not_le.mpr hbeyond)

end Chronicle

def runs : Nat → Simulator → Simulator
  | 0, s => s
  | n + 1, s => runs n (run.run s).2

theorem Chronicle.runs (h : Chronicle scenario trace queued past s) (n : Nat) :
    ∃ queued' past',
      Chronicle scenario trace (queued ++ queued') (past ++ past') (s.runs n) := by
  induction n generalizing queued past s with
  | zero => exact ⟨[], [], by rw [List.append_nil, List.append_nil]; exact h⟩
  | succ n ih =>
    obtain ⟨queued₁, past₁, hrun, _⟩ := h.run
    obtain ⟨queued₂, past₂, hrest⟩ := ih hrun
    rw [List.append_assoc, List.append_assoc] at hrest
    exact ⟨_, _, hrest⟩

/--
A run from any network between two events comes to an end. Every round of its loop leaves fewer
contacts to begin, or as many and fewer events. However often the network is run, events happen in
the order of their times, none of those queued happens twice, and a run that does not fail has seen
to every event up to the end, of the trace or queued later, and leaves only later ones.
-/
theorem run_terminates_complete (h : Chronicle scenario trace queued past s) :
    (∀ e q, s.due? = some (e, q) →
      Prod.Lex (· < ·) (· < ·) ((process e q).run s).2.work s.work) ∧
    (∃ ending, Loop s ending) ∧ (∀ ending, Loop s ending → run.run s = conclude ending) ∧
    s.traffic.events = past.length ∧ s.queue.turns = queued.length ∧
    past.Pairwise (fun o o' => o.event.time ≤ o'.event.time) ∧
    (queued.map (·.1)).Nodup ∧
    (past.map (·.slot) ++ s.queue.pending.toList.map (·.1)).Nodup ∧
    ((past.map (·.entry) ++ s.queue.pending.toList).map Event.Queue.stripped).Perm
      (queued.map Event.Queue.stripped) ∧
    (∃ handed, (queued.map (·.2)).Perm (trace.events ++ handed) ∧
      ∀ e ∈ handed, Genuine scenario e) ∧
    (∀ n, ∃ queued' past',
      Chronicle scenario trace (queued ++ queued') (past ++ past') (s.runs n)) ∧
    ∀ r s', run.run s = (.ok r, s') → ∃ queued' past',
      Chronicle scenario trace (queued ++ queued') (past ++ past') s' ∧
      (∀ e ∈ s'.queue.toList, scenario.stop < e.time) ∧
      ∀ x ∈ queued ++ queued', x.2.time ≤ scenario.stop →
        ((past ++ past').map (·.slot)).count x.1 = 1 ∧
        ∃ o ∈ past ++ past', o.slot = x.1 ∧ o.event.aborted = x.2.aborted := by
  have hs := h.reachable
  refine ⟨fun _ _ hd => hs.work_lt hd, hs.exists_loop, fun _ hl => hl.run_eq hs, h.events_eq,
    h.turns_eq, h.ordered, h.nodup_queued, h.nodup_slots, h.balance, h.origin, h.runs,
    fun r s' hrun => ?_⟩
  obtain ⟨queued', past', hafter, hnone⟩ := h.run
  rw [hrun] at hafter hnone
  exact ⟨queued', past', hafter, hafter.complete (hnone r rfl)⟩

/-- A run from halfway through three contacts sees to all that is left, the transfers included. -/
theorem reopened_run_complete : ∃ queued past s r,
    Chronicle Scenario.pair Trace.reopened queued past s ∧ past.length = 2 ∧
    (∃ ending, Loop s ending ∧ run.run s = conclude ending) ∧ (run.run s).1 = .ok r ∧
    ∃ queued' past', Chronicle Scenario.pair Trace.reopened (queued ++ queued') (past ++ past')
        (run.run s).2 ∧
      (past ++ past').length = 8 ∧ (run.run s).2.queue.toList = [] ∧
      ∀ x ∈ queued ++ queued', x.2.time ≤ Scenario.pair.stop →
        ((past ++ past').map (·.slot)).count x.1 = 1 := by
  obtain ⟨queued, past, s, h, hp⟩ := exists_chronicle Scenario.pair Trace.reopened 2
    (fun _ past s => decide (past.length = 2 ∧ (run.run s).2.traffic.events = 8 ∧
      (run.run s).2.queue.toList = []) && (run.run s).1.isOk) (by decide +kernel)
  obtain ⟨hstate, hok⟩ := Bool.and_eq_true_iff.mp hp
  obtain ⟨hlength, hevents, hempty⟩ := of_decide_eq_true hstate
  obtain ⟨_, ⟨ending, hloop⟩, hrun, _, _, _, _, _, _, _, _, hcomplete⟩ :=
    run_terminates_complete h
  cases hr : run.run s with
  | mk result s' =>
    rw [hr] at hok hevents hempty
    cases result with
    | error f => cases hok
    | ok r =>
      obtain ⟨queued', past', h', _, honce⟩ := hcomplete r s' hr
      refine ⟨queued, past, s, r, h, hlength, ⟨ending, hloop, hrun ending hloop⟩, by rw [hr],
        queued', past', ?_, ?_, ?_, ?_⟩
      · rw [hr]
        exact h'
      · rw [← h'.events_eq]
        exact hevents
      · rw [hr]
        exact hempty
      · intro x hx hdue
        exact (honce x hx hdue).1

end Simulator

end OppNet
