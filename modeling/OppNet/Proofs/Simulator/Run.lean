import OppNet.Proofs.Simulator.Step

/-!
# OppNet.Proofs.Simulator.Run

What a run of many events reaches.

* `Reachable scenario trace s`: the networks between two events of a run, failed events included.
* `Reaches.run`: a run ends in a reachable network, and fails only where a reachable event does.
* `run_exhausts`: a run that does not fail leaves no due event behind, so its fuel never runs out.
-/

namespace OppNet

namespace Simulator

variable {now : Time} {s s' : Simulator} {scenario : Scenario} {trace : Trace}

/-! ### Many events -/

def taken (e : Event) (q : Event.Queue) (s : Simulator) : Simulator :=
  { s with
    queue := q
    traffic := { s.traffic with events := s.traffic.events + 1 }
    journal := .ofNetwork e.time (.happened e.kind) :: s.journal }

theorem due?_eq_some {e : Event} {q : Event.Queue} (h : s.due? = some (e, q)) :
    s.queue.toList = e :: q.toList ∧ q.now = e.time ∧ (s.queue.Sound → q.Sound) := by
  obtain ⟨hlist, hnow, _, hsound⟩ := Event.Queue.pop?_eq_some (Option.filter_eq_some_iff.mp h).1
  exact ⟨hlist, hnow, hsound⟩

theorem Sane.taken {e : Event} {q : Event.Queue} (h : Sane scenario s)
    (hd : s.due? = some (e, q)) : Sane scenario (s.taken e q) :=
  h.of_same rfl rfl rfl ((due?_eq_some hd).2.2 h.sound)

/-- The networks between two events of a run, however many events have failed. -/
inductive Reachable (scenario : Scenario) (trace : Trace) : Simulator → Prop where
  | start {s : Simulator} (h : ofTrace scenario trace = .ok s) : Reachable scenario trace s
  | event {s : Simulator} {e : Event} {q : Event.Queue} (h : Reachable scenario trace s)
      (hd : s.due? = some (e, q)) : Reachable scenario trace ((process e q).run s).2
  | finish {s : Simulator} (h : Reachable scenario trace s) (hd : s.due? = none) :
      Reachable scenario trace (s.sweepAll s.stop)

theorem furnished_new (n : NodeId) :
    Furnished scenario n (Node.new n scenario.buffer scenario.policies) :=
  ⟨rfl, rfl, rfl, nofun, rfl⟩

structure Fresh (scenario : Scenario) (trace : Trace) (s : Simulator) : Prop where
  sane : Sane scenario s
  pending : s.queue.toList.Perm trace.events
  nodes : ∀ n node, s.node? n = some node → node = Node.new n scenario.buffer scenario.policies
  inFlight : s.inFlight = {}
  links : s.links = {}
  traffic : s.traffic = {}
  latency : s.latency = Mean.empty

theorem Fresh.total_eq_zero {f : Node → Nat} (h : Fresh scenario trace s)
    (hf : ∀ n, f (Node.new n scenario.buffer scenario.policies) = 0) : s.total f = 0 := by
  rw [total_congr (g := fun _ => 0) fun n node hn => by rw [h.nodes n node hn, hf n]]
  simp [total]

theorem fresh_of_ofTrace (h : ofTrace scenario trace = .ok s) : Fresh scenario trace s := by
  unfold ofTrace at h
  cases hq : Event.Queue.empty.insertAll trace.events with
  | error f => rw [hq] at h; cases h
  | ok q =>
    rw [hq] at h
    cases h
    obtain ⟨hperm, _, hsound⟩ := Event.Queue.insertAll_eq_ok hq Event.Queue.sound_empty
    rw [Event.Queue.toList_empty, List.append_nil] at hperm
    have hnodes : ∀ (n : NodeId) (node : Node),
        (Array.ofFn fun (i : Fin scenario.nodes) =>
          Node.new ⟨i⟩ scenario.buffer scenario.policies)[n.index]? = some node →
        node = Node.new n scenario.buffer scenario.policies := by
      intro n node hn
      rw [Array.getElem?_ofFn] at hn
      split at hn
      · exact (Option.some_inj.mp hn).symm
      · cases hn
    refine ⟨⟨rfl, rfl, Array.size_ofFn, hsound, fun n node hn => ?_⟩, hperm, hnodes, rfl, rfl,
      rfl, rfl⟩
    rw [hnodes n node hn]
    exact furnished_new n

theorem exists_ofTrace (h : ∀ e ∈ trace.events, ¬ e.time < Time.earliest) :
    ∃ s, ofTrace scenario trace = .ok s := by
  obtain ⟨q, hq⟩ := Event.Queue.exists_insertAll (q := Event.Queue.empty) h
  unfold ofTrace
  rw [hq]
  exact ⟨_, rfl⟩

theorem Reachable.sane (h : Reachable scenario trace s) : Sane scenario s := by
  induction h with
  | start h => exact (fresh_of_ofTrace h).sane
  | @event s e q _ hd ih =>
    have htaken := ih.taken hd
    exact htaken.handled (handled_handle htaken.sound htaken.uncoded e)
  | @finish s _ _ ih => exact ih.of_quiet (quiet_sweepAll s.stop s)

/-! ### Whole runs -/

theorem due?_eq_none (h : s.queue.toList = []) : s.due? = none := by
  rw [due?, Event.Queue.pop?_eq_none.mpr h]
  rfl

/-- What one event does to a reachable network. -/
theorem Reachable.handled {e : Event} {q : Event.Queue} (h : Reachable scenario trace s)
    (hd : s.due? = some (e, q)) :
    Handled e.time e.kind (s.taken e q) ((process e q).run s).2 := by
  have htaken := h.sane.taken hd
  exact handled_handle htaken.sound htaken.uncoded e

/-- An action that ends in a reachable network, and fails only where a reachable event does. -/
structure Reaches (scenario : Scenario) (trace : Trace) {α : Type}
    (r : Except Fault α × Simulator) : Prop where
  reachable : Reachable scenario trace r.2
  fault : ∀ f, r.1 = .error f → ∃ s e q, Reachable scenario trace s ∧ s.due? = some (e, q) ∧
    ((process e q).run s).1 = .error f

namespace Reaches

variable {α β : Type}

theorem pure (h : Reachable scenario trace s) (a : α) :
    Reaches scenario trace ((Pure.pure a : Action α).run s) :=
  ⟨h, nofun⟩

theorem bind {x : Action α} {g : α → Action β} (hx : Reaches scenario trace (x.run s))
    (hg : ∀ a s', x.run s = (.ok a, s') → Reachable scenario trace s' →
      Reaches scenario trace ((g a).run s')) : Reaches scenario trace ((x >>= g).run s) := by
  cases hr : x.run s with
  | mk res s₁ =>
    rw [hr] at hx
    cases res with
    | error f =>
      rw [run_bind_error hr]
      exact ⟨hx.reachable, fun f' hf' => hx.fault f' (by cases hf'; rfl)⟩
    | ok a =>
      rw [run_bind_ok hr]
      exact hg a s₁ hr hx.reachable

theorem process {e : Event} {q : Event.Queue} (h : Reachable scenario trace s)
    (hd : s.due? = some (e, q)) : Reaches scenario trace ((process e q).run s) :=
  ⟨h.event hd, fun _ hf => ⟨s, e, q, h, hd, hf⟩⟩

theorem settle (h : Reachable scenario trace s) (fuel : Nat) :
    Reaches scenario trace ((settle fuel).run s) := by
  induction fuel generalizing s with
  | zero => exact .pure h _
  | succ fuel ih =>
    rw [Simulator.settle, run_bind_ok (run_get s)]
    cases hd : s.due? with
    | none => exact .pure h _
    | some x =>
      obtain ⟨e, q⟩ := x
      dsimp only
      split
      · exact .pure h _
      · exact (process h hd).bind fun _ _ _ hs => ih hs

theorem advance (h : Reachable scenario trace s) (n : Nat) :
    Reaches scenario trace ((advance n).run s) := by
  induction n generalizing s with
  | zero => exact .pure h _
  | succ n ih =>
    rw [Simulator.advance, run_bind_ok (run_get s)]
    refine (settle h _).bind fun _ s₁ _ hs₁ => ?_
    rw [run_bind_ok (run_get s₁)]
    cases hd : s₁.due? with
    | none => exact .pure hs₁ _
    | some x => exact (process hs₁ hd).bind fun _ _ _ hs₂ => ih hs₂

end Reaches

/-- Enough fuel settles a network up to the next beginning of a contact. -/
theorem settle_exhausts (h : Reachable scenario trace s) {fuel : Nat}
    (hrun : (settle fuel).run s = (.ok (), s')) (hsize : s.queue.size ≤ fuel) :
    ups s'.queue.toList = ups s.queue.toList ∧
      ∀ e q, s'.due? = some (e, q) → e.kind.isContactUp = true := by
  induction fuel generalizing s with
  | zero =>
    cases hrun
    rw [Event.Queue.size_eq, Nat.le_zero, List.length_eq_zero_iff] at hsize
    exact ⟨rfl, fun e q hd => by rw [due?_eq_none hsize] at hd; cases hd⟩
  | succ fuel ih =>
    rw [settle, run_bind_ok (run_get s)] at hrun
    cases hd : s.due? with
    | none =>
      rw [hd] at hrun
      cases hrun
      exact ⟨rfl, fun e q hd' => by rw [hd] at hd'; cases hd'⟩
    | some x =>
      obtain ⟨e, q⟩ := x
      rw [hd] at hrun
      dsimp only at hrun
      cases hup : e.kind.isContactUp with
      | true =>
        rw [hup, if_pos rfl] at hrun
        cases hrun
        exact ⟨rfl, fun e' q' hd' => by rw [hd] at hd'; cases hd'; exact hup⟩
      | false =>
        rw [hup, if_neg (by simp)] at hrun
        obtain ⟨_, s₁, hp, hrun⟩ := run_bind_eq_ok hrun
        have hreach := h.event hd
        have hhandled := h.handled hd
        rw [hp] at hreach hhandled
        have hlist := (due?_eq_some hd).1
        have hlen : s₁.queue.toList.length = q.toList.length := hhandled.length_eq hup
        have hups : ups s₁.queue.toList = ups q.toList := hhandled.ups_eq
        obtain ⟨hsame, hnext⟩ := ih hreach hrun (by
          rw [Event.Queue.size_eq, hlist, List.length_cons] at hsize
          rw [Event.Queue.size_eq, hlen]
          omega)
        refine ⟨?_, hnext⟩
        rw [hsame, hups, hlist, ups, ups, List.countP_cons, hup]
        rfl

/-- As many contacts as are pending, and the stretches between them, leave no due event. -/
theorem advance_exhausts (h : Reachable scenario trace s) {n : Nat}
    (hrun : (advance n).run s = (.ok (), s')) (hn : ups s.queue.toList < n) :
    s'.due? = none := by
  induction n generalizing s with
  | zero => cases hn
  | succ n ih =>
    rw [advance, run_bind_ok (run_get s)] at hrun
    obtain ⟨_, s₁, hsettle, hrun⟩ := run_bind_eq_ok hrun
    have hs₁ := (Reaches.settle h s.queue.size).reachable
    rw [hsettle] at hs₁
    obtain ⟨hsame, hnext⟩ := settle_exhausts h hsettle (Nat.le_refl _)
    rw [run_bind_ok (run_get s₁)] at hrun
    cases hd : s₁.due? with
    | none =>
      rw [hd] at hrun
      cases hrun
      exact hd
    | some x =>
      obtain ⟨e, q⟩ := x
      rw [hd] at hrun
      obtain ⟨_, s₂, hp, hrun⟩ := run_bind_eq_ok hrun
      have hreach := hs₁.event hd
      have hhandled := hs₁.handled hd
      rw [hp] at hreach hhandled
      have hups : ups s₂.queue.toList = ups q.toList := hhandled.ups_eq
      refine ih hreach hrun ?_
      rw [← hsame, (due?_eq_some hd).1, ups, List.countP_cons, hnext e q hd, if_pos rfl] at hn
      rw [hups, ups]
      omega

theorem advance_run_exhausts (h : Reachable scenario trace s)
    (hrun : (advance (s.queue.count (·.kind.isContactUp) + 1)).run s = (.ok (), s')) :
    s'.due? = none := by
  refine advance_exhausts h hrun ?_
  rw [Event.Queue.count_eq]
  exact Nat.lt_succ_self _

/-- A run ends in a reachable network, and fails only where a reachable event does. -/
theorem Reaches.run (h : Reachable scenario trace s) : Reaches scenario trace (run.run s) := by
  rw [Simulator.run, run_bind_ok (run_get s)]
  refine (advance h _).bind fun _ s₁ hadv hs₁ => ?_
  exact ⟨hs₁.finish (advance_run_exhausts h hadv), nofun⟩

theorem run_exhausts (h : Reachable scenario trace s) {r : Report}
    (hrun : run.run s = (.ok r, s')) : s'.due? = none := by
  rw [run, run_bind_ok (run_get s)] at hrun
  obtain ⟨_, s₁, hadv, hrun⟩ := run_bind_eq_ok hrun
  have hnone := advance_run_exhausts h hadv
  have hq := quiet_sweepAll s₁.stop s₁
  cases hrun
  rw [due?, hq.queue, hq.stop]
  exact hnone

theorem toTraffic_report (s : Simulator) : s.report.toTraffic = s.traffic := by
  have hnodes : (s.nodes.foldl addNode { toTraffic := s.traffic }).toTraffic = s.traffic :=
    Array.foldl_induction (fun _ (r : Report) => r.toTraffic = s.traffic) rfl fun _ _ hr => hr
  exact hnodes

/-! ### Some events at a time -/

def steps : Nat → Simulator → Simulator
  | 0, s => s
  | n + 1, s =>
    match s.due? with
    | none => s
    | some (e, q) => steps n ((process e q).run s).2

theorem Reachable.steps (h : Reachable scenario trace s) (n : Nat) :
    Reachable scenario trace (s.steps n) := by
  induction n generalizing s with
  | zero => exact h
  | succ n ih =>
    rw [Simulator.steps]
    cases hd : s.due? with
    | none => exact h
    | some x => exact ih (h.event hd)

/-- A reachable network can be found by running the trace. -/
theorem exists_reachable (scenario : Scenario) (trace : Trace) (n : Nat) (p : Simulator → Bool)
    (h : (match ofTrace scenario trace with
      | .ok s => p (s.steps n)
      | .error _ => false) = true) : ∃ s, Reachable scenario trace s ∧ p s = true := by
  cases hs : ofTrace scenario trace with
  | error f => rw [hs] at h; cases h
  | ok s =>
    rw [hs] at h
    exact ⟨s.steps n, (Reachable.start hs).steps n, h⟩

end Simulator

/-- Two nodes with unbounded time to live, and ten seconds for every packet between them. -/
def Scenario.pair : Scenario :=
  { Scenario.default with
    duration := ⟨100.0⟩
    nodes := 2
    buffer := { capacity := 10, lifetime := ⟨0.0⟩, recording := false }
    policies := { eviction := ⟨.front, false⟩, scheduling := .fifo, admission := .admitAll }
    protocol :=
      { forwarding := .epidemic, transmissionTime := ⟨10.0⟩, historyWindow := ⟨500.0⟩ } }

/-- A packet, and three contacts of which the first one is too short for it. -/
def Trace.reopened : Trace where
  events :=
    [⟨⟨1.0⟩, .generation ⟨0⟩ ⟨1⟩ ⟨0⟩ true⟩, ⟨⟨5.0⟩, .contactUp ⟨0⟩ ⟨1⟩⟩,
      ⟨⟨6.0⟩, .contactDown ⟨0⟩ ⟨1⟩⟩, ⟨⟨7.0⟩, .contactUp ⟨0⟩ ⟨1⟩⟩,
      ⟨⟨50.0⟩, .contactDown ⟨0⟩ ⟨1⟩⟩, ⟨⟨60.0⟩, .contactUp ⟨0⟩ ⟨1⟩⟩]
  contacts := 3
  packets := 1

/-- Three nodes with room for two packets each, which give up what they carry for others first. -/
def Scenario.trio : Scenario :=
  { Scenario.pair with
    nodes := 3
    buffer := { capacity := 2, lifetime := ⟨0.0⟩, recording := false }
    policies := { eviction := ⟨.front, true⟩, scheduling := .fifo, admission := .admitAll }
    protocol :=
      { forwarding := .epidemic, transmissionTime := ⟨1.0⟩, historyWindow := ⟨500.0⟩ } }

/--
A packet that is copied and then delivered by its source, which gets it back from the node with the
copy. Two more packets leave no room for it.
-/
def Trace.returning : Trace where
  events :=
    [⟨⟨1.0⟩, .generation ⟨0⟩ ⟨2⟩ ⟨0⟩ true⟩, ⟨⟨2.0⟩, .contactUp ⟨0⟩ ⟨1⟩⟩,
      ⟨⟨4.0⟩, .contactDown ⟨0⟩ ⟨1⟩⟩, ⟨⟨5.0⟩, .contactUp ⟨0⟩ ⟨2⟩⟩,
      ⟨⟨7.0⟩, .contactDown ⟨0⟩ ⟨2⟩⟩, ⟨⟨8.0⟩, .generation ⟨0⟩ ⟨2⟩ ⟨1⟩ true⟩,
      ⟨⟨9.0⟩, .contactUp ⟨0⟩ ⟨1⟩⟩, ⟨⟨11.0⟩, .contactDown ⟨0⟩ ⟨1⟩⟩,
      ⟨⟨12.0⟩, .generation ⟨0⟩ ⟨2⟩ ⟨2⟩ true⟩]
  contacts := 3
  packets := 3

end OppNet