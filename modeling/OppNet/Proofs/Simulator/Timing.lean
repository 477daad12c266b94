import OppNet.Proofs.Buffer.Timing
import OppNet.Proofs.Simulator.Chronicle
import OppNet.Proofs.Simulator.Visit

/-!
# OppNet.Proofs.Simulator.Timing

No buffer of a network is used at a time before one at which it was used already. This is up to the
clock of the queue, and to the end of a run, which comes after all events that are due.

* `Punctual start P b`: the times at which the buffer was used are in order, and all of them `P`.
* `Elapsed s t`: nothing that is still to come is earlier than `t`. `Reachable.punctual`: buffers
  were used at such times only, however often the run was repeated.
* `history_windows_exact`: so their histories are in order, and the questions about a window of time
  are about all records in it.
-/

namespace OppNet

/-- The buffer that every node of the scenario starts with. -/
def Scenario.emptyBuffer (scenario : Scenario) : Buffer :=
  .new scenario.buffer.capacity scenario.buffer.lifetime scenario.policies.eviction
    scenario.buffer.recording

namespace Simulator

open Buffer (Driven)

variable {now : Time} {k : EventKind} {s s₀ : Simulator} {start b : Buffer} {P Q : Time → Prop}
  {scenario : Scenario} {trace : Trace}

/-- A buffer that was used at times that are in order, the latest one first, and all of them `P`. -/
def Punctual (start : Buffer) (P : Time → Prop) (b : Buffer) : Prop :=
  ∃ ts, Driven start ts b ∧ ts.Pairwise (fun later earlier => earlier ≤ later) ∧ ∀ t ∈ ts, P t

namespace Punctual

theorem mono (h : Punctual start P b) (hPQ : ∀ t, P t → Q t) : Punctual start Q b := by
  obtain ⟨ts, hdriven, hordered, hts⟩ := h
  exact ⟨ts, hdriven, hordered, fun t ht => hPQ t (hts t ht)⟩

theorem silenced (h : Punctual start P b) : Punctual start P { b with notes := [] } := by
  obtain ⟨ts, hdriven, hordered, hts⟩ := h
  exact ⟨ts, hdriven.silenced, hordered, hts⟩

theorem perform (h : Punctual start (· ≤ now) b) (r : Buffer.Request) :
    Punctual start (· ≤ now) (b.perform now r).2 := by
  obtain ⟨ts, hdriven, hordered, hts⟩ := h
  refine ⟨now :: ts, hdriven.perform now r, List.pairwise_cons.mpr ⟨hts, hordered⟩, fun t ht => ?_⟩
  rcases List.mem_cons.mp ht with rfl | ht
  · exact Std.le_refl t
  · exact hts t ht

end Punctual

/-- What an event does to a buffer, it does at its own time. -/
theorem upheld_punctual (now : Time) (k : EventKind) (s₀ : Simulator) (start : Buffer) :
    Upheld now k s₀ fun s =>
      ∀ n node, s.node? n = some node → Punctual start (· ≤ now) node.buffer where
  aside h hn _ := by
    intro n node hnode
    rw [node?, hn] at hnode
    exact h n node hnode
  swept h hn := forall_putNode h hn ((h _ _ hn).perform (.ask .size)).silenced
  met _ h _ hn := forall_putNode h hn (h _ _ hn).silenced
  again h hn _ := forall_putNode h hn (h _ _ hn).silenced
  relayed h hn _ _ := forall_putNode h hn ((h _ _ hn).perform (.insert _)).silenced
  handed {s n node id} other h hn _ := by
    have hmarked : Punctual start (· ≤ now) (silenced (node.marking now id)).buffer :=
      ((h _ _ hn).perform (.markForwarded id)).silenced
    exact forall_putNode (forall_putNode h hn hmarked)
      (node?_putNode_self (index_lt_of_node? hn) _)
      (hmarked.perform (.addForwarder id other)).silenced
  removed id h hn := forall_putNode h hn ((h _ _ hn).perform (.remove id)).silenced
  sent h _ _ := h
  born h _ hn := forall_putNode h hn ((h _ _ hn).perform (.insert _)).silenced
  delivered h hn _ _ _ _ := forall_putNode h hn (h _ _ hn).silenced

/-- Neither the end nor anything pending is earlier. -/
def Elapsed (s : Simulator) (t : Time) : Prop := t ≤ s.stop ∧ ∀ e ∈ s.queue.toList, t ≤ e.time

/-- What an event leaves pending is not before its time. -/
theorem elapsed_of_flow {e : Event} {slot : Event.Slot} {entering : List (Event.Slot × Event)}
    (h : Event.Queue.Flow s₀.queue s.queue entering [(slot, e)]) (hstop : e.time ≤ s.stop)
    {t : Time} (ht : t ≤ e.time) : s.Elapsed t := by
  have hclock : e.time ≤ s.queue.now := h.before (slot, e) (List.mem_singleton_self _)
  refine ⟨Std.le_trans ht hstop, fun e' he' => ?_⟩
  obtain ⟨x, hx, rfl⟩ := List.mem_map.mp he'
  have hcurrent := h.regular.current x hx
  rw [h.regular.keyed x hx] at hcurrent
  exact Std.le_trans ht (Std.le_trans hclock hcurrent)

theorem Reachable.elapsed_process {e : Event} {q : Event.Queue} (h : Reachable scenario trace s)
    (hd : s.due? = some (e, q)) {t : Time} (ht : t ≤ e.time) :
    ((process e q).run s).2.Elapsed t := by
  obtain ⟨_, _, hpast⟩ := h.exists_chronicle
  obtain ⟨slot, hf⟩ := exists_first? hd
  obtain ⟨hflow, _⟩ := h.flow hpast.regular hf hd
  have hstop : ((process e q).run s).2.stop = s.stop := by
    rw [(h.event hd).sane.stop, h.sane.stop]
  refine elapsed_of_flow hflow ?_ ht
  rw [hstop]
  exact (pop?_of_due? hd).2

theorem Reachable.elapsed_finish (h : Reachable scenario trace s) (hd : s.due? = none) {t : Time}
    (ht : t ≤ s.stop) : (s.sweepAll s.stop).Elapsed t := by
  obtain ⟨_, _, hpast⟩ := h.exists_chronicle
  have hquiet := quiet_sweepAll s.stop s
  constructor
  · rw [hquiet.stop]
    exact ht
  · intro e he
    rw [hquiet.queue] at he
    exact Std.le_trans ht (Std.le_of_lt (stop_lt_of_due?_eq_none hpast.regular hd he))

/-- No buffer is ever used at an earlier time than before. -/
theorem Reachable.punctual (h : Reachable scenario trace s) : ∀ n node, s.node? n = some node →
    Punctual scenario.emptyBuffer s.Elapsed node.buffer := by
  induction h with
  | start h =>
    intro n node hn
    rw [(fresh_of_ofTrace h).nodes n node hn]
    exact ⟨[], .new, .nil, nofun⟩
  | @event s e q h hd ih =>
    have hdue : e ∈ s.queue.toList := by
      rw [(due?_eq_some hd).1]
      exact List.mem_cons_self
    have hafter := (upheld_punctual e.time e.kind s scenario.emptyBuffer).process q
      fun n node hn => (ih n node hn).mono fun t ht => ht.2 e hdue
    exact fun n node hn => (hafter n node hn).mono fun t ht => h.elapsed_process hd ht
  | @finish s h hd ih =>
    have hafter := (upheld_punctual s.stop .checkpoint s scenario.emptyBuffer).sweepAll
      fun n node hn => (ih n node hn).mono fun t ht => ht.1
    exact fun n node hn => (hafter n node hn).mono fun t ht => h.elapsed_finish hd ht

/--
The histories of a run are in order, and none of their records is later than the latest use of the
buffer, before which the buffer will not be used any more. In a history that is in order the
questions about a window of time are about all records in it.
-/
theorem history_windows_exact :
    (∀ (scenario : Scenario) (trace : Trace) (s : Simulator), scenario.buffer.recording = true →
      Reachable scenario trace s → ∀ n node, s.node? n = some node →
        ∃ ts log, Driven scenario.emptyBuffer ts node.buffer ∧
          ts.Pairwise (fun later earlier => earlier ≤ later) ∧ (∀ t ∈ ts, s.Elapsed t) ∧
          node.buffer.history = some log ∧ log.Ordered ∧
          ∀ r ∈ log.backwards, ∃ latest ∈ ts.head?, r.time ≤ latest) ∧
    ∀ log : History, log.Ordered → ∀ now width, log.Exact now width := by
  refine ⟨fun scenario trace s hrecording h n node hn => ?_,
    fun log hlog now width => hlog.exact now width⟩
  obtain ⟨ts, hdriven, hordered, hts⟩ := h.punctual n node hn
  have hstart : scenario.emptyBuffer.history = some .empty := by
    simp only [Scenario.emptyBuffer, Buffer.new, hrecording, if_true]
  obtain ⟨log, hlog, hlogged, htimes⟩ := hdriven.ordered hstart hordered
  refine ⟨ts, log, hdriven, hordered, hts, hlog, hlogged, fun r hr => ?_⟩
  have hused := htimes r hr
  cases ts with
  | nil => cases hused
  | cons latest earlier =>
    refine ⟨latest, rfl, ?_⟩
    rcases List.mem_cons.mp hused with heq | hmem
    · exact Std.le_of_eq heq
    · exact (List.pairwise_cons.mp hordered).1 _ hmem

/-- A buffer with room for two packets, which has taken in four of them and given up one. -/
theorem return_recorded :
    let scenario : Scenario := { Scenario.trio with
      buffer := { capacity := 2, lifetime := ⟨0.0⟩, recording := true } }
    ∃ s node ts log, Reachable scenario .returning s ∧ s.node? ⟨0⟩ = some node ∧
      Driven scenario.emptyBuffer ts node.buffer ∧ node.buffer.history = some log ∧
      log.size = 5 ∧ log.Ordered ∧ log.Exact ⟨12.0⟩ ⟨4.0⟩ ∧ log.dropsIn ⟨12.0⟩ ⟨4.0⟩ = 1 := by
  intro scenario
  obtain ⟨s, hs, hp⟩ := exists_reachable scenario .returning 13
    (fun s => (s.node? ⟨0⟩).any fun node => node.buffer.history.any fun log =>
      log.size = 5 ∧ log.dropsIn ⟨12.0⟩ ⟨4.0⟩ = 1) (by decide +kernel)
  obtain ⟨node, hn, hhistory⟩ := (Option.any_eq_true _ _).mp hp
  obtain ⟨log, hlog, hcounts⟩ := (Option.any_eq_true _ _).mp hhistory
  obtain ⟨hsize, hdrops⟩ := of_decide_eq_true hcounts
  obtain ⟨ts, log', hdriven, _, _, hlog', hordered, _⟩ :=
    history_windows_exact.1 scenario .returning s rfl hs ⟨0⟩ node hn
  obtain rfl : log' = log := Option.some_inj.mp (hlog'.symm.trans hlog)
  exact ⟨s, node, ts, log', hs, hn, hdriven, hlog, hsize, hordered,
    history_windows_exact.2 log' hordered ⟨12.0⟩ ⟨4.0⟩, hdrops⟩

end Simulator

end OppNet
