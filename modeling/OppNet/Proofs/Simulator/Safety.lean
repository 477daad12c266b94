import OppNet.Proofs.Binary64.Double
import OppNet.Proofs.Simulator.Birth

/-!
# OppNet.Proofs.Simulator.Safety

A scenario without a flaw never stops halfway.

* `Trace.Fits`: a trace that names existing nodes only, starts no earlier than the clock and gives
  every packet a number of its own.
* `offer_ok`: an offer goes through. Utilities are unsigned, so those of a packet worth offering
  under greedy forwarding do not add up to zero, and a transmission never ends in the past.
* `run_never_fails`: no reachable event fails, and neither does a run.
-/

namespace OppNet

open Binary64

namespace EventKind

def nodes : EventKind → List NodeId
  | contactUp a b => [a, b]
  | contactDown a b => [a, b]
  | transmission sender receiver _ _ => [sender, receiver]
  | generation source destination _ _ => [source, destination]
  | checkpoint => []

@[simp] theorem nodes_abort (k : EventKind) : k.abort.nodes = k.nodes := by
  cases k <;> rfl

end EventKind

def Named (scenario : Scenario) (es : List Event) : Prop :=
  ∀ e ∈ es, ∀ n ∈ e.kind.nodes, n.index < scenario.nodes

/-- A trace that a network of the scenario can be run on. -/
structure Trace.Fits (scenario : Scenario) (trace : Trace) : Prop where
  named : Named scenario trace.events
  times : ∀ e ∈ trace.events, ¬ e.time < Time.earliest
  births : (births trace.events).Nodup

/-! ### The numbers involved -/

theorem Node.unsigned_utilityFor (destination : NodeId) (node : Node) :
    Unsigned (node.utilityFor destination) := by
  unfold utilityFor
  split
  · exact unsigned_one
  · exact unsigned_div (unsigned_ofNat _) (unsigned_add (unsigned_ofNat _) unsigned_one)

/-- What a scenario without a flaw is like. -/
theorem Scenario.of_flaw?_eq_none {scenario : Scenario} (h : scenario.flaw? = none) :
    Unsigned scenario.protocol.transmissionTime.seconds ∧
      (scenario.policies.scheduling = .hnuv → scenario.protocol.forwarding = .greedy) := by
  unfold flaw? at h
  split at h
  · cases h
  · split at h
    · cases h
    · rename_i htime
      split at h
      · cases h
      · rename_i hpolicy
        rw [Bool.or_eq_true, not_or] at htime
        refine ⟨unsigned_of_not_lt (fun hlt => htime.1 ?_) htime.2, fun hnuv => ?_⟩
        · exact decide_eq_true hlt
        · cases hf : scenario.protocol.forwarding with
          | epidemic => exact absurd ⟨hnuv, hf⟩ hpolicy
          | greedy => rfl

namespace Simulator

variable {now : Time} {s s' : Simulator} {scenario : Scenario} {trace : Trace}

theorem not_sentAt_lt (h : Unsigned s.protocol.transmissionTime.seconds) (now : Time) (k : Nat) :
    ¬ s.sentAt now k < now :=
  Time.not_after_lt now (TimeSpan.seconds_scale .. ▸ unsigned_mul (unsigned_ofNat k) h)

theorem exists_rank {tx rx : Node} {i : PacketInfo} (hi : i ∈ s.worthOffering now tx rx)
    (hp : tx.scheduling = .hnuv → s.protocol.forwarding = .greedy) :
    ∃ r, tx.scheduling.rank (List.lookup · tx.buffer.positions)
      ⟨i.packet, some ⟨i.senderUtility, i.receiverUtility⟩⟩ = .ok r := by
  obtain ⟨p, hlive, rfl, _, hgain⟩ := mem_worthOffering hi
  obtain ⟨slot, hslot⟩ := Buffer.exists_place (Buffer.mem_liveIds.mpr ⟨p, hlive, rfl⟩)
  exact SchedulingPolicy.exists_rank hslot fun hnuv => not_add_beq_zero
    (rx.unsigned_utilityFor p.destination) (tx.unsigned_utilityFor p.destination) (hgain (hp hnuv))

theorem offer_ok (hv : scenario.flaw? = none) (hs : Sane scenario s) (hnow : s.queue.now = now)
    {sender receiver : NodeId} (hsender : s.node? sender ≠ none)
    (hreceiver : s.node? receiver ≠ none) : ((offer now sender receiver).run s).1 = .ok () := by
  obtain ⟨htime, hpolicy⟩ := Scenario.of_flaw?_eq_none hv
  obtain ⟨tx₀, htx⟩ := Option.ne_none_iff_exists'.mp hsender
  obtain ⟨rx₀, hrx⟩ := Option.ne_none_iff_exists'.mp hreceiver
  obtain ⟨s₁, tx, rx, hready, hcases⟩ := offer_cases now htx hrx
  have hs₁ := hs.of_quiet hready.quiet
  rcases hcases with ⟨_, hrun⟩ | ⟨hne, choice, hchoice, ⟨f, rfl, _⟩ | ⟨_, lines, hrun⟩ |
    ⟨count, ids, lines, rfl, hrun⟩⟩
  · rw [hrun]
  · have hgreedy : tx.scheduling = .hnuv → s₁.protocol.forwarding = .greedy := by
      rw [(hs₁.nodes _ _ hready.sender).scheduling, hs₁.protocol]
      exact hpolicy
    obtain ⟨choice, hok⟩ : ∃ choice, choose now tx rx s₁.protocol.historyWindow
        (s₁.worthOffering now tx rx) = .ok choice :=
      exists_choose (nodup_worthOffering s₁ now tx rx) fun i hi => exists_rank hi hgreedy
    rw [hchoice] at hok
    cases hok
  · rw [hrun]
  · rw [hrun]
    obtain ⟨_, _, _, _, ⟨hok, _⟩ | ⟨_, j, hj⟩⟩ := queueAll_outcome
      (s := { s₁ with journal := lines }) hs₁.sound now sender receiver 1 ids
    · exact hok
    · change s₁.sentAt now j < s₁.queue.now at hj
      rw [hready.quiet.queue, hnow] at hj
      refine absurd hj (not_sentAt_lt ?_ now j)
      rw [hs₁.protocol]
      exact htime

theorem contactUp_ok (hv : scenario.flaw? = none) (hs : Sane scenario s)
    (hnow : s.queue.now = now) {a b : NodeId} (ha : s.node? a ≠ none) (hb : s.node? b ≠ none) :
    ((contactUp now a b).run s).1 = .ok () := by
  rcases contactUp_cases now a b s with ⟨hnone, _⟩ | ⟨_, hrun⟩ |
    ⟨_, s₁, na, nb, _, _, hquiet, hrun⟩
  · exact (hnone.elim ha hb).elim
  · rw [hrun]
  · have hs₁ := (hs.relinked _ _).of_quiet hquiet
    have hnow₁ : s₁.queue.now = now := by rw [hquiet.queue]; exact hnow
    have ha₁ := hs₁.node?_ne_none.mpr (hs.node?_ne_none.mp ha)
    have hb₁ := hs₁.node?_ne_none.mpr (hs.node?_ne_none.mp hb)
    have hfirst := offer_ok hv hs₁ hnow₁ ha₁ hb₁
    obtain ⟨na₁, hna₁⟩ := Option.ne_none_iff_exists'.mp ha₁
    obtain ⟨nb₁, hnb₁⟩ := Option.ne_none_iff_exists'.mp hb₁
    obtain ⟨s₂, ids, hq, _, hship⟩ := offer_outcome hs₁.sound now hna₁ hnb₁
    cases hres : (offer now a b).run s₁ with
    | mk res s₃ =>
      rw [hres] at hfirst hship
      obtain rfl : res = .ok () := hfirst
      have hs₃ := (hs₁.of_quiet hq).of_shipped hship
      rw [hrun, run_bind_ok hres]
      refine offer_ok hv hs₃ ?_ (hs₃.node?_ne_none.mpr (hs.node?_ne_none.mp hb))
        (hs₃.node?_ne_none.mpr (hs.node?_ne_none.mp ha))
      rw [hship.clock, hq.queue]
      exact hnow₁

theorem contactDown_ok (a b : NodeId) (s : Simulator) : ((contactDown a b).run s).1 = .ok () := by
  rcases contactDown_cases a b s with ⟨_, hrun⟩ | ⟨_, hrun⟩ | ⟨_, _, hrun⟩ <;> rw [hrun]

/-- An event about existing nodes does not fail where packets are born once. -/
theorem handle_ok (hv : scenario.flaw? = none) (hs : Sane scenario s) {e : Event}
    (hnow : s.queue.now = e.time) (hu : Unborn (e :: s.queue.toList) s)
    (hn : ∀ n ∈ e.kind.nodes, n.index < scenario.nodes) : ((handle e).run s).1 = .ok () := by
  obtain ⟨now, kind⟩ := e
  have hexists : ∀ n ∈ kind.nodes, s.node? n ≠ none :=
    fun n hmem => hs.node?_ne_none.mpr (hn n hmem)
  cases kind with
  | contactUp a b =>
    exact contactUp_ok hv hs hnow (hexists a (by simp [EventKind.nodes]))
      (hexists b (by simp [EventKind.nodes]))
  | contactDown a b => exact contactDown_ok a b s
  | transmission sender receiver packet valid =>
    obtain ⟨rx, hrx⟩ := Option.ne_none_iff_exists'.mp (hexists receiver (by simp [EventKind.nodes]))
    rcases transmission_outcome hs.uncoded hrx now sender packet valid with
      ⟨_, _, hok⟩ | ⟨_, _, hok, _⟩
    · exact hok (hexists sender (by simp [EventKind.nodes]))
    · exact hok
  | generation source destination packet valid =>
    obtain ⟨src, hsrc⟩ := Option.ne_none_iff_exists'.mp (hexists source (by simp [EventKind.nodes]))
    rcases generation_outcome now source destination packet valid s with ⟨_, hok⟩ | ⟨_, hok, _⟩
    · refine hok (hexists destination (by simp [EventKind.nodes])) ?_
      rintro rfl
      refine ⟨src, hsrc, fun hlive => hu.live source src packet hsrc hlive ?_⟩
      rw [births_cons_of_some (e := ⟨now, .generation source destination packet true⟩) rfl]
      exact List.mem_cons_self
    · exact hok
  | checkpoint => rfl

/-! ### Whole runs -/

theorem named_of_shipped {sender receiver : NodeId} {ids : List PacketId} (hs : Sane scenario s)
    (hn : Named scenario s.queue.toList) (ho : Offered sender receiver ids s)
    (h : Shipped sender receiver ids s s') : Named scenario s'.queue.toList := by
  obtain ⟨events, hkinds, hperm⟩ := h.queue
  intro e he n hmem
  rcases List.mem_append.mp (hperm.mem_iff.mp he) with he | he
  · obtain ⟨id, hid, hkind⟩ := exists_of_kinds hkinds he
    obtain ⟨tx, rx, htx, hrx, _⟩ := ho.source id hid
    rw [hkind] at hmem
    rw [← hs.node?_ne_none]
    rcases List.mem_cons.mp hmem with rfl | hmem
    · rw [htx]
      nofun
    · obtain rfl : n = receiver := List.mem_singleton.mp hmem
      rw [hrx]
      nofun
  · exact hn e he n hmem

theorem Handled.named {e : Event} (hs : Sane scenario s)
    (hn : Named scenario (e :: s.queue.toList)) (hh : Handled e.time e.kind s s') :
    Named scenario s'.queue.toList := by
  have hrest : Named scenario s.queue.toList := fun e' he' => hn e' (List.mem_cons_of_mem _ he')
  obtain ⟨now, kind⟩ := e
  cases hh with
  | quiet _ hq => rw [hq.queue]; exact hrest
  | overlap => exact hrest
  | opened links contacts h₁ ho h₂ h₃ ho' h₄ =>
    have hs₁ := (hs.relinked links contacts).of_quiet h₁
    have hs₃ := (hs₁.of_shipped h₂).of_quiet h₃
    have hn₂ := named_of_shipped hs₁ (by rw [h₁.queue]; exact hrest) ho h₂
    exact named_of_shipped hs₃ (by rw [h₃.queue]; exact hn₂) ho' h₄
  | @closed a b _ links aborted =>
    change Named scenario (s.queue.invalidateLink a b).2.toList
    rw [(s.queue.toList_invalidateLink a b).2.1]
    intro e' he' n hmem
    obtain ⟨e, he, rfl⟩ := List.mem_map.mp he'
    refine hrest e he n ?_
    unfold Event.Queue.breakLink at hmem
    split at hmem
    · rwa [EventKind.nodes_abort] at hmem
    · exact hmem
  | stray => exact hrest
  | idle _ hq => rw [hq.queue]; exact hrest
  | moved hm => rw [hm.steady.queue]; exact hrest
  | born hst => rw [hst.queue]; exact hrest

theorem Reachable.named (h : Reachable scenario trace s) (hn : Named scenario trace.events) :
    Named scenario s.queue.toList := by
  induction h with
  | start h => exact fun e he => hn e ((fresh_of_ofTrace h).pending.mem_iff.mp he)
  | @event s e q h hd ih =>
    refine (h.handled hd).named (h.sane.taken hd) ?_
    rw [(due?_eq_some hd).1] at ih
    exact ih
  | @finish s _ _ ih => rw [(quiet_sweepAll s.stop s).queue]; exact ih

/-- No reachable event fails on a trace that fits a scenario without a flaw. -/
theorem Reachable.process_ok (hv : scenario.flaw? = none) (hf : trace.Fits scenario)
    (h : Reachable scenario trace s) {e : Event} {q : Event.Queue} (hd : s.due? = some (e, q)) :
    ((process e q).run s).1 = .ok () := by
  have hnamed := h.named hf.named
  rw [(due?_eq_some hd).1] at hnamed
  exact handle_ok hv (h.sane.taken hd) (due?_eq_some hd).2.1 ((h.unborn hf.births).taken hd)
    (hnamed e List.mem_cons_self)

/--
A scenario without a flaw and a trace that fits it make a network, and nothing that is reachable
from there fails: no event, and no run, however often the network is run.
-/
theorem run_never_fails (hv : scenario.flaw? = none) (hf : trace.Fits scenario) :
    (∃ s, ofTrace scenario trace = .ok s) ∧ ∀ s, Reachable scenario trace s →
      (∀ e q, s.due? = some (e, q) → ((process e q).run s).1 = .ok ()) ∧
        ∃ r, (run.run s).1 = .ok r := by
  refine ⟨exists_ofTrace hf.times, fun s h => ⟨fun e q hd => h.process_ok hv hf hd, ?_⟩⟩
  cases hr : (run.run s).1 with
  | ok r => exact ⟨r, rfl⟩
  | error f =>
    obtain ⟨s', e, q, h', hd, hfail⟩ := (Reaches.run h).fault f hr
    rw [h'.process_ok hv hf hd] at hfail
    cases hfail

/-- Two nodes that meet again and again never fail. -/
theorem pair_never_fails : Scenario.pair.flaw? = none ∧ Trace.reopened.Fits Scenario.pair ∧
    (∃ s, ofTrace Scenario.pair Trace.reopened = .ok s) ∧
      ∀ s, Reachable Scenario.pair Trace.reopened s →
        (∀ e q, s.due? = some (e, q) → ((process e q).run s).1 = .ok ()) ∧
          ∃ r, (run.run s).1 = .ok r := by
  have hv : Scenario.pair.flaw? = none := by decide +kernel
  have hf : Trace.reopened.Fits Scenario.pair :=
    ⟨by unfold Named; decide, by decide +kernel, by decide⟩
  exact ⟨hv, hf, run_never_fails hv hf⟩

end Simulator

end OppNet
