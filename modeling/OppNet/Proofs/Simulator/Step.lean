import OppNet.Proofs.Simulator.Pending
import OppNet.Proofs.Simulator.Transfer
import OppNet.Simulator.Run

/-!
# OppNet.Proofs.Simulator.Step

What one event does.

* `Handled now k s s'`: everything that handling an event of kind `k` can come to
  (`handled_handle`). Invariants are proved by cases on it.
* `Sane scenario s`: what holds of a network whatever its trace, and what every event keeps
  (`Sane.handled`).
* `Handled.ups_eq`, `Handled.length_eq`: no event brings about a contact, and only a contact brings
  about anything.
* `Handled.queue_cases`: all that an event can do to the queue.
-/

namespace OppNet.Simulator

variable {now : Time} {s s' : Simulator}

/-! ### One event -/

/-- The count of an open link goes up by one, or down by one and stays above zero. -/
structure Recounted (k : EventKind) (links : Std.TreeMap Link Nat) (s : Simulator) : Prop where
  course : ∃ a b times, s.timesOpen a b ≠ 0 ∧ times ≠ 0 ∧
    links = s.links.insert (Link.between a b) times ∧
    ((k = .contactUp a b ∧ times = s.timesOpen a b + 1) ∨
      (k = .contactDown a b ∧ times + 1 = s.timesOpen a b))

/-- What handling an event can come to. -/
inductive Handled (now : Time) : EventKind → Simulator → Simulator → Prop where
  /-- Nothing but sweeps. -/
  | quiet {k : EventKind} {s s' : Simulator} (hk : k.shipment? = none)
      (h : Quiet now s s') : Handled now k s s'
  /-- An overlapping contact begins or ends. -/
  | overlap {k : EventKind} {s : Simulator} (hk : k.shipment? = none)
      (links : Std.TreeMap Link Nat) (hl : Recounted k links s) :
      Handled now k s { s with links := links }
  /-- A link opens, and each side offers what it has. -/
  | opened {a b : NodeId} {s s₁ s₂ s₃ s₄ : Simulator} {ids ids' : List PacketId}
      (links : Std.TreeMap Link Nat) (contacts : Nat)
      (h₁ : Quiet now (s.relinked links contacts) s₁)
      (ho : Offered a b ids s₁) (h₂ : Shipped a b ids s₁ s₂) (h₃ : Quiet now s₂ s₃)
      (ho' : Offered b a ids' s₃) (h₄ : Shipped b a ids' s₃ s₄) (hclosed : s.timesOpen a b = 0)
      (hl : links = s.links.insert (Link.between a b) 1) : Handled now (.contactUp a b) s s₄
  /-- A link closes, and what is pending between its ends is aborted. -/
  | closed {a b : NodeId} {s : Simulator} (links : Std.TreeMap Link Nat) (aborted : Nat)
      (hopen : s.timesOpen a b = 1) (hl : links = s.links.erase (Link.between a b))
      (ha : aborted = s.traffic.aborted + s.queue.toList.countP (Event.Queue.breaksWith a b)) :
      Handled now (.contactDown a b) s (s.severed a b links aborted)
  /-- A transfer to nobody. -/
  | stray {sender receiver : NodeId} {packet : PacketId} {valid : Bool} {s : Simulator}
      (h : s.node? receiver = none) :
      Handled now (.transmission sender receiver packet valid) s s
  /-- A transfer that was aborted, or whose packet is gone. -/
  | idle {sender receiver : NodeId} {packet : PacketId} {valid : Bool} {s s' : Simulator}
      (hrx : s.node? receiver ≠ none) (h : Quiet now (s.unmarked receiver packet) s')
      (hgone : valid = true → ∀ tx, s.node? sender = some tx →
        (tx.buffer.sweep now).holds packet = false) :
      Handled now (.transmission sender receiver packet valid) s s'
  /-- A packet is handed over. -/
  | moved {sender receiver : NodeId} {packet : PacketId} {s s' : Simulator}
      (h : Moved sender receiver packet (s.unmarked receiver packet) s')
      (hhad : ∃ tx, s.node? sender = some tx ∧ (tx.buffer.sweep now).holds packet = true) :
      Handled now (.transmission sender receiver packet true) s s'
  /-- A packet is born. -/
  | born {source destination : NodeId} {packet : PacketId} {s s' : Simulator}
      (h : Steady s s') (ha : Advanced (fun n x => n = source ∧ x = packet) s s')
      (ht : Tally s s' 1 0 0 1 0) :
      Handled now (.generation source destination packet true) s s'

theorem handled_contactUp (hs : s.queue.Sound) (now : Time) (a b : NodeId) :
    Handled now (.contactUp a b) s ((contactUp now a b).run s).2 := by
  rcases contactUp_cases now a b s with ⟨_, n, hrun⟩ | ⟨hopen, hrun⟩ |
    ⟨hclosed, _, na, nb, ha, hb, _⟩
  · rw [hrun]
    exact .quiet rfl (.refl now s)
  · rw [hrun]
    exact .overlap rfl _ ⟨a, b, _, hopen, Nat.succ_ne_zero _, rfl, .inl ⟨rfl, rfl⟩⟩
  · obtain ⟨_, _, _, _, _, _, h⟩ := contactUp_meeting hs now ha hb hclosed
    exact .opened _ _ (h.relinked.trans h.there.quiet) h.there.offered h.there.shipped
      h.back.quiet h.back.offered h.back.shipped hclosed rfl

theorem handled_contactDown (now : Time) (a b : NodeId) (s : Simulator) :
    Handled now (.contactDown a b) s ((contactDown a b).run s).2 := by
  rcases contactDown_cases a b s with ⟨_, hrun⟩ | ⟨hopen, hrun⟩ | ⟨more, hopen, hrun⟩
  · rw [hrun]
    exact .quiet rfl (.refl now s)
  · rw [hrun]
    exact .closed _ _ hopen rfl rfl
  · rw [hrun]
    exact .overlap rfl _ ⟨a, b, _, by omega, Nat.succ_ne_zero more, rfl, .inr ⟨rfl, hopen.symm⟩⟩

/-- Handling an event comes to one of the listed things, whether it fails or not. -/
theorem handled_handle (hs : s.queue.Sound)
    (hu : ∀ n node, s.node? n = some node → node.buffer.Uncoded) (e : Event) :
    Handled e.time e.kind s ((handle e).run s).2 := by
  obtain ⟨now, kind⟩ := e
  cases kind with
  | contactUp a b => exact handled_contactUp hs now a b
  | contactDown a b => exact handled_contactDown now a b s
  | transmission sender receiver packet valid =>
    change Handled now _ s ((transmission now sender receiver packet valid).run s).2
    cases hrx : s.node? receiver with
    | none =>
      rw [transmission_run_none hrx]
      exact .stray hrx
    | some rx =>
      rcases transmission_outcome hu hrx now sender packet valid with
        ⟨hq, hgone, _⟩ | ⟨rfl, hhad, _, hmoved⟩
      · exact .idle (by rw [hrx]; nofun) hq hgone
      · exact .moved hmoved hhad
  | generation source destination packet valid =>
    change Handled now _ s ((generation now source destination packet valid).run s).2
    rcases generation_outcome now source destination packet valid s with
      ⟨hq, _⟩ | ⟨rfl, _, hsteady, hadv, htally⟩
    · exact .quiet rfl hq
    · exact .born hsteady hadv htally
  | checkpoint => exact .quiet rfl (quiet_sweepAll now s)

/-! ### What always holds -/

/-- A node set up by the scenario, with a buffer of uncoded packets and of balanced counters. -/
structure Furnished (scenario : Scenario) (n : NodeId) (node : Node) : Prop where
  id : node.id = n
  scheduling : node.scheduling = scenario.policies.scheduling
  admission : node.admission = scenario.policies.admission
  uncoded : node.buffer.Uncoded
  balanced : node.buffer.Balanced

/-- What holds of every network of a scenario, whatever its trace. -/
structure Sane (scenario : Scenario) (s : Simulator) : Prop where
  protocol : s.protocol = scenario.protocol
  stop : s.stop = scenario.stop
  size : s.nodes.size = scenario.nodes
  sound : s.queue.Sound
  nodes : ∀ n node, s.node? n = some node → Furnished scenario n node

variable {scenario : Scenario}

namespace Sane

theorem uncoded (h : Sane scenario s) (n : NodeId) (node : Node) (hn : s.node? n = some node) :
    node.buffer.Uncoded :=
  (h.nodes n node hn).uncoded

theorem node?_ne_none (h : Sane scenario s) {n : NodeId} :
    s.node? n ≠ none ↔ n.index < scenario.nodes := by
  rw [node?, ne_eq, Array.getElem?_eq_none_iff, h.size, Nat.not_le]

theorem of_advanced {new : NodeId → PacketId → Prop} (h : Sane scenario s)
    (ha : Advanced new s s') (hp : s'.protocol = s.protocol) (hst : s'.stop = s.stop)
    (hq : s'.queue.Sound) : Sane scenario s' := by
  refine ⟨hp.trans h.protocol, hst.trans h.stop, ha.size.trans h.size, hq, fun n node' hn' => ?_⟩
  obtain ⟨node, hn, hadv⟩ := ha.back hn'
  have hf := h.nodes n node hn
  exact ⟨hadv.id.trans hf.id, hadv.scheduling.trans hf.scheduling,
    hadv.admission.trans hf.admission, hadv.uncoded hf.uncoded, hadv.balanced hf.balanced⟩

theorem of_quiet (h : Sane scenario s) (hq : Quiet now s s') : Sane scenario s' :=
  h.of_advanced (.of_quiet hq fun _ _ => False) hq.protocol hq.stop
    (by rw [hq.queue]; exact h.sound)

theorem of_shipped {sender receiver : NodeId} {ids : List PacketId} (h : Sane scenario s)
    (hs : Shipped sender receiver ids s s') : Sane scenario s' :=
  h.of_advanced (hs.advanced fun _ _ => False) hs.protocol hs.stop hs.sound

theorem of_same (h : Sane scenario s) (hp : s'.protocol = s.protocol) (hst : s'.stop = s.stop)
    (hn : s'.nodes = s.nodes) (hq : s'.queue.Sound) : Sane scenario s' :=
  h.of_advanced (.of_nodes_eq hn fun _ _ => False) hp hst hq

theorem unmarked (h : Sane scenario s) (receiver : NodeId) (packet : PacketId) :
    Sane scenario (s.unmarked receiver packet) :=
  h.of_same rfl rfl rfl h.sound

theorem relinked (h : Sane scenario s) (links : Std.TreeMap Link Nat) (contacts : Nat) :
    Sane scenario (s.relinked links contacts) :=
  h.of_same rfl rfl rfl h.sound

theorem handled {k : EventKind} (h : Sane scenario s) (hh : Handled now k s s') :
    Sane scenario s' := by
  cases hh with
  | quiet _ hq => exact h.of_quiet hq
  | overlap _ links => exact h.of_same rfl rfl rfl h.sound
  | opened links contacts h₁ _ h₂ h₃ _ h₄ =>
    exact ((((h.relinked links contacts).of_quiet h₁).of_shipped h₂).of_quiet h₃).of_shipped h₄
  | @closed a b _ links aborted =>
    exact h.of_same rfl rfl rfl ((s.queue.toList_invalidateLink a b).2.2.2 h.sound)
  | stray _ => exact h
  | idle _ hq => exact (h.unmarked _ _).of_quiet hq
  | moved hm =>
    refine (h.unmarked _ _).of_advanced hm.advanced hm.steady.protocol hm.steady.stop ?_
    rw [hm.steady.queue]
    exact h.sound
  | born hst ha _ =>
    refine h.of_advanced ha hst.protocol hst.stop ?_
    rw [hst.queue]
    exact h.sound

/-- What a node is not spared is of use to it, and not marked as on its way. -/
theorem isSpared_eq_false {n : NodeId} {rx : Node} {id : PacketId} (h : Sane scenario s)
    (hrx : s.node? n = some rx) : s.isSpared rx id = false ↔
      (⟨n, id⟩ : Shipment) ∉ s.inFlight ∧ id ∉ rx.buffer.liveIds ∧ rx.hasReceived id = false := by
  have hf := h.nodes n rx hrx
  rw [isSpared, Bool.or_eq_false_iff, Bool.or_eq_false_iff, hf.id, ← Std.TreeSet.contains_iff_mem,
    ← hf.uncoded.holds_iff, Bool.not_eq_true, Bool.not_eq_true, and_assoc]

end Sane

/-! ### What is pending afterwards -/

theorem Handled.ups_eq {k : EventKind} (h : Handled now k s s') :
    ups s'.queue.toList = ups s.queue.toList := by
  cases h with
  | quiet _ hq => rw [hq.queue]
  | overlap => rfl
  | opened _ _ h₁ _ h₂ h₃ _ h₄ => rw [h₄.ups_eq, h₃.queue, h₂.ups_eq, h₁.queue]; rfl
  | @closed a b =>
    change ups (s.queue.invalidateLink a b).2.toList = _
    rw [(s.queue.toList_invalidateLink a b).2.1, ups_breakLink]
  | stray => rfl
  | idle _ hq => rw [hq.queue]; rfl
  | moved hm => rw [hm.steady.queue]; rfl
  | born hst => rw [hst.queue]

/-- A valid transfer between existing nodes. -/
def Feasible (s : Simulator) (e : Event) : Prop :=
  ∃ sender receiver packet, e.kind = .transmission sender receiver packet true ∧
    s.node? sender ≠ none ∧ s.node? receiver ≠ none

theorem Feasible.mono {e : Event} (h : Feasible s' e)
    (hn : ∀ n, s.node? n = none → s'.node? n = none) : Feasible s e := by
  obtain ⟨sender, receiver, packet, hkind, htx, hrx⟩ := h
  exact ⟨sender, receiver, packet, hkind, fun hnone => htx (hn _ hnone),
    fun hnone => hrx (hn _ hnone)⟩

theorem Offered.feasible {a b : NodeId} {ids : List PacketId} {events : List Event}
    (ho : Offered a b ids s)
    (hk : events.map (·.kind) = ids.map (fun id => .transmission a b id true)) :
    ∀ e ∈ events, Feasible s e := by
  intro e he
  obtain ⟨id, hid, hkind⟩ := exists_of_kinds hk he
  obtain ⟨tx, rx, htx, hrx, _⟩ := ho.source id hid
  exact ⟨a, b, id, hkind, by simp [htx], by simp [hrx]⟩

/-- Feasible transfers join the queue, or those of a link are aborted. -/
theorem Handled.queue_cases {k : EventKind} (h : Handled now k s s') :
    (∃ events : List Event, Event.Queue.insertAll events s.queue = .ok s'.queue ∧
      ∀ e ∈ events, Feasible s e) ∨
    ∃ a b, k = .contactDown a b ∧ s'.queue = (s.queue.invalidateLink a b).2 := by
  have nothing : s'.queue = s.queue → ∃ events : List Event,
      Event.Queue.insertAll events s.queue = .ok s'.queue ∧ ∀ e ∈ events, Feasible s e := by
    intro heq
    refine ⟨[], by rw [heq]; rfl, fun e he => ?_⟩
    cases he
  cases h with
  | quiet _ hq => exact .inl (nothing hq.queue)
  | overlap => exact .inl (nothing rfl)
  | @opened a b _ s₁ s₂ s₃ _ _ _ links contacts h₁ ho h₂ h₃ ho' h₄ =>
    obtain ⟨events, hkinds, hins⟩ := h₂.inserted
    obtain ⟨events', hkinds', hins'⟩ := h₄.inserted
    rw [h₁.queue] at hins
    rw [h₃.queue] at hins'
    have hnodes₁ : ∀ n, s.node? n = none → s₁.node? n = none := by
      intro n hnone
      exact h₁.node?_eq_none.mpr hnone
    have hnodes₃ : ∀ n, s₁.node? n = none → s₃.node? n = none := by
      intro n hnone
      refine h₃.node?_eq_none.mpr ?_
      rw [node?, h₂.nodes]
      exact hnone
    refine .inl ⟨events ++ events', Event.Queue.insertAll_append hins hins', fun e he => ?_⟩
    rcases List.mem_append.mp he with he | he
    · exact (ho.feasible hkinds e he).mono hnodes₁
    · exact ((ho'.feasible hkinds' e he).mono hnodes₃).mono hnodes₁
  | @closed a b => exact .inr ⟨a, b, rfl, rfl⟩
  | stray => exact .inl (nothing rfl)
  | idle _ hq => exact .inl (nothing hq.queue)
  | moved hm => exact .inl (nothing hm.steady.queue)
  | born hst => exact .inl (nothing hst.queue)

theorem Handled.events_eq {k : EventKind} (h : Handled now k s s') :
    s'.traffic.events = s.traffic.events := by
  cases h with
  | quiet _ hq => rw [hq.traffic]
  | overlap => rfl
  | opened _ _ h₁ _ h₂ h₃ _ h₄ => rw [h₄.traffic, h₃.traffic, h₂.traffic, h₁.traffic]; rfl
  | closed => rfl
  | stray => rfl
  | idle _ hq => rw [hq.traffic]; rfl
  | moved hm => exact congrArg Prod.fst hm.steady.upkeep
  | born hst => exact congrArg Prod.fst hst.upkeep

/-- Only a contact brings about other events. -/
theorem Handled.length_eq {k : EventKind} (h : Handled now k s s') (hk : k.isContactUp = false) :
    s'.queue.toList.length = s.queue.toList.length := by
  cases h with
  | quiet _ hq => rw [hq.queue]
  | overlap => rfl
  | opened => cases hk
  | @closed a b =>
    change (s.queue.invalidateLink a b).2.toList.length = _
    rw [(s.queue.toList_invalidateLink a b).2.1, List.length_map]
  | stray => rfl
  | idle _ hq => rw [hq.queue]; rfl
  | moved hm => rw [hm.steady.queue]; rfl
  | born hst => rw [hst.queue]

end OppNet.Simulator
