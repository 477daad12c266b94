import OppNet.Proofs.Simulator.Fate

/-!
# OppNet.Proofs.Simulator.Link

Nothing crosses a closed link.

* `Link.between_eq_iff`: a link has two ends, and no order between them.
* `Linked s`: no count is zero, and the link of every valid transfer is open. `Handled.linked`:
  every event keeps this, since a link closes only when its last contact ends, and all that is
  pending on it is aborted then.
* `nothing_crosses_closed_links`: on a trace without transfers of its own.
-/

namespace OppNet

instance : Std.TransOrd Link :=
  inferInstanceAs (Std.TransCmp (compareLex (compareOn Link.low) (compareOn Link.high)))

instance : Std.LawfulEqOrd Link where
  compare_self := (inferInstance : Std.ReflCmp
    (compareLex (compareOn Link.low) (compareOn Link.high))).compare_self
  eq_of_compare {x y} h := by
    obtain ⟨hlow, hhigh⟩ := Ordering.then_eq_eq.mp h
    cases x
    cases y
    rw [Link.mk.injEq]
    exact ⟨Std.LawfulEqCmp.eq_of_compare hlow, Std.LawfulEqCmp.eq_of_compare hhigh⟩

namespace Link

variable {a b c d : NodeId}

theorem between_comm (a b : NodeId) : between a b = between b a := by
  unfold between
  by_cases hab : a.index ≤ b.index
  · by_cases hba : b.index ≤ a.index
    · have heq : a = b := by
        cases a
        cases b
        exact congrArg NodeId.mk (Nat.le_antisymm hab hba)
      rw [heq]
    · rw [if_pos hab, if_neg hba]
  · rw [if_neg hab, if_pos (Nat.le_of_not_le hab)]

theorem between_eq_iff :
    between a b = between c d ↔ (a = c ∧ b = d) ∨ (a = d ∧ b = c) := by
  constructor
  · intro h
    unfold between at h
    split at h <;> split at h <;> rw [Link.mk.injEq] at h
    · exact .inl h
    · exact .inr h
    · exact .inr h.symm
    · exact .inl h.symm
  · rintro (⟨rfl, rfl⟩ | ⟨rfl, rfl⟩)
    · rfl
    · exact between_comm a b

end Link

theorem EventKind.abort_ne_valid (k : EventKind) {sender receiver : NodeId} {packet : PacketId} :
    k.abort ≠ transmission sender receiver packet true := by
  cases k <;> nofun

theorem EventKind.isTransferBetween_iff {a b sender receiver : NodeId} {packet : PacketId}
    {valid : Bool} : (transmission sender receiver packet valid).isTransferBetween a b = true ↔
      Link.between sender receiver = Link.between a b := by
  simp [isTransferBetween, Link.between_eq_iff]

namespace Simulator

variable {now : Time} {k : EventKind} {s s' : Simulator} {scenario : Scenario} {trace : Trace}
  {a b sender receiver : NodeId}

theorem timesOpen_comm (a b : NodeId) (s : Simulator) : s.timesOpen a b = s.timesOpen b a := by
  rw [timesOpen, timesOpen, Link.between_comm]

/-- No count is zero, and the link of every valid transfer is open. -/
structure Linked (s : Simulator) : Prop where
  counts : ∀ (link : Link) (times : Nat), s.links[link]? = some times → times ≠ 0
  crossing : ∀ e ∈ s.queue.toList, ∀ sender receiver packet,
    e.kind = .transmission sender receiver packet true → s.timesOpen sender receiver ≠ 0

namespace Linked

/-- Only links and pending events matter, and there may be fewer of these. -/
theorem of_subset (h : Linked s) (hl : s'.links = s.links)
    (hq : s'.queue.toList ⊆ s.queue.toList) : Linked s' := by
  constructor
  · rw [hl]
    exact h.counts
  · intro e he sender receiver packet hk
    rw [timesOpen, hl]
    exact h.crossing e (hq he) sender receiver packet hk

theorem of_eq (h : Linked s) (hl : s'.links = s.links) (hq : s'.queue = s.queue) : Linked s' :=
  h.of_subset hl (by rw [hq]; exact fun _ he => he)

theorem taken (h : Linked s) {e : Event} {q : Event.Queue} (hd : s.due? = some (e, q)) :
    Linked (s.taken e q) := by
  refine h.of_subset rfl ?_
  rw [(due?_eq_some hd).1]
  exact List.subset_cons_self e q.toList

theorem relinked (h : Linked s) {times : Nat} (ht : times ≠ 0) (a b : NodeId) (contacts : Nat) :
    Linked (s.relinked (s.links.insert (Link.between a b) times) contacts) := by
  constructor
  · intro link n hn
    change (s.links.insert (Link.between a b) times)[link]? = some n at hn
    rw [Std.TreeMap.getElem?_insert] at hn
    split at hn
    · cases hn
      exact ht
    · exact h.counts link n hn
  · intro e he sender receiver packet hk
    change (s.links.insert (Link.between a b) times).getD (Link.between sender receiver) 0 ≠ 0
    rw [Std.TreeMap.getD_insert]
    split
    · exact ht
    · exact h.crossing e he sender receiver packet hk

theorem of_shipped {ids : List PacketId} (h : Linked s) (hopen : s.timesOpen sender receiver ≠ 0)
    (hs : Shipped sender receiver ids s s') : Linked s' := by
  obtain ⟨events, hkinds, hperm⟩ := hs.queue
  constructor
  · rw [hs.links]
    exact h.counts
  · intro e he n m packet hk
    rw [timesOpen, hs.links]
    rcases List.mem_append.mp (hperm.mem_iff.mp he) with he | he
    · obtain ⟨id, _, hid⟩ := exists_of_kinds hkinds he
      rw [hid] at hk
      cases hk
      exact hopen
    · exact h.crossing e he n m packet hk

theorem severed (h : Linked s) (a b : NodeId) (aborted : Nat) :
    Linked (s.severed a b (s.links.erase (Link.between a b)) aborted) := by
  constructor
  · intro link n hn
    change (s.links.erase (Link.between a b))[link]? = some n at hn
    rw [Std.TreeMap.getElem?_erase] at hn
    split at hn
    · cases hn
    · exact h.counts link n hn
  · intro e he sender receiver packet hk
    change e ∈ (s.queue.invalidateLink a b).2.toList at he
    rw [(s.queue.toList_invalidateLink a b).2.1] at he
    obtain ⟨e, hold, rfl⟩ := List.mem_map.mp he
    by_cases hlink : e.kind.isTransferBetween a b = true
    · rw [Event.Queue.breakLink, if_pos hlink] at hk
      exact absurd hk (EventKind.abort_ne_valid _)
    · -- What is still valid is on another link.
      rw [Event.Queue.breakLink, if_neg hlink] at hk
      rw [hk, EventKind.isTransferBetween_iff] at hlink
      change (s.links.erase (Link.between a b)).getD (Link.between sender receiver) 0 ≠ 0
      rw [Std.TreeMap.getD_erase, if_neg]
      · exact h.crossing e hold sender receiver packet hk
      · exact fun heq => hlink (Std.LawfulEqCmp.eq_of_compare heq).symm

end Linked

/-- Every event keeps what is valid on open links. -/
theorem Handled.linked (h : Linked s) (hh : Handled now k s s') : Linked s' := by
  cases hh with
  | quiet _ hq => exact h.of_eq hq.links hq.queue
  | overlap _ links hl =>
    obtain ⟨a, b, times, _, htimes, rfl, _⟩ := hl.course
    exact (h.relinked htimes a b 0).of_eq rfl rfl
  | @opened a b _ s₁ s₂ s₃ _ _ _ links contacts h₁ _ h₂ h₃ _ h₄ _ hl =>
    -- Both sides queue over the link that has just been opened.
    have h₀ : Linked (s.relinked links contacts) := by
      rw [hl]
      exact h.relinked Nat.one_ne_zero a b contacts
    have hopen : s₁.timesOpen a b ≠ 0 := by
      rw [timesOpen, h₁.links]
      change links.getD (Link.between a b) 0 ≠ 0
      rw [hl, Std.TreeMap.getD_insert_self]
      exact Nat.one_ne_zero
    have hopen' : s₃.timesOpen b a ≠ 0 := by
      rw [timesOpen_comm, timesOpen, h₃.links, h₂.links]
      exact hopen
    have hs₃ := ((h₀.of_eq h₁.links h₁.queue).of_shipped hopen h₂).of_eq h₃.links h₃.queue
    exact hs₃.of_shipped hopen' h₄
  | @closed a b _ links aborted _ hl _ =>
    rw [hl]
    exact h.severed a b aborted
  | stray => exact h
  | idle _ hq => exact h.of_eq hq.links hq.queue
  | moved hm => exact h.of_eq hm.steady.links hm.steady.queue
  | born hst => exact h.of_eq hst.links hst.queue

theorem Fresh.linked (h : Fresh scenario trace s) (hx : shipments trace.events = []) :
    Linked s := by
  constructor
  · intro link times ht
    simp [h.links] at ht
  · intro e he sender receiver packet hk
    have hmem : (⟨receiver, packet⟩ : Shipment) ∈ shipments trace.events :=
      List.mem_filterMap.mpr ⟨e, h.pending.mem_iff.mp he, by rw [hk]; rfl⟩
    simp [hx] at hmem

theorem Reachable.linked (h : Reachable scenario trace s) (hx : shipments trace.events = []) :
    Linked s := by
  induction h with
  | start h => exact (fresh_of_ofTrace h).linked hx
  | event h hd ih => exact (h.handled hd).linked (ih.taken hd)
  | @finish s _ _ ih =>
    have hq := quiet_sweepAll s.stop s
    exact ih.of_eq hq.links hq.queue

/-! ### What follows for the end of a contact and for what is sent -/

/-- The end of a contact takes one from the count of an open link, and nothing from a closed one. -/
theorem Linked.contactDown_run (h : Linked s) (a b : NodeId) :
    (s.links[Link.between a b]? = none ∧ (contactDown a b).run s = (.ok (), s)) ∨
    ∃ times, s.links[Link.between a b]? = some (times + 1) ∧
      ((contactDown a b).run s).1 = .ok () ∧
      ((contactDown a b).run s).2.timesOpen a b = times := by
  have hcount : s.timesOpen a b = (s.links[Link.between a b]?).getD 0 :=
    Std.TreeMap.getD_eq_getD_getElem?
  cases hl : s.links[Link.between a b]? with
  | none =>
    rw [hl, Option.getD_none] at hcount
    rcases contactDown_cases a b s with ⟨_, hrun⟩ | ⟨hopen, _⟩ | ⟨more, hopen, _⟩
    · exact .inl ⟨rfl, hrun⟩
    · omega
    · omega
  | some n =>
    rw [hl, Option.getD_some] at hcount
    obtain ⟨times, rfl⟩ := Nat.exists_eq_succ_of_ne_zero (h.counts _ n hl)
    refine .inr ⟨times, rfl, ?_⟩
    rcases contactDown_cases a b s with ⟨hclosed, _⟩ | ⟨hopen, hrun⟩ | ⟨more, hopen, hrun⟩
    · omega
    · rw [hrun]
      refine ⟨rfl, ?_⟩
      change (s.links.erase (Link.between a b)).getD (Link.between a b) 0 = times
      rw [Std.TreeMap.getD_erase_self]
      omega
    · rw [hrun]
      refine ⟨rfl, ?_⟩
      change (s.links.insert (Link.between a b) (more + 1)).getD (Link.between a b) 0 = times
      rw [Std.TreeMap.getD_insert_self]
      omega

theorem exists_of_sends (h : s.sends now k = true) :
    ∃ sender receiver packet, k = .transmission sender receiver packet true := by
  cases k with
  | transmission sender receiver packet valid =>
    cases valid with
    | true => exact ⟨sender, receiver, packet, rfl⟩
    | false => cases h
  | _ => cases h

/--
On a trace without transfers of its own, nothing crosses a closed link, whatever the order and the
number of contacts. Every valid transfer is on an open link, no count is zero, so that the end of a
contact never takes one from nothing, and every packet that is counted as transmitted was sent while
its link was open.
-/
theorem nothing_crosses_closed_links (hx : shipments trace.events = [])
    (h : Reachable scenario trace s) :
    (∀ e ∈ s.queue.toList, ∀ sender receiver packet,
      e.kind = .transmission sender receiver packet true → 1 ≤ s.timesOpen sender receiver) ∧
    (∀ a b, s.timesOpen a b = s.timesOpen b a) ∧
    (∀ (link : Link) (times : Nat), s.links[link]? = some times → 1 ≤ times) ∧
    (∀ a b, (s.links[Link.between a b]? = none ∧ (contactDown a b).run s = (.ok (), s)) ∨
      ∃ times, s.links[Link.between a b]? = some (times + 1) ∧
        ((contactDown a b).run s).1 = .ok () ∧
        ((contactDown a b).run s).2.timesOpen a b = times) ∧
    (∃ queued past, Chronicle scenario trace queued past s) ∧
    ∀ queued past, Chronicle scenario trace queued past s →
      s.report.transmitted = past.countP (·.sent) ∧
      ∀ o ∈ past, o.sent = true → ∃ sender receiver packet,
        o.event.kind = .transmission sender receiver packet true ∧
        1 ≤ o.before.timesOpen sender receiver := by
  have hlinked := h.linked hx
  refine ⟨fun e he sender receiver packet hk => ?_, fun a b => timesOpen_comm a b s,
    fun link times ht => ?_, fun a b => hlinked.contactDown_run a b, h.exists_chronicle,
    fun queued past hpast => ⟨?_, fun o ho hsent => ?_⟩⟩
  · exact Nat.one_le_iff_ne_zero.mpr (hlinked.crossing e he sender receiver packet hk)
  · exact Nat.one_le_iff_ne_zero.mpr (hlinked.counts link times ht)
  · rw [toTraffic_report]
    exact hpast.transmitted_eq
  · obtain ⟨sender, receiver, packet, hk⟩ := exists_of_sends hsent
    obtain ⟨hreach, _, q, hd⟩ := hpast.due o ho
    have hmem : o.event ∈ o.before.queue.toList := by
      rw [(due?_eq_some hd).1]
      exact List.mem_cons_self
    have hopen := (hreach.linked hx).crossing o.event hmem sender receiver packet hk
    exact ⟨sender, receiver, packet, hk, Nat.one_le_iff_ne_zero.mpr hopen⟩

end Simulator

/-- Two packets, and contacts that begin and end from either side, one of them without a start. -/
def Trace.tangled : Trace where
  events :=
    [⟨⟨1.0⟩, .generation ⟨0⟩ ⟨1⟩ ⟨0⟩ true⟩, ⟨⟨1.5⟩, .generation ⟨0⟩ ⟨1⟩ ⟨1⟩ true⟩,
      ⟨⟨2.0⟩, .contactDown ⟨1⟩ ⟨0⟩⟩, ⟨⟨3.0⟩, .contactUp ⟨0⟩ ⟨1⟩⟩, ⟨⟨4.0⟩, .contactUp ⟨1⟩ ⟨0⟩⟩,
      ⟨⟨5.0⟩, .contactDown ⟨0⟩ ⟨1⟩⟩, ⟨⟨20.0⟩, .contactDown ⟨0⟩ ⟨1⟩⟩]
  contacts := 2
  packets := 2

namespace Simulator

/-- One packet was sent, and another is on its way, over a link that one contact has left open. -/
theorem tangled_links : shipments Trace.tangled.events = [] ∧
    ∃ queued past s, Chronicle Scenario.pair Trace.tangled queued past s ∧
      underway s.queue.toList = [⟨⟨1⟩, ⟨1⟩⟩] ∧ s.links[Link.between ⟨1⟩ ⟨0⟩]? = some 1 ∧
      (∀ e ∈ s.queue.toList, ∀ sender receiver packet,
        e.kind = .transmission sender receiver packet true → 1 ≤ s.timesOpen sender receiver) ∧
      ((contactDown ⟨1⟩ ⟨0⟩).run s).2.timesOpen ⟨1⟩ ⟨0⟩ = 0 ∧
      s.report.transmitted = 1 ∧
      ∃ o ∈ past, ∃ sender receiver packet,
        o.event.kind = .transmission sender receiver packet true ∧
        1 ≤ o.before.timesOpen sender receiver := by
  obtain ⟨queued, past, s, h, hp⟩ := exists_chronicle Scenario.pair Trace.tangled 7
    (fun _ past s => decide (underway s.queue.toList = [⟨⟨1⟩, ⟨1⟩⟩] ∧
      s.links[Link.between ⟨1⟩ ⟨0⟩]? = some 1 ∧ past.countP (·.sent) = 1)) (by decide +kernel)
  obtain ⟨hunderway, hlink, hcount⟩ := of_decide_eq_true hp
  obtain ⟨hcrossing, _, _, hdown, _, hsent⟩ := nothing_crosses_closed_links rfl h.reachable
  obtain ⟨htransmitted, hopen⟩ := hsent queued past h
  have hpos : 0 < past.countP (·.sent) := by
    rw [hcount]
    exact Nat.one_pos
  obtain ⟨o, ho, hso⟩ := List.countP_pos_iff.mp hpos
  refine ⟨rfl, queued, past, s, h, hunderway, hlink, hcrossing, ?_, htransmitted.trans hcount, o,
    ho, hopen o ho hso⟩
  rcases hdown ⟨1⟩ ⟨0⟩ with ⟨hnone, _⟩ | ⟨times, hsome, _, htimes⟩
  · rw [hlink] at hnone
    cases hnone
  · rw [hlink] at hsome
    cases hsome
    exact htimes

end Simulator

end OppNet
