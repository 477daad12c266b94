import OppNet.Proofs.Buffer.Remaining
import OppNet.Proofs.Simulator.Fate
import OppNet.Proofs.Simulator.Offers

/-!
# OppNet.Proofs.Simulator.Lifetime

Under a lifetime that is finite and not zero, nothing in a run outlives it.

* `Reachable.timely`: the buffers of a run tell and evict nothing that has.
* `Tells`: an admission policy is told of remaining lifetimes that are not negative.
  `Meeting.tells`: so it is in both directions of a contact.
* `Occurrence.Carries`: the packet that a transfer moves.
* `WithinLifetime`: the latencies of a run, none of which is longer than the lifetime.
* `lifetimes_nonnegative`: all of this throughout a run.
-/

namespace OppNet

namespace Simulator

variable {now : Time} {k : EventKind} {sender receiver a b n : NodeId} {node na nb : Node}
  {s s₀ s₁ : Simulator} {o : Except Fault Unit × Simulator} {scenario : Scenario} {trace : Trace}
  {queued : List (Event.Slot × Event)} {past : List Occurrence}

/-! ### Buffers -/

theorem Reachable.leftAtDrop (hl : scenario.buffer.lifetime.Limited)
    (h : Reachable scenario trace s) (hn : s.node? n = some node) :
    node.buffer.lifetime = scenario.buffer.lifetime ∧ node.buffer.LeftAtDrop := by
  refine h.nodes (P := fun _ node => node.buffer.lifetime = scenario.buffer.lifetime ∧
    node.buffer.LeftAtDrop) ?_ ?_ n node hn
  · exact fun _ => ⟨rfl, Buffer.leftAtDrop_new _ _ _ _⟩
  · intro k s _ n node node' hnode hc
    obtain ⟨hlifetime, hrecords⟩ := hnode
    change node'.buffer.lifetime = scenario.buffer.lifetime ∧ node'.buffer.LeftAtDrop
    rcases hc.perform with he | ⟨now, r, _, he⟩
    · rw [he]
      exact ⟨hlifetime, hrecords⟩
    · rw [he, Buffer.lifetime_perform]
      exact ⟨hlifetime, hrecords.perform (hlifetime ▸ hl) now r⟩

theorem Reachable.timely (hl : scenario.buffer.lifetime.Limited) (h : Reachable scenario trace s)
    (hn : s.node? n = some node) : node.buffer.Timely := by
  obtain ⟨hlifetime, hrecords⟩ := h.leftAtDrop hl hn
  exact hrecords.timely (hlifetime ▸ hl)

/-! ### Contacts -/

/-- What the admission policy is told in one direction of a contact is not negative. -/
def Tells (now : Time) (sender receiver : NodeId) (s : Simulator) : Prop :=
  ∀ tx rx, s.node? sender = some tx → s.node? receiver = some rx →
    ∀ i ∈ (admitterOf now tx rx s.protocol.historyWindow (s.worthOffering now tx rx)).infos,
      TimeSpan.Left i.remaining

/-- The sender has been swept, so it offers nothing that has expired. -/
theorem tells_of_cleared (hl : node.buffer.lifetime.Limited) {encounters : Std.TreeMap NodeId Nat}
    (htx : s.node? sender = some { cleared now node with encounters := encounters }) :
    Tells now sender receiver s := by
  intro tx rx htx' _ i hi
  cases htx.symm.trans htx'
  obtain ⟨p, hp, rfl, -, -⟩ := mem_worthOffering (List.mem_reverse.mp hi)
  have hlive : p ∈ (node.buffer.sweep now).livePackets := hp
  change TimeSpan.Left (p.remaining? now (node.buffer.sweep now).lifetime)
  rw [Buffer.lifetime_sweep]
  exact Packet.left_remaining? hl (Buffer.unexpired_of_mem_sweep hlive)

theorem Meeting.tells {ids ids' : List PacketId} {s₃ : Simulator}
    {out : Except Fault Unit × Simulator} (h : Meeting now a b ids ids' s s₀ s₁ s₃ o out)
    (ha : s.node? a = some na) (hb : s.node? b = some nb) (hla : na.buffer.lifetime.Limited)
    (hlb : nb.buffer.lifetime.Limited) : Tells now a b s₁ ∧ Tells now b a s₃ := by
  obtain ⟨encounters, htx⟩ := h.ends ha (.inl rfl)
  obtain ⟨encounters', hrx⟩ := h.ends hb (.inr rfl)
  exact ⟨tells_of_cleared hla htx, tells_of_cleared hlb ((h.nodes_back b).trans hrx)⟩

/-! ### Transfers -/

/-- The transfer moves the packet, which its sender still has after a sweep. -/
def Occurrence.Carries (o : Occurrence) (p : Packet) : Prop :=
  ∃ sender receiver tx, o.event.kind = .transmission sender receiver p.id true ∧
    o.before.node? sender = some tx ∧ (tx.buffer.sweep o.event.time).find? p.id = some p

theorem Occurrence.exists_carries {o : Occurrence} (h : o.sent = true) : ∃ p, o.Carries p := by
  obtain ⟨slot, ⟨time, kind⟩, before⟩ := o
  cases kind with
  | transmission sender receiver packet valid =>
    cases valid with
    | false => cases h
    | true =>
      obtain ⟨-, hhas⟩ := Bool.and_eq_true_iff.mp h
      obtain ⟨tx, htx, hholds⟩ := (Option.any_eq_true _ _).mp hhas
      rw [Buffer.holds_eq_isSome] at hholds
      obtain ⟨p, hp⟩ := Option.isSome_iff_exists.mp hholds
      obtain rfl := (Buffer.mem_liveIds_of_find? hp).1
      exact ⟨p, sender, receiver, tx, rfl, htx, hp⟩
  | contactUp | contactDown | generation | checkpoint => cases h

/-- A packet that is moved is not older than its lifetime. -/
theorem Occurrence.Carries.age_le {o : Occurrence} {p : Packet} (h : o.Carries p)
    (hl : scenario.buffer.lifetime.Limited) (ho : Reachable scenario trace o.before) :
    (p.age o.event.time).seconds ≤ scenario.buffer.lifetime.seconds := by
  obtain ⟨sender, receiver, tx, -, htx, hp⟩ := h
  have hlive := Buffer.unexpired_of_mem_sweep (Buffer.mem_livePackets_of_find? hp)
  rw [(ho.leftAtDrop hl htx).1] at hlive
  exact Packet.age_le hl hlive

/-! ### Latencies -/

/-- The latencies of the deliveries so far, none of them longer than the lifetime. -/
def WithinLifetime (lifetime : TimeSpan) (s : Simulator) : Prop :=
  ∃ ages : List Float, s.latency = ages.foldl Mean.record Mean.empty ∧
    ages.length = s.traffic.delivered ∧ ∀ x ∈ ages, x ≤ lifetime.seconds

theorem WithinLifetime.delivery {lifetime : TimeSpan} (h : s.WithinLifetime lifetime) {x : Float}
    (hx : x ≤ lifetime.seconds) : (s.withDelivery x).WithinLifetime lifetime := by
  obtain ⟨ages, hlatency, hlength, hle⟩ := h
  refine ⟨ages ++ [x], ?_, ?_, fun y hy => ?_⟩
  · rw [List.foldl_append, ← hlatency]
    rfl
  · rw [List.length_append, hlength]
    rfl
  · rcases List.mem_append.mp hy with hy | hy
    · exact hle y hy
    · rw [List.mem_singleton.mp hy]
      exact hx

/-- An event delivers only what its sender has after a sweep. -/
theorem upheld_withinLifetime {lifetime : TimeSpan} (hl : lifetime.Limited) (now : Time)
    (k : EventKind) (hs : ∀ n node, s₀.node? n = some node → node.buffer.lifetime = lifetime) :
    Upheld now k s₀ (WithinLifetime lifetime) where
  aside h _ ha := by
    have hdelivered := congrArg (·.2.1) ha
    have hlatency := congrArg (·.2.2.2) ha
    simp only [accounts] at hdelivered hlatency
    unfold WithinLifetime at h ⊢
    rwa [hdelivered, hlatency]
  swept h _ := h
  met _ h _ _ := h
  again h _ _ := h
  relayed h _ _ _ := h
  handed _ h _ _ := h
  removed _ h _ := h
  sent h _ _ := h
  born h _ _ := h
  delivered h _ htx hp _ _ := by
    have hlive := Buffer.unexpired_of_mem_sweep hp
    rw [hs _ _ htx] at hlive
    exact WithinLifetime.delivery h (Packet.age_le hl hlive)

theorem Reachable.withinLifetime (hl : scenario.buffer.lifetime.Limited)
    (h : Reachable scenario trace s) : s.WithinLifetime scenario.buffer.lifetime := by
  have hlifetime {s : Simulator} (h : Reachable scenario trace s) : ∀ n node,
      s.node? n = some node → node.buffer.lifetime = scenario.buffer.lifetime :=
    fun _ _ hn => (h.leftAtDrop hl hn).1
  induction h with
  | start h =>
    have hfresh := fresh_of_ofTrace h
    exact ⟨[], hfresh.latency, by rw [hfresh.traffic]; rfl, nofun⟩
  | @event s e q h _ ih => exact (upheld_withinLifetime hl e.time e.kind (hlifetime h)).process q ih
  | @finish s h _ ih =>
    exact (upheld_withinLifetime hl s.stop .checkpoint (hlifetime h)).sweepAll ih

/--
Under a lifetime that is finite and not zero, every buffer of a run tells of remaining lifetimes,
evicts and records its evictions as `Timely` says; every contact that opens a link tells the
admission policies of both directions of remaining lifetimes that are not negative; and whatever is
counted as transmitted was not older than its lifetime then, and so is no recorded latency.
-/
theorem lifetimes_nonnegative (hl : scenario.buffer.lifetime.Limited)
    (h : Reachable scenario trace s) :
    (∀ n node, s.node? n = some node → node.buffer.Timely) ∧
    (∀ now a b q na nb, s.due? = some (⟨now, .contactUp a b⟩, q) → s.node? a = some na →
      s.node? b = some nb → s.timesOpen a b = 0 → ∃ s₀ s₁ s₃ o ids ids',
        Meeting now a b ids ids' (s.taken ⟨now, .contactUp a b⟩ q) s₀ s₁ s₃ o
          ((process ⟨now, .contactUp a b⟩ q).run s) ∧
        Tells now a b s₁ ∧ Tells now b a s₃) ∧
    (∃ queued past, Chronicle scenario trace queued past s) ∧
    (∀ queued past, Chronicle scenario trace queued past s →
      s.report.transmitted = past.countP (·.sent) ∧ ∀ o ∈ past, o.sent = true →
        ∃ p, o.Carries p ∧
          (p.age o.event.time).seconds ≤ scenario.buffer.lifetime.seconds) ∧
    ∃ ages : List Float, s.latency = ages.foldl Mean.record Mean.empty ∧
      ages.length = s.report.delivered ∧ ∀ x ∈ ages, x ≤ scenario.buffer.lifetime.seconds := by
  refine ⟨fun n node hn => h.timely hl hn, fun now a b q na nb hd ha hb hclosed => ?_,
    h.exists_chronicle, fun queued past hpast => ⟨?_, fun o ho hsent => ?_⟩, ?_⟩
  · obtain ⟨s₀, s₁, s₃, o, ids, ids', hm⟩ := contactUp_meeting
      (s := s.taken ⟨now, .contactUp a b⟩ q) (h.sane.taken hd).sound now ha hb hclosed
    have htells := hm.tells ha hb ((h.leftAtDrop hl ha).1 ▸ hl) ((h.leftAtDrop hl hb).1 ▸ hl)
    exact ⟨s₀, s₁, s₃, o, ids, ids', hm, htells⟩
  · rw [toTraffic_report]
    exact hpast.transmitted_eq
  · obtain ⟨p, hp⟩ := o.exists_carries hsent
    exact ⟨p, hp, hp.age_le hl (hpast.due o ho).1⟩
  · rw [toTraffic_report]
    exact h.withinLifetime hl

end Simulator

/-- Two nodes with room for one packet, which lives for thirty seconds. -/
def Scenario.hasty : Scenario :=
  { Scenario.pair with
    buffer := { capacity := 1, lifetime := ⟨30.0⟩, recording := true }
    policies := { eviction := ⟨.front, false⟩, scheduling := .fifo, admission := .acc }
    protocol :=
      { forwarding := .epidemic, transmissionTime := ⟨1.0⟩, historyWindow := ⟨500.0⟩ } }

/-- A packet that is evicted for another one, which is delivered in the contact that follows. -/
def Trace.hasty : Trace where
  events :=
    [⟨⟨1.0⟩, .generation ⟨0⟩ ⟨1⟩ ⟨0⟩ true⟩, ⟨⟨2.0⟩, .generation ⟨0⟩ ⟨1⟩ ⟨1⟩ true⟩,
      ⟨⟨3.0⟩, .contactUp ⟨0⟩ ⟨1⟩⟩]
  contacts := 1
  packets := 2

namespace Simulator

/-- One eviction and one transfer, of packets that have some of the thirty seconds left. -/
theorem hasty_within_lifetime : Scenario.hasty.buffer.lifetime.Limited ∧
    ∃ queued past s, Chronicle Scenario.hasty Trace.hasty queued past s ∧
      (∃ node log, s.node? ⟨0⟩ = some node ∧ node.buffer.history = some log ∧
        log.dropsIn ⟨4.0⟩ ⟨500.0⟩ = 1 ∧ node.buffer.Timely) ∧
      s.report.transmitted = 1 ∧ s.report.delivered = 1 ∧
      (∃ o ∈ past, ∃ p, o.Carries p ∧ (p.age o.event.time).seconds ≤ 30.0) ∧
      ∃ x : Float, s.latency = Mean.empty.record x ∧ x ≤ 30.0 := by
  have hl : Scenario.hasty.buffer.lifetime.Limited := ⟨by decide +kernel, by decide +kernel⟩
  obtain ⟨queued, past, s, h, hp⟩ := exists_chronicle Scenario.hasty Trace.hasty 4
    (fun _ past s => decide (past.countP (·.sent) = 1 ∧ s.report.delivered = 1 ∧
      (s.node? ⟨0⟩).any fun node => node.buffer.history.any fun log =>
        log.dropsIn ⟨4.0⟩ ⟨500.0⟩ = 1)) (by decide +kernel)
  obtain ⟨hsent, hdelivered, hdropped⟩ := of_decide_eq_true hp
  obtain ⟨node, hn, hdropped⟩ := (Option.any_eq_true _ _).mp hdropped
  obtain ⟨log, hlog, hdropped⟩ := (Option.any_eq_true _ _).mp hdropped
  obtain ⟨hbuffers, -, -, htransfers, ages, hlatency, hlength, hages⟩ :=
    lifetimes_nonnegative hl h.reachable
  obtain ⟨htransmitted, hcarried⟩ := htransfers queued past h
  obtain ⟨o, ho, hosent⟩ := List.countP_pos_iff.mp (hsent ▸ Nat.one_pos)
  obtain ⟨x, rfl⟩ := List.length_eq_one_iff.mp (hlength.trans hdelivered)
  exact ⟨hl, queued, past, s, h,
    ⟨node, log, hn, hlog, of_decide_eq_true hdropped, hbuffers ⟨0⟩ node hn⟩,
    htransmitted.trans hsent, hdelivered, ⟨o, ho, hcarried o ho hosent⟩, x, hlatency,
    hages x (List.mem_singleton_self x)⟩

end Simulator

end OppNet
