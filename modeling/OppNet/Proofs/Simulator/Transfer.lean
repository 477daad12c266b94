import OppNet.Proofs.Simulator.Change
import OppNet.Simulator.Transfer

/-!
# OppNet.Proofs.Simulator.Transfer

What the end of a transfer and the birth of a packet do.

* `deliver_outcome`, `copy_outcome`: the two ways of a packet that is handed over.
* `Moved sender receiver packet s s'`: the sender had the packet, and nobody but the receiver has
  come by it. `transmission_outcome`: a transfer moves its packet or nothing at all.
* `generation_outcome`: a packet is born, or nothing is.
-/

namespace OppNet.Simulator

variable {now : Time} {sender receiver : NodeId} {packet : PacketId} {s : Simulator}

/-! ### At the receiver -/

theorem arrive_outcome {rx : Node} (h : s.node? receiver = some rx) (now : Time) (p : Packet) :
    ∃ s' rx' d, (arrive now receiver p).run s = (.ok (), s') ∧ Steady s s' ∧
      Advanced (fun n x => n = receiver ∧ x = p.id) s s' ∧ Tally s s' 0 d 0 0 0 ∧
      s'.node? receiver = some rx' ∧ rx'.hasReceived p.id = true ∧
      (rx.hasReceived p.id = false → d = 1) := by
  have hvisit := visit_run_some h (Node.deliver p.id)
  have hnode := node?_putNode_self (index_lt_of_node? h) (rx.deliver p.id).2
  have hadv := Advanced.putNode h (Node.Advanced.deliver p.id rx)
  have htally : Tally s (s.putNode receiver (rx.deliver p.id).2) 0 0 0 0 0 :=
    .putNode h rfl rfl
  have hgot : (silenced (rx.deliver p.id).2).hasReceived p.id = true := by
    change (rx.received.insert p.id).contains p.id = true
    simp
  unfold arrive
  rw [run_bind_ok hvisit]
  cases hold : rx.hasReceived p.id with
  | true =>
    rw [if_neg (by simp [Node.deliver, hold])]
    exact ⟨_, _, 0, rfl, .putNode _ _ _, hadv, htally, hnode, hgot, nofun⟩
  | false =>
    rw [if_pos (by simp [Node.deliver, hold])]
    refine ⟨_, _, 1, rfl, ⟨rfl, rfl, rfl, rfl, rfl, rfl⟩, hadv.same_nodes rfl, ?_,
      hnode, hgot, fun _ => rfl⟩
    exact htally.trans (.of_nodes_eq (by rfl) (by rfl) (by rfl) (by rfl) : Tally _ _ 0 1 0 0 0)

theorem relay_outcome {rx : Node} (h : s.node? receiver = some rx) (hu : rx.buffer.Uncoded)
    (now : Time) (sender : NodeId) (p : Packet) :
    (∃ s', (relay now sender receiver p).run s = (.ok (), s') ∧ Quiet now s s' ∧
      (p.id ∈ rx.buffer.liveIds ∨ rx.hasReceived p.id = true)) ∨
    ∃ s' rx', (relay now sender receiver p).run s = (.ok (), s') ∧ Steady s s' ∧
      Advanced (fun n x => n = receiver ∧ x = p.id) s s' ∧ Tally s s' 0 0 0 1 0 ∧
      s'.node? receiver = some rx' ∧ p.id ∈ rx'.buffer.liveIds := by
  have hswept := node?_putNode_self (index_lt_of_node? h) (rx.sweep now)
  have hquiet := quiet_sweepNode now h
  have hkept := (kept_node_sweep now rx).trans (kept_silenced now (rx.sweep now))
  have hrun := sweepNode_run_some now h
  generalize s.putNode receiver (rx.sweep now) = s₁ at hswept hquiet hrun
  generalize silenced (rx.sweep now) = rx₁ at hswept hkept
  unfold relay
  rw [run_bind_ok hrun, run_bind_ok (run_get s₁), hswept]
  dsimp only
  by_cases hspare : (rx₁.buffer.holds p.id || rx₁.hasReceived p.id) = true
  · rw [if_pos hspare]
    refine .inl ⟨s₁, rfl, hquiet, ?_⟩
    rw [Bool.or_eq_true, Node.hasReceived, hkept.received] at hspare
    exact hspare.imp_left fun hheld => hkept.buffer.live _ (Buffer.mem_liveIds_of_holds hheld)
  · rw [if_neg hspare]
    rw [Bool.not_eq_true, Bool.or_eq_false_iff] at hspare
    rcases Buffer.insert_outcome now (p.relayedBy sender) rx₁.buffer with
      ⟨hlive, _⟩ | ⟨hok, hgained⟩
    · -- A copy that is live would have been held.
      have hheld := (hkept.buffer.uncoded hu).holds_iff.mpr hlive
      exact absurd (hspare.1.symm.trans hheld) Bool.false_ne_true
    · have hput := node?_putNode_self (index_lt_of_node? hswept)
        { rx₁ with buffer := (rx₁.buffer.insert now (p.relayedBy sender)).2 }
      have hadv := Advanced.putNode hswept (Node.Advanced.of_gained hgained)
      have htally : Tally s₁ (s₁.putNode receiver { rx₁ with
          buffer := (rx₁.buffer.insert now (p.relayedBy sender)).2 }) 0 0 0 1 0 :=
        .putNode hswept hgained.inserted hgained.removed
      have hins := onBuffer_run_some hswept (Buffer.insert now (p.relayedBy sender))
      rw [hok] at hins
      exact .inr ⟨_, _, hins, (Steady.of_quiet hquiet).trans (.putNode _ _ _),
        .after_quiet hquiet hadv, .after_quiet hquiet htally, hput, hgained.has⟩

/-! ### Handing over -/

/-- The packet has been sent, and nobody but the receiver has come by it. -/
structure Moved (sender receiver : NodeId) (packet : PacketId) (s s' : Simulator) : Prop where
  steady : Steady s s'
  advanced : Advanced (fun n x => n = receiver ∧ x = packet) s s'
  /-- Received at its destination, copied, or of no use to the receiver. -/
  course : ∃ tx p rx rx', s.node? sender = some tx ∧ p ∈ tx.buffer.livePackets ∧ p.id = packet ∧
    s.node? receiver = some rx ∧ s'.node? receiver = some rx' ∧
    ((p.destination = receiver ∧ rx'.hasReceived packet = true ∧ ∃ d, Tally s s' 0 d 1 0 1 ∧
        (rx.hasReceived packet = false → d = 1)) ∨
      (packet ∈ rx'.buffer.liveIds ∧ Tally s s' 0 0 1 1 0) ∨
      ((packet ∈ rx.buffer.liveIds ∨ rx.hasReceived packet = true) ∧ Tally s s' 0 0 1 0 0))

theorem Moved.source {s' : Simulator} (h : Moved sender receiver packet s s') :
    ∃ tx, s.node? sender = some tx ∧ packet ∈ tx.buffer.liveIds := by
  obtain ⟨tx, p, _, _, htx, hp, hid, _⟩ := h.course
  exact ⟨tx, htx, Buffer.mem_liveIds.mpr ⟨p, hp, hid⟩⟩

/-- A quiet change before it makes no difference, if it leaves the sender with what it had. -/
theorem Moved.after_quiet {s' s'' : Simulator} {tx tx' : Node} (hq : Quiet now s s')
    (htx : s.node? sender = some tx) (htx' : s'.node? sender = some tx')
    (hsub : ∀ p ∈ tx'.buffer.livePackets, p ∈ tx.buffer.livePackets)
    (h : Moved sender receiver packet s' s'') : Moved sender receiver packet s s'' := by
  obtain ⟨tx₁, p, rx', rx'', htx₁, hp, hid, hrx', hrx'', hcourse⟩ := h.course
  obtain rfl : tx' = tx₁ := Option.some_inj.mp (htx'.symm.trans htx₁)
  obtain ⟨rx, hrx, hkeptrx⟩ := hq.back hrx'
  have hold : rx'.hasReceived packet = rx.hasReceived packet := by
    rw [Node.hasReceived, Node.hasReceived, hkeptrx.received]
  refine ⟨(Steady.of_quiet hq).trans h.steady, .after_quiet hq h.advanced,
    tx, p, rx, rx'', htx, hsub p hp, hid, hrx, hrx'', ?_⟩
  rw [hold] at hcourse
  rcases hcourse with ⟨hdest, hgot, d, htally, hd⟩ | ⟨hgot, htally⟩ | ⟨hhad, htally⟩
  · exact .inl ⟨hdest, hgot, d, .after_quiet hq htally, hd⟩
  · exact .inr (.inl ⟨hgot, .after_quiet hq htally⟩)
  · exact .inr (.inr ⟨hhad.imp_left (hkeptrx.buffer.live _), .after_quiet hq htally⟩)

theorem modify_run {α : Type} {n : NodeId} {tx : Node} {p p' : Packet} {a : α}
    {f : Packet → Except Fault (α × Packet)}
    (h : s.node? n = some tx) (hp : (tx.buffer.sweep now).find? packet = some p)
    (hf : ∀ p a p', f p = .ok (a, p') → p'.route = p.route ∧ p'.stamp = p.stamp)
    (hfp : f p = .ok (a, p')) :
    ∃ s' tx', (onBuffer n (Buffer.modify now packet f)).run s = (.ok a, s') ∧ Quiet now s s' ∧
      s'.node? n = some tx' ∧ (tx'.buffer.sweep now).find? packet = some p' := by
  obtain ⟨hok, hfind⟩ := Buffer.find?_modify hp hfp (hf p a p' hfp).2
  have hrun := onBuffer_run_some h (Buffer.modify now packet f)
  rw [hok] at hrun
  refine ⟨_, _, hrun, .putNode h ⟨rfl, rfl, rfl, rfl, Buffer.kept_modify hf⟩,
    node?_putNode_self (index_lt_of_node? h) _, ?_⟩
  rw [← hfind]
  exact Buffer.find?_sweep_congr rfl rfl

/-- Handed to its destination, a packet arrives there and leaves its sender. -/
theorem deliver_outcome {tx rx : Node} (htx : s.node? sender = some tx)
    (hrx : s.node? receiver = some rx) (hu : tx.buffer.Uncoded) (now : Time) {p : Packet}
    (hp : p.id ∈ (tx.buffer.sweep now).liveIds) :
    ∃ s' rx' d, (do
        let _ ← visit sender fun node =>
          let (found, buffer) := node.buffer.remove now p.id
          (found, { node with buffer := buffer })
        count fun t => { t with transmitted := t.transmitted + 1 }
        arrive now receiver p : Action Unit).run s = (.ok (), s') ∧ Steady s s' ∧
      Advanced (fun n x => n = receiver ∧ x = p.id) s s' ∧ Tally s s' 0 d 1 0 1 ∧
      s'.node? receiver = some rx' ∧ rx'.hasReceived p.id = true ∧
      (rx.hasReceived p.id = false → d = 1) := by
  have hlost : Buffer.Lost tx.buffer (tx.buffer.remove now p.id).2 := Buffer.remove_outcome hu hp
  have hadv := Advanced.putNode htx (Node.Advanced.of_lost hlost fun _ => False)
  have htally : Tally s (s.putNode sender { tx with buffer := (tx.buffer.remove now p.id).2 })
      0 0 0 0 1 := .putNode htx hlost.inserted hlost.removed
  have hsteady : Steady s (s.putNode sender { tx with buffer := (tx.buffer.remove now p.id).2 }) :=
    .putNode _ _ _
  have hvisit := visit_run_some htx fun node =>
    ((node.buffer.remove now p.id).1, { node with buffer := (node.buffer.remove now p.id).2 })
  obtain ⟨rx₁, hrx₁, hadvrx⟩ := hadv.nodes receiver rx hrx
  generalize s.putNode sender { tx with buffer := (tx.buffer.remove now p.id).2 } = s₁
    at hadv htally hsteady hvisit hrx₁
  have hsent : Tally s₁ (s₁.counted fun t => { t with transmitted := t.transmitted + 1 })
      0 0 1 0 0 := .counted rfl rfl rfl
  have hrx₂ : (s₁.counted fun t => { t with transmitted := t.transmitted + 1 }).node? receiver =
      some rx₁ := hrx₁
  obtain ⟨s', rx', d, hrun, hsteady', hadv', htally', hrx', hgot, hd⟩ := arrive_outcome hrx₂ now p
  rw [run_bind_ok hvisit, run_bind_ok (run_count _ _)]
  refine ⟨s', rx', d, hrun, hsteady.trans ((Steady.counted rfl).trans hsteady'), ?_, ?_, hrx',
    hgot, fun hnew => hd ?_⟩
  · refine ((hadv.then_same (.counted _ _ _)).trans hadv').mono ?_
    rintro n x (⟨_, h⟩ | h)
    · exact h.elim
    · exact h
  · simpa only [Nat.zero_add, Nat.add_zero] using (htally.trans hsent).trans htally'
  · rw [← Bool.not_eq_true] at hnew ⊢
    intro hold
    rcases hadvrx.received _ hold with hold | ⟨_, h⟩
    · exact hnew hold
    · exact h

/-- Handed to anybody else, a packet is copied, or the receiver has no use for it. -/
theorem copy_outcome {rx : Node} (hrx : s.node? receiver = some rx) (hu : rx.buffer.Uncoded)
    (now : Time) (sender : NodeId) (p : Packet) :
    ∃ s' rx', (do
        count fun t => { t with transmitted := t.transmitted + 1 }
        relay now sender receiver p : Action Unit).run s = (.ok (), s') ∧ Steady s s' ∧
      Advanced (fun n x => n = receiver ∧ x = p.id) s s' ∧ s'.node? receiver = some rx' ∧
      ((p.id ∈ rx'.buffer.liveIds ∧ Tally s s' 0 0 1 1 0) ∨
        ((p.id ∈ rx.buffer.liveIds ∨ rx.hasReceived p.id = true) ∧ Tally s s' 0 0 1 0 0)) := by
  have hsent : Tally s (s.counted fun t => { t with transmitted := t.transmitted + 1 })
      0 0 1 0 0 := .counted rfl rfl rfl
  have hsteady : Steady s (s.counted fun t => { t with transmitted := t.transmitted + 1 }) :=
    .counted rfl
  have hsame : Advanced (fun _ _ => False) s
      (s.counted fun t => { t with transmitted := t.transmitted + 1 }) := .counted _ _ _
  have hrx₁ : (s.counted fun t => { t with transmitted := t.transmitted + 1 }).node? receiver =
      some rx := hrx
  rw [run_bind_ok (run_count _ _)]
  rcases relay_outcome hrx₁ hu now sender p with
    ⟨s', hrun, hq, hold⟩ | ⟨s', rx', hrun, hsteady', hadv, htally, hrx', hgot⟩
  · obtain ⟨rx', hrx', _⟩ := hq.nodes _ _ hrx₁
    refine ⟨s', rx', hrun, hsteady.trans (.of_quiet hq), ?_, hrx',
      .inr ⟨hold, hsent.trans (.of_quiet hq)⟩⟩
    exact (hsame.then_same (.of_quiet hq _)).mono fun _ _ h => h.elim
  · refine ⟨s', rx', hrun, hsteady.trans hsteady', ?_, hrx', .inl ⟨hgot, hsent.trans htally⟩⟩
    exact (hsame.trans hadv).mono fun _ _ hx => hx.resolve_left id

theorem handOver_outcome {tx rx : Node} {p : Packet}
    (hu : ∀ n node, s.node? n = some node → node.buffer.Uncoded)
    (htx : s.node? sender = some tx) (hrx : s.node? receiver = some rx)
    (hp : (tx.buffer.sweep now).find? packet = some p) :
    ∃ s', (handOver now sender receiver p).run s = (.ok (), s') ∧
      Moved sender receiver packet s s' := by
  obtain rfl : p.id = packet := (Buffer.mem_liveIds_of_find? hp).1
  obtain ⟨s₁, tx₁, hrun₁, hq₁, htx₁, hp₁⟩ := modify_run (a := ()) htx hp
    (f := fun p => .ok ((), { p with forwarded := true }))
    (by rintro p a p' h; cases h; exact ⟨rfl, rfl⟩) rfl
  obtain ⟨s₂, tx₂, hrun₂, hq₂, htx₂, hp₂⟩ := modify_run (a := ()) htx₁ hp₁
    (f := fun p => .ok ((), p.addForwarder receiver))
    (by rintro p a p' h; cases h; exact ⟨rfl, rfl⟩) rfl
  have hquiet := hq₁.trans hq₂
  have hmem := Buffer.mem_of_mem_livePackets_sweep (Buffer.mem_livePackets_of_find? hp)
  obtain ⟨rx₂, hrx₂, hkeptrx⟩ := hquiet.nodes receiver rx hrx
  have hold : rx₂.hasReceived p.id = rx.hasReceived p.id := by
    rw [Node.hasReceived, Node.hasReceived, hkeptrx.received]
  unfold handOver Buffer.markForwarded Buffer.addForwarder
  rw [run_bind_ok hrun₁, run_bind_ok hrun₂]
  by_cases hdest : p.destination = receiver
  · obtain ⟨node, hnode, hkept⟩ := hquiet.back htx₂
    obtain ⟨s', rx', d, hrun, hsteady, hadv, htally, hrx', hgot, hd⟩ := deliver_outcome htx₂ hrx₂
      (hkept.buffer.uncoded (hu _ _ hnode)) now (Buffer.mem_liveIds_of_find? hp₂).2
    rw [if_pos hdest]
    exact ⟨s', hrun, (Steady.of_quiet hquiet).trans hsteady, .after_quiet hquiet hadv,
      tx, p, rx, rx', htx, hmem, rfl, hrx, hrx',
      .inl ⟨hdest, hgot, d, .after_quiet hquiet htally, fun hnew => hd (hold.trans hnew)⟩⟩
  · obtain ⟨s', rx', hrun, hsteady, hadv, hrx', hcourse⟩ := copy_outcome hrx₂
      (hkeptrx.buffer.uncoded (hu _ _ hrx)) now sender p
    rw [if_neg hdest]
    refine ⟨s', hrun, (Steady.of_quiet hquiet).trans hsteady, .after_quiet hquiet hadv,
      tx, p, rx, rx', htx, hmem, rfl, hrx, hrx', .inr ?_⟩
    rw [hold] at hcourse
    rcases hcourse with ⟨hgot, htally⟩ | ⟨hhad, htally⟩
    · exact .inl ⟨hgot, .after_quiet hquiet htally⟩
    · exact .inr ⟨hhad.imp_left (hkeptrx.buffer.live _), .after_quiet hquiet htally⟩

/-! ### The two events -/

def unmarked (receiver : NodeId) (packet : PacketId) (s : Simulator) : Simulator :=
  { s with inFlight := s.inFlight.erase ⟨receiver, packet⟩ }

theorem transmission_run_aborted {rx : Node} (hrx : s.node? receiver = some rx) (now : Time)
    (sender : NodeId) (packet : PacketId) :
    (transmission now sender receiver packet false).run s =
      (.ok (), s.unmarked receiver packet) := by
  unfold transmission
  rw [run_bind_ok (requireNode_run_some hrx)]
  rfl

theorem transmission_run_none (h : s.node? receiver = none) (now : Time) (sender : NodeId)
    (packet : PacketId) (valid : Bool) :
    (transmission now sender receiver packet valid).run s =
      (.error (.unknownNode receiver), s) := by
  unfold transmission
  exact run_bind_error (requireNode_run_none h)

/-- A transfer moves its packet if it is valid and its sender still has it, and nothing otherwise. -/
theorem transmission_outcome {rx : Node}
    (hu : ∀ n node, s.node? n = some node → node.buffer.Uncoded)
    (hrx : s.node? receiver = some rx) (now : Time) (sender : NodeId) (packet : PacketId)
    (valid : Bool) :
    (Quiet now (s.unmarked receiver packet)
        ((transmission now sender receiver packet valid).run s).2 ∧
      (valid = true → ∀ tx, s.node? sender = some tx →
        (tx.buffer.sweep now).holds packet = false) ∧
      (s.node? sender ≠ none →
        ((transmission now sender receiver packet valid).run s).1 = .ok ())) ∨
    (valid = true ∧ (∃ tx, s.node? sender = some tx ∧
        (tx.buffer.sweep now).holds packet = true) ∧
      ((transmission now sender receiver packet valid).run s).1 = .ok () ∧
      Moved sender receiver packet (s.unmarked receiver packet)
        ((transmission now sender receiver packet valid).run s).2) := by
  have hmark : (modify fun s => { s with inFlight := s.inFlight.erase ⟨receiver, packet⟩ } :
      Action PUnit).run s = (.ok ⟨⟩, s.unmarked receiver packet) := rfl
  unfold transmission
  rw [run_bind_ok (requireNode_run_some hrx), run_bind_ok hmark]
  cases valid with
  | false => exact .inl ⟨.refl now _, nofun, fun _ => rfl⟩
  | true =>
    rw [if_pos rfl]
    cases htx : s.node? sender with
    | none =>
      have hnone : (s.unmarked receiver packet).node? sender = none := htx
      rw [run_bind_error (sweepNode_run_none now hnone)]
      refine .inl ⟨.refl now _, fun _ tx htx => ?_, fun h => absurd rfl h⟩
      cases htx
    | some tx =>
      have hsome : (s.unmarked receiver packet).node? sender = some tx := htx
      have hquiet := quiet_sweepNode now hsome
      have hswept := node?_putNode_self (index_lt_of_node? hsome) (tx.sweep now)
      rw [run_bind_ok (sweepNode_run_some now hsome)]
      generalize (s.unmarked receiver packet).putNode sender (tx.sweep now) = s₁ at hquiet hswept
      rw [run_bind_ok (run_get s₁), hswept]
      dsimp only [Option.bind_some]
      have hheld : (tx.buffer.sweep now).holds packet =
          ((silenced (tx.sweep now)).buffer.find? packet).isSome := Buffer.holds_eq_isSome _ _
      cases hp : (silenced (tx.sweep now)).buffer.find? packet with
      | none =>
        rw [hp] at hheld
        refine .inl ⟨hquiet.trans (.journal s₁ _), fun _ tx' htx' => ?_, fun _ => rfl⟩
        cases htx'
        exact hheld
      | some p =>
        rw [hp] at hheld
        have hu₁ : ∀ n node, s₁.node? n = some node → node.buffer.Uncoded := by
          intro n node hn
          obtain ⟨node₀, hn₀, hkept⟩ := hquiet.back hn
          exact hkept.buffer.uncoded (hu n node₀ hn₀)
        have hp₁ : ((silenced (tx.sweep now)).buffer.sweep now).find? packet = some p := by
          have hagain : ((silenced (tx.sweep now)).buffer.sweep now).find? packet =
              ((tx.buffer.sweep now).sweep now).find? packet := Buffer.find?_sweep_congr rfl rfl
          rw [hagain, Buffer.sweep_sweep]
          exact hp
        obtain ⟨rx₁, hrx₁, _⟩ := hquiet.nodes receiver rx hrx
        obtain ⟨s', hrun, hmoved⟩ := handOver_outcome hu₁ hswept hrx₁ hp₁
        dsimp only
        rw [hrun]
        exact .inr ⟨rfl, ⟨tx, rfl, hheld⟩, rfl, hmoved.after_quiet hquiet hsome hswept
          fun _ => Buffer.mem_of_mem_livePackets_sweep⟩

/-- A packet is born, or nothing changes but for a sweep of its source. -/
theorem generation_outcome (now : Time) (source destination : NodeId) (packet : PacketId)
    (valid : Bool) (s : Simulator) :
    (Quiet now s ((generation now source destination packet valid).run s).2 ∧
      (s.node? destination ≠ none → (valid = true → ∃ node, s.node? source = some node ∧
          packet ∉ node.buffer.liveIds) →
        ((generation now source destination packet valid).run s).1 = .ok ())) ∨
    (valid = true ∧ ((generation now source destination packet valid).run s).1 = .ok () ∧
      Steady s ((generation now source destination packet valid).run s).2 ∧
      Advanced (fun n x => n = source ∧ x = packet) s
        ((generation now source destination packet valid).run s).2 ∧
      Tally s ((generation now source destination packet valid).run s).2 1 0 0 1 0) := by
  unfold generation
  cases hd : s.node? destination with
  | none =>
    rw [run_bind_error (requireNode_run_none hd)]
    exact .inl ⟨.refl now s, fun h => absurd rfl h⟩
  | some node =>
    rw [run_bind_ok (requireNode_run_some hd)]
    cases valid with
    | false => exact .inl ⟨.refl now s, fun _ _ => rfl⟩
    | true =>
      rw [if_pos rfl]
      cases hsrc : s.node? source with
      | none =>
        rw [run_bind_error (onBuffer_run_none hsrc _)]
        refine .inl ⟨.refl now s, fun _ h => ?_⟩
        obtain ⟨_, h, _⟩ := h rfl
        cases h
      | some src =>
        have hrun := onBuffer_run_some hsrc
          (Buffer.insert now (Packet.generate packet source destination now))
        rcases Buffer.insert_outcome now (Packet.generate packet source destination now) src.buffer
          with ⟨hlive, herr, hkept⟩ | ⟨hok, hgained⟩
        · rw [herr] at hrun
          rw [run_bind_error hrun]
          refine .inl ⟨.putNode hsrc ⟨rfl, rfl, rfl, rfl, hkept⟩, fun _ h => ?_⟩
          obtain ⟨_, h, hnot⟩ := h rfl
          cases h
          exact absurd hlive hnot
        · rw [hok] at hrun
          have htally : Tally s (s.putNode source { src with buffer := (src.buffer.insert now
              (Packet.generate packet source destination now)).2 }) 0 0 0 1 0 :=
            .putNode hsrc hgained.inserted hgained.removed
          rw [run_bind_ok hrun, run_count]
          dsimp only
          refine .inr ⟨rfl, rfl, (Steady.putNode _ _ _).trans (.counted rfl),
            (Advanced.putNode hsrc (.of_gained hgained)).same_nodes rfl, ?_⟩
          exact htally.trans (.counted (by rfl) (by rfl) (by rfl) : Tally _ (counted _ _) 1 0 0 0 0)

end OppNet.Simulator
