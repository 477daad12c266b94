import OppNet.Proofs.Binary64.Merit
import OppNet.Proofs.Binary64.Quotient
import OppNet.Proofs.Buffer.Expiry
import OppNet.Proofs.Simulator.Coverage
import OppNet.Proofs.Simulator.Report

/-!
# OppNet.Proofs.Simulator.Offers

What two nodes offer each other when a contact opens their link.

* `Admits`: what the admission policy leaves of the order that the scheduling policy has made.
* `Sends`: what one end sends to the other one: packets that this lacks, in the admitted order.
  `Direction.sends`: every direction does, if it finds the ends as they were before (`Awaits`).
* `Meeting.awaits_there`, `Meeting.awaits_back`: so do both directions of a contact, as the first
  one changes nothing that the second one depends on.
* `offers_sound`: both directions of a contact, the events that it queues, and the nodes afterwards.
-/

namespace OppNet

/-! ### Utilities -/

/-- A utility is a number, as long as the count of encounters fits into 64 bits. -/
theorem Node.isNaN_utilityFor {node : Node} {destination : NodeId}
    (h : node.timesMet destination < UInt64.size) :
    (node.utilityFor destination).isNaN = false := by
  unfold utilityFor
  split
  · decide +kernel
  · exact Binary64.isNaN_odds h

namespace Simulator

variable {now : Time} {sender receiver a b n : NodeId} {ids : List PacketId}
  {node na nb tx rx : Node} {s s₁ s₂ : Simulator} {o : Except Fault Unit × Simulator}
  {scenario : Scenario} {trace : Trace}

theorem Reachable.integrity (h : Reachable scenario trace s) (hn : s.node? n = some node) :
    Buffer.Integrity node.buffer.entries := by
  refine h.nodes (P := fun _ node => Buffer.Integrity node.buffer.entries) ?_ ?_ n node hn
  · exact fun _ => Buffer.integrity_run _ _ _ _ []
  · intro k s _ n node node' hnode hc
    change Buffer.Integrity node'.buffer.entries
    rcases hc.perform with he | ⟨now, r, _, he⟩
    · rw [he]
      exact hnode
    · rw [he]
      exact Buffer.integrity_perform hnode now r

/-! ### The two ends -/

theorem greeted_eq (a b n : NodeId) (node : Node) :
    greeted a b n node = node ∧ ¬ (n = a ∨ n = b) ∨
      (n = a ∨ n = b) ∧ ∃ encounters, greeted a b n node =
        silenced { node with encounters := encounters } := by
  unfold greeted
  by_cases ha : n = a
  · by_cases hb : n = b
    · refine .inr ⟨.inl ha, ((silenced (node.recordEncounter b)).recordEncounter a).encounters, ?_⟩
      rw [if_pos ha, if_pos hb]
      rfl
    · exact .inr ⟨.inl ha, _, by rw [if_pos ha, if_neg hb]; rfl⟩
  · by_cases hb : n = b
    · exact .inr ⟨.inr hb, _, by rw [if_neg ha, if_pos hb]; rfl⟩
    · exact .inl ⟨by rw [if_neg ha, if_neg hb], not_or.mpr ⟨ha, hb⟩⟩

/-- An end of a contact counts the other one and loses what has expired, and that is all. -/
theorem clearedAt_greeted (now : Time) (a b n : NodeId) (node : Node) :
    ∃ encounters, clearedAt now a b n (greeted a b n node) =
      if n = a ∨ n = b then { cleared now node with encounters := encounters } else node := by
  unfold clearedAt
  rcases greeted_eq a b n node with ⟨heq, hn⟩ | ⟨hn, encounters, heq⟩
  · exact ⟨node.encounters, by rw [heq, if_neg hn, if_neg hn]⟩
  · refine ⟨encounters, ?_⟩
    rw [heq, if_pos hn, if_pos hn]
    exact congrArg (fun buffer => { node with encounters := encounters, buffer := buffer })
      (Buffer.sweep_notes now node.buffer [])

/-! ### What is sent -/

/-- The receiver admits the packets, out of the order that the sender has made. -/
def Admits (now : Time) (tx rx : Node) (s : Simulator) (ids : List PacketId) : Prop :=
  ∃ order, tx.scheduling.order (List.lookup · tx.buffer.positions)
      (offersOf (s.worthOffering now tx rx)) = .ok (some order) ∧
    (admitterOf now tx rx s.protocol.historyWindow (s.worthOffering now tx rx)).decide order =
      .ok (some ids)

theorem admits_iff : Admits now tx rx s ids ↔
    ∃ count, choose now tx rx s.protocol.historyWindow (s.worthOffering now tx rx) =
      .ok (some (count, some ids)) := by
  constructor
  · rintro ⟨order, ho, hd⟩
    refine ⟨order.length, ?_⟩
    rw [choose_eq, ho]
    dsimp only
    rw [hd]
  · rintro ⟨count, h⟩
    exact choose_eq_some h

/--
What one end of a contact, now `tx`, sends to the other one, now `rx`. The network was `s` before,
and `res` is whether anything has failed since.
-/
structure Sends (now : Time) (sender receiver : NodeId) (tx rx : Node) (ids : List PacketId)
    (s : Simulator) (res : Except Fault Unit) : Prop where
  lacking : ∀ id ∈ ids, Lacks now sender receiver id s
  unsent : ∀ id ∈ ids, ⟨receiver, id⟩ ∉ shipments s.queue.toList
  /-- A count that does not fit into 64 bits may lead to a utility that compares with nothing. -/
  gaining : s.protocol.forwarding = .greedy → ∀ p ∈ tx.buffer.livePackets, p.id ∈ ids →
    ¬ rx.utilityFor p.destination ≤ tx.utilityFor p.destination ∧
      (tx.timesMet p.destination < UInt64.size → rx.timesMet p.destination < UInt64.size →
        tx.utilityFor p.destination < rx.utilityFor p.destination)
  /-- A failure leaves the rest of what was admitted unsent. -/
  admitted : ids = [] ∨ ∃ chosen, Admits now tx rx s chosen ∧ ids <+: chosen
  complete : res = .ok () → ∀ chosen, Admits now tx rx s chosen → ids = chosen

/-! ### One direction -/

/-- Which packets are worth offering depends on the marks of the receiver only. -/
theorem worthOffering_congr (hp : s₁.protocol = s.protocol)
    (hmarks : ∀ id, (⟨rx.id, id⟩ : Shipment) ∈ s₁.inFlight ↔ ⟨rx.id, id⟩ ∈ s.inFlight) :
    s₁.worthOffering now tx rx = s.worthOffering now tx rx := by
  have hspared : ∀ id, s₁.isSpared rx id = s.isSpared rx id := by
    intro id
    have hcontains : s₁.inFlight.contains ⟨rx.id, id⟩ = s.inFlight.contains ⟨rx.id, id⟩ := by
      rw [Bool.eq_iff_iff, Std.TreeSet.contains_iff_mem, Std.TreeSet.contains_iff_mem]
      exact hmarks id
    rw [isSpared, isSpared, hcontains]
  unfold worthOffering
  simp only [hp, hspared]

/--
What a direction finds when it starts: the two ends as they were in `s`, apart from the encounters
that they have counted and from what has expired, and the marks of the receiver as they were.
-/
structure Awaits (now : Time) (sender receiver : NodeId) (s s₁ : Simulator) : Prop where
  protocol : s₁.protocol = s.protocol
  ends : ∀ n, n = sender ∨ n = receiver → ∃ node encounters, s.node? n = some node ∧
    s₁.node? n = some { cleared now node with encounters := encounters }
  marks : ∀ id, (⟨receiver, id⟩ : Shipment) ∈ s₁.inFlight ↔ ⟨receiver, id⟩ ∈ s.inFlight

theorem Offered.lacks {id : PacketId} (h : Offered sender receiver ids s₁) (hs : Sane scenario s₁)
    (hw : Awaits now sender receiver s s₁) (hid : id ∈ ids) :
    Lacks now sender receiver id s ∧ (⟨receiver, id⟩ : Shipment) ∉ s.inFlight := by
  obtain ⟨tx, rx, htx, hrx, hlive, hspared⟩ := h.source id hid
  obtain ⟨hmark, hnot, hnew⟩ := (hs.isSpared_eq_false hrx).mp hspared
  obtain ⟨tx₀, _, htx₀, htx'⟩ := hw.ends sender (.inl rfl)
  obtain ⟨rx₀, _, hrx₀, hrx'⟩ := hw.ends receiver (.inr rfl)
  cases htx.symm.trans htx'
  cases hrx.symm.trans hrx'
  exact ⟨⟨⟨tx₀, htx₀, hlive⟩, rx₀, hrx₀, hnot, hnew⟩, fun hold => hmark ((hw.marks id).mpr hold)⟩

/-- Greedy forwarding sends nothing to a node that is not better placed. -/
theorem Direction.gains {p : Packet} (h : Direction now sender receiver ids s s₁ o)
    (htx : s₁.node? sender = some tx) (hrx : s₁.node? receiver = some rx)
    (hi : Buffer.Integrity tx.buffer.entries) (hf : s₁.protocol.forwarding = .greedy)
    (hp : p ∈ tx.buffer.livePackets) (hid : p.id ∈ ids) :
    ¬ rx.utilityFor p.destination ≤ tx.utilityFor p.destination := by
  rcases h.chosen with rfl | ⟨tx', rx', count, chosen, htx', hrx', -, hsent, hchoose⟩
  · cases hid
  · cases htx.symm.trans htx'
    cases hrx.symm.trans hrx'
    obtain ⟨i, hi', heq⟩ := List.mem_map.mp ((choose_sound hchoose).2 p.id (hsent.subset hid))
    obtain ⟨p', hp', rfl, -, hgain⟩ := mem_worthOffering hi'
    obtain rfl : p' = p := Buffer.eq_of_live hi hp' hp heq
    exact hgain hf

theorem Direction.sends {res : Except Fault Unit} (h : Direction now sender receiver ids s₂ s₁ o)
    (hs : Sane scenario s₁) (hw : Awaits now sender receiver s s₁)
    (hmatched : Matched s.queue.toList s) (htx : s₁.node? sender = some tx)
    (hrx : s₁.node? receiver = some rx) (hi : Buffer.Integrity tx.buffer.entries)
    (hok : res = .ok () → o.1 = .ok ()) : Sends now sender receiver tx rx ids s res := by
  have hworth : s₁.worthOffering now tx rx = s.worthOffering now tx rx := by
    refine worthOffering_congr hw.protocol fun id => ?_
    rw [(hs.nodes receiver rx hrx).id]
    exact hw.marks id
  constructor
  case lacking => exact fun id hid => (h.offered.lacks hs hw hid).1
  case unsent =>
    intro id hid hpending
    exact (h.offered.lacks hs hw hid).2 ((hmatched.marks _).mpr hpending)
  case gaining =>
    intro hf p hp hid
    have hgain := h.gains htx hrx hi (by rw [hw.protocol]; exact hf) hp hid
    refine ⟨hgain, fun htxCount hrxCount => ?_⟩
    by_contra hnot
    exact hgain ((Binary64.not_lt_iff_le (Node.isNaN_utilityFor htxCount)
      (Node.isNaN_utilityFor hrxCount)).mp hnot)
  case admitted =>
    rcases h.chosen with rfl | ⟨tx', rx', count, chosen, htx', hrx', -, hsent, hchoose⟩
    · exact .inl rfl
    · cases htx.symm.trans htx'
      cases hrx.symm.trans hrx'
      refine .inr ⟨chosen, admits_iff.mpr ⟨count, ?_⟩, hsent⟩
      rw [← hworth, ← hw.protocol]
      exact hchoose
  case complete =>
    intro hres chosen hadmits
    obtain ⟨count, hchoose⟩ := admits_iff.mp hadmits
    rw [← hworth, ← hw.protocol] at hchoose
    exact h.complete (hok hres) tx rx count chosen htx hrx hchoose

/-! ### Both directions -/

namespace Meeting

variable {ids' : List PacketId} {s₀ s₃ : Simulator} {out : Except Fault Unit × Simulator}

theorem sane_there (h : Meeting now a b ids ids' s s₀ s₁ s₃ o out) (hs : Sane scenario s) :
    Sane scenario s₁ :=
  ((hs.relinked _ _).of_quiet h.relinked).of_quiet h.there.quiet

theorem sane_back (h : Meeting now a b ids ids' s s₀ s₁ s₃ o out) (hs : Sane scenario s) :
    Sane scenario s₃ :=
  ((h.sane_there hs).of_shipped h.there.shipped).of_quiet h.back.quiet

theorem ends (h : Meeting now a b ids ids' s s₀ s₁ s₃ o out) (hn : s.node? n = some node)
    (hend : n = a ∨ n = b) : ∃ encounters,
      s₁.node? n = some { cleared now node with encounters := encounters } := by
  obtain ⟨encounters, heq⟩ := clearedAt_greeted now a b n node
  refine ⟨encounters, ?_⟩
  rw [if_pos hend] at heq
  rw [h.nodes_there, hn, ← heq]
  rfl

theorem awaits_there (h : Meeting now a b ids ids' s s₀ s₁ s₃ o out) (ha : s.node? a = some na)
    (hb : s.node? b = some nb) : Awaits now a b s s₁ where
  protocol := h.there.quiet.protocol.trans h.relinked.protocol
  ends := by
    rintro n (rfl | rfl)
    · obtain ⟨encounters, heq⟩ := h.ends ha (.inl rfl)
      exact ⟨na, encounters, ha, heq⟩
    · obtain ⟨encounters, heq⟩ := h.ends hb (.inr rfl)
      exact ⟨nb, encounters, hb, heq⟩
  marks id := by
    rw [h.there.quiet.inFlight, h.relinked.inFlight]
    rfl

/-- What the first direction marks is on its way to the other end. -/
theorem awaits_back (h : Meeting now a b ids ids' s s₀ s₁ s₃ o out) (hs : Sane scenario s)
    (ha : s.node? a = some na) (hb : s.node? b = some nb) : Awaits now b a s s₃ where
  protocol := h.back.quiet.protocol.trans
    (h.there.shipped.protocol.trans (h.awaits_there ha hb).protocol)
  ends n hn := by
    rw [h.nodes_back]
    exact (h.awaits_there ha hb).ends n hn.symm
  marks id := by
    rw [h.back.quiet.inFlight, h.there.shipped.inFlight, h.there.quiet.inFlight,
      h.relinked.inFlight]
    refine or_iff_right ?_
    rintro ⟨id', hid', heq⟩
    have hs₁ := h.sane_there hs
    rw [h.there.offered.apart (fun n node hn => (hs₁.nodes n node hn).uncoded)
      (congrArg Shipment.receiver heq)] at hid'
    cases hid'

theorem queue_perm (h : Meeting now a b ids ids' s s₀ s₁ s₃ o out) (hs : Sane scenario s)
    (ha : s.node? a = some na) (hb : s.node? b = some nb) :
    out.2.queue.toList.Perm
      (s.transfers now a b 1 ids ++ (s.transfers now b a 1 ids' ++ s.queue.toList)) := by
  have hthere := (Event.Queue.insertAll_eq_ok h.there.inserted (h.sane_there hs).sound).1
  have hback := (Event.Queue.insertAll_eq_ok h.back.inserted (h.sane_back hs).sound).1
  rw [transfers_congr (h.awaits_there ha hb).protocol, h.there.quiet.queue, h.relinked.queue]
    at hthere
  rw [transfers_congr (h.awaits_back hs ha hb).protocol, h.back.quiet.queue] at hback
  exact (hback.trans (hthere.append_left _)).trans (List.perm_append_comm_assoc _ _ _)

end Meeting

/--
On a trace without transfers of its own, a contact that opens a closed link offers in both
directions what `Sends` says, no packet twice, and the `k`-th packet of a direction is transferred
`k` transmission times later. Neither end loses or gains anything apart from what has expired, and
the other nodes stay as they are.
-/
theorem offers_sound (hx : shipments trace.events = []) (h : Reachable scenario trace s)
    {q : Event.Queue} (hd : s.due? = some (⟨now, .contactUp a b⟩, q)) (ha : s.node? a = some na)
    (hb : s.node? b = some nb) (hclosed : s.timesOpen a b = 0) :
    let out := (process ⟨now, .contactUp a b⟩ q).run s
    ∃ tx rx ids ids', out.2.node? a = some tx ∧ out.2.node? b = some rx ∧
      Sends now a b tx rx ids s out.1 ∧ Sends now b a rx tx ids' s out.1 ∧ (ids ++ ids').Nodup ∧
      out.2.queue.toList.Perm
        (s.transfers now a b 1 ids ++ (s.transfers now b a 1 ids' ++ q.toList)) ∧
      ∀ n node, s.node? n = some node → ∃ encounters, out.2.node? n = some
        (if n = a ∨ n = b then { cleared now node with encounters := encounters } else node) := by
  intro out
  have hs := h.sane.taken hd
  have hmatched := h.matched hx
  have hafter : Reachable scenario trace out.2 := h.event hd
  obtain ⟨s₀, s₁, s₃, o, ids, ids', hm⟩ :=
    contactUp_meeting (s := s.taken ⟨now, .contactUp a b⟩ q) hs.sound now ha hb hclosed
  replace hm : Meeting now a b ids ids' (s.taken ⟨now, .contactUp a b⟩ q) s₀ s₁ s₃ o out := hm
  have hthere := hm.awaits_there ha hb
  have hback := hm.awaits_back hs ha hb
  obtain ⟨encounters, htx⟩ := hm.ends ha (.inl rfl)
  obtain ⟨encounters', hrx⟩ := hm.ends hb (.inr rfl)
  have htx' := (hm.nodes a).trans htx
  have hrx' := (hm.nodes b).trans hrx
  -- Taking out the event has changed nothing that a direction depends on.
  have hsends := hm.there.sends (s := s) (hm.sane_there hs)
    ⟨hthere.protocol, hthere.ends, hthere.marks⟩ hmatched htx hrx (hafter.integrity htx')
    hm.through
  have hsends' := hm.back.sends (s := s) (hm.sane_back hs)
    ⟨hback.protocol, hback.ends, hback.marks⟩ hmatched ((hm.nodes_back b).trans hrx)
    ((hm.nodes_back a).trans htx) (hafter.integrity hrx') id
  refine ⟨_, _, ids, ids', htx', hrx', hsends, hsends', ?_, hm.queue_perm hs ha hb, ?_⟩
  · refine List.nodup_append.mpr ⟨hm.there.offered.nodup, hm.back.offered.nodup, ?_⟩
    rintro id hid _ hid' rfl
    exact (hsends.lacking id hid).not_back (hsends'.lacking id hid')
  · intro n node hn
    obtain ⟨encounters, heq⟩ := clearedAt_greeted now a b n node
    have hn' : (s.taken ⟨now, .contactUp a b⟩ q).node? n = some node := hn
    refine ⟨encounters, ?_⟩
    rw [hm.nodes, hm.nodes_there, hn', ← heq]
    rfl

end Simulator

/-- Three nodes that pass packets, the newest one first, to whoever has met the destination more. -/
def Scenario.uphill : Scenario :=
  { Scenario.trio with
    policies := { eviction := ⟨.front, true⟩, scheduling := .lifo, admission := .admitAll }
    protocol :=
      { forwarding := .greedy, transmissionTime := ⟨1.0⟩, historyWindow := ⟨500.0⟩ } }

/-- A node with two packets meets another one, which has met their destination. -/
def Trace.uphill : Trace where
  events :=
    [⟨⟨1.0⟩, .contactUp ⟨1⟩ ⟨2⟩⟩, ⟨⟨2.0⟩, .contactDown ⟨1⟩ ⟨2⟩⟩,
      ⟨⟨2.5⟩, .generation ⟨0⟩ ⟨2⟩ ⟨0⟩ true⟩, ⟨⟨3.0⟩, .generation ⟨0⟩ ⟨2⟩ ⟨1⟩ true⟩,
      ⟨⟨4.0⟩, .contactUp ⟨0⟩ ⟨1⟩⟩]
  contacts := 2
  packets := 2

namespace Simulator

/-- The packets go one way, to arrive one second after the other, and nothing goes the other way. -/
theorem uphill_offered : shipments Trace.uphill.events = [] ∧
    ∃ s q, Reachable Scenario.uphill Trace.uphill s ∧
    s.due? = some (⟨⟨4.0⟩, .contactUp ⟨0⟩ ⟨1⟩⟩, q) ∧ s.timesOpen ⟨0⟩ ⟨1⟩ = 0 ∧
    let out := (process ⟨⟨4.0⟩, .contactUp ⟨0⟩ ⟨1⟩⟩ q).run s
    ∃ tx rx, out.2.node? ⟨0⟩ = some tx ∧ out.2.node? ⟨1⟩ = some rx ∧
      Sends ⟨4.0⟩ ⟨0⟩ ⟨1⟩ tx rx [⟨1⟩, ⟨0⟩] s out.1 ∧ Sends ⟨4.0⟩ ⟨1⟩ ⟨0⟩ rx tx [] s out.1 ∧
      out.2.queue.toList = [⟨⟨5.0⟩, .transmission ⟨0⟩ ⟨1⟩ ⟨1⟩ true⟩,
        ⟨⟨6.0⟩, .transmission ⟨0⟩ ⟨1⟩ ⟨0⟩ true⟩] := by
  have hfound := exists_reachable Scenario.uphill Trace.uphill 4
    (fun s => s.due?.any fun x => decide (x.1 = (⟨⟨4.0⟩, .contactUp ⟨0⟩ ⟨1⟩⟩ : Event) ∧
      (s.node? ⟨0⟩).isSome = true ∧ (s.node? ⟨1⟩).isSome = true ∧ s.timesOpen ⟨0⟩ ⟨1⟩ = 0 ∧
      x.2.toList = [] ∧ ((process x.1 x.2).run s).2.queue.toList =
        [⟨⟨5.0⟩, .transmission ⟨0⟩ ⟨1⟩ ⟨1⟩ true⟩, ⟨⟨6.0⟩, .transmission ⟨0⟩ ⟨1⟩ ⟨0⟩ true⟩]))
    (by decide +kernel)
  obtain ⟨s, hs, hp⟩ := hfound
  obtain ⟨⟨e, q⟩, hd, hx⟩ := (Option.any_eq_true _ _).mp hp
  obtain ⟨rfl, ha, hb, hclosed, hbefore, hafter⟩ := of_decide_eq_true hx
  obtain ⟨na, ha⟩ := Option.isSome_iff_exists.mp ha
  obtain ⟨nb, hb⟩ := Option.isSome_iff_exists.mp hb
  refine ⟨rfl, s, q, hs, hd, hclosed, ?_⟩
  obtain ⟨tx, rx, ids, ids', htx, hrx, hthere, hback, -, hqueue, -⟩ :=
    offers_sound rfl hs hd ha hb hclosed
  rw [hafter, hbefore, List.append_nil] at hqueue
  -- Two transfers have been queued, and the sender of both is the node that has met nobody.
  have hnone : ids' = [] := by
    cases ids' with
    | nil => rfl
    | cons id rest =>
      rw [transfers_cons] at hqueue
      have hmem := hqueue.mem_iff.mpr (List.mem_append_right _ List.mem_cons_self)
      simp at hmem
  subst hnone
  obtain ⟨first, second, rfl⟩ : ∃ first second, ids = [first, second] := by
    have hlength := hqueue.length_eq
    simp only [transfers, List.mapIdx_nil, List.append_nil, List.length_mapIdx] at hlength
    exact List.length_eq_two.mp hlength.symm
  -- They differ in when they arrive.
  have hearly : s.sentAt ⟨4.0⟩ 1 = ⟨5.0⟩ := by
    rw [sentAt, hs.sane.protocol]
    decide +kernel
  have hlate : s.sentAt ⟨4.0⟩ 2 = ⟨6.0⟩ := by
    rw [sentAt, hs.sane.protocol]
    decide +kernel
  have hapart : (⟨5.0⟩ : Time) ≠ ⟨6.0⟩ := by decide +kernel
  rw [transfers_cons, transfers_cons, hearly, hlate] at hqueue
  have hfirst := hqueue.mem_iff.mpr List.mem_cons_self
  have hsecond := hqueue.mem_iff.mpr (List.mem_cons_of_mem _ List.mem_cons_self)
  obtain rfl : first = ⟨1⟩ := by simpa [hapart] using hfirst
  obtain rfl : second = ⟨0⟩ := by simpa [hapart.symm] using hsecond
  exact ⟨tx, rx, htx, hrx, hthere, hback, hafter⟩

end Simulator

end OppNet
