import OppNet.Proofs.Simulator.Run

/-!
# OppNet.Proofs.Simulator.Exclusive

No packet is on its way to a node twice. The network keeps this in two places, in the pending
events and in the marks of what is in flight, and three handlers write to both.

* `Exchanged done new s s'`: the transfer `done` has left both places, and the transfers `new` have
  entered both. `Handled.exchanged`: every event comes to that, and brings nothing that is marked.
* `Matched es s`: the marks are exactly the pending transfers, and no two of these are the same.
* `one_transfer_each`: this holds between any two events, on a trace without transfers of its own.
-/

namespace OppNet.Simulator

variable {now : Time} {s s' s'' : Simulator} {es : List Event} {scenario : Scenario} {trace : Trace}
  {done : Option Shipment} {new new' : List Shipment}

/-! ### One event -/

/-- The pending transfers and the marks after an event: one may go, and new ones come. -/
structure Exchanged (done : Option Shipment) (new : List Shipment) (s s' : Simulator) : Prop where
  apart : new.Nodup
  unmarked : ∀ x ∈ new, x ∉ s.inFlight
  receivers : ∀ x ∈ new, s.node? x.receiver ≠ none
  nodes : ∀ n, s'.node? n = none ↔ s.node? n = none
  pending : (shipments s'.queue.toList).Perm (new ++ shipments s.queue.toList)
  /-- A transfer to nobody fails before its mark is taken away. -/
  marks : ∀ x, x ∈ s'.inFlight ↔
    x ∈ new ∨ x ∈ s.inFlight ∧ (done = some x → s.node? x.receiver = none)

namespace Exchanged

theorem of_pending_eq (nodes : ∀ n, s'.node? n = none ↔ s.node? n = none)
    (pending : shipments s'.queue.toList = shipments s.queue.toList)
    (marks : ∀ x, x ∈ s'.inFlight ↔
      x ∈ s.inFlight ∧ (done = some x → s.node? x.receiver = none)) : Exchanged done [] s s' where
  apart := .nil
  unmarked := nofun
  receivers := nofun
  nodes := nodes
  pending := by rw [pending]; exact .refl _
  marks x := by rw [marks]; simp

theorem of_same (nodes : ∀ n, s'.node? n = none ↔ s.node? n = none)
    (pending : shipments s'.queue.toList = shipments s.queue.toList)
    (marks : s'.inFlight = s.inFlight) : Exchanged none [] s s' :=
  of_pending_eq nodes pending fun x => by rw [marks]; simp

theorem of_quiet (h : Quiet now s s') : Exchanged none [] s s' :=
  of_same (fun _ => h.node?_eq_none) (by rw [h.queue]) h.inFlight

theorem of_shipped {sender receiver : NodeId} {ids : List PacketId} (hs : Sane scenario s)
    (ho : Offered sender receiver ids s) (h : Shipped sender receiver ids s s') :
    Exchanged none (ids.map (⟨receiver, ·⟩)) s s' where
  apart := List.pairwise_map.mpr
    (ho.nodup.imp fun hne heq => hne (congrArg Shipment.packet heq))
  unmarked x hx := by
    obtain ⟨id, hid, rfl⟩ := List.mem_map.mp hx
    obtain ⟨_, rx, _, hrx, _, hspare⟩ := ho.source id hid
    exact ((hs.isSpared_eq_false hrx).mp hspare).1
  receivers x hx := by
    obtain ⟨id, hid, rfl⟩ := List.mem_map.mp hx
    obtain ⟨_, rx, _, hrx, _⟩ := ho.source id hid
    rw [hrx]
    exact Option.some_ne_none rx
  nodes n := by rw [node?, node?, h.nodes]
  pending := h.shipments_perm
  marks x := by
    rw [h.inFlight, List.mem_map]
    simp [eq_comm]

/-- What comes later is not marked, and so none of what came before. -/
theorem trans (h : Exchanged none new s s') (h' : Exchanged none new' s' s'') :
    Exchanged none (new' ++ new) s s'' where
  apart := by
    refine List.nodup_append.mpr ⟨h'.apart, h.apart, ?_⟩
    rintro x hx _ hx' rfl
    exact h'.unmarked x hx ((h.marks x).mpr (.inl hx'))
  unmarked x hx hold := by
    rcases List.mem_append.mp hx with hx | hx
    · exact h'.unmarked x hx ((h.marks x).mpr (.inr ⟨hold, nofun⟩))
    · exact h.unmarked x hx hold
  receivers x hx := by
    rcases List.mem_append.mp hx with hx | hx
    · exact fun hnone => h'.receivers x hx ((h.nodes _).mpr hnone)
    · exact h.receivers x hx
  nodes n := (h'.nodes n).trans (h.nodes n)
  pending := by
    rw [List.append_assoc]
    exact h'.pending.trans (h.pending.append_left new')
  marks x := by
    rw [h'.marks, h.marks, List.mem_append, or_assoc]
    simp

theorem of_unmarked {receiver : NodeId} {packet : PacketId} (hrx : s.node? receiver ≠ none)
    (nodes : ∀ n, s'.node? n = none ↔ s.node? n = none) (queue : s'.queue = s.queue)
    (marks : s'.inFlight = (s.unmarked receiver packet).inFlight) :
    Exchanged (some ⟨receiver, packet⟩) [] s s' := by
  refine of_pending_eq nodes (by rw [queue]) fun x => ?_
  rw [marks]
  change x ∈ s.inFlight.erase _ ↔ _
  rw [Std.TreeSet.mem_erase, and_comm]
  refine and_congr_right fun _ => ⟨?_, ?_⟩
  · rintro hne heq
    cases heq
    exact absurd Std.ReflCmp.compare_self hne
  · intro h heq
    obtain rfl := Std.LawfulEqCmp.eq_of_compare heq
    exact hrx (h rfl)

end Exchanged

/-- Every event takes away the transfer that it is, if any, and brings what is not marked. -/
theorem Handled.exchanged {k : EventKind} (hs : Sane scenario s) (h : Handled now k s s') :
    ∃ new, Exchanged k.shipment? new s s' := by
  cases h with
  | quiet hk hq => exact ⟨[], hk ▸ .of_quiet hq⟩
  | overlap hk => exact ⟨[], hk ▸ .of_same (fun _ => .rfl) rfl rfl⟩
  | opened links contacts h₁ ho h₂ h₃ ho' h₄ =>
    have hs₁ := (hs.relinked links contacts).of_quiet h₁
    have hs₃ := (hs₁.of_shipped h₂).of_quiet h₃
    have h₀ : Exchanged none [] s (s.relinked links contacts) := .of_same (fun _ => .rfl) rfl rfl
    exact ⟨_, (((h₀.trans (.of_quiet h₁)).trans (.of_shipped hs₁ ho h₂)).trans
      (.of_quiet h₃)).trans (.of_shipped hs₃ ho' h₄)⟩
  | @closed a b _ links aborted =>
    refine ⟨[], .of_same (fun _ => .rfl) ?_ rfl⟩
    change shipments (s.queue.invalidateLink a b).2.toList = _
    rw [(s.queue.toList_invalidateLink a b).2.1, shipments_breakLink]
  | @stray sender receiver packet valid _ hnone =>
    refine ⟨[], .of_pending_eq (fun _ => .rfl) rfl fun x => ?_⟩
    refine (and_iff_left ?_).symm
    rintro heq
    cases heq
    exact hnone
  | idle hrx hq => exact ⟨[], .of_unmarked hrx (fun _ => hq.node?_eq_none) hq.queue hq.inFlight⟩
  | @moved sender receiver packet _ _ hm =>
    obtain ⟨_, _, rx, _, _, _, _, hrx, _⟩ := hm.course
    refine ⟨[], .of_unmarked ?_ (fun _ => hm.advanced.node?_eq_none) hm.steady.queue
      hm.steady.inFlight⟩
    rw [show s.node? receiver = some rx from hrx]
    exact Option.some_ne_none rx
  | born hst ha => exact ⟨[], .of_same (fun _ => ha.node?_eq_none) (by rw [hst.queue]) hst.inFlight⟩

/-! ### Every event -/

/-- The marks are the pending transfers, which go to existing nodes and are all different. -/
structure Matched (es : List Event) (s : Simulator) : Prop where
  apart : (shipments es).Nodup
  marks : ∀ x, x ∈ s.inFlight ↔ x ∈ shipments es
  receivers : ∀ x ∈ shipments es, s.node? x.receiver ≠ none

/-- An exchange keeps the match between the marks and what is pending, `done` included. -/
theorem Matched.exchanged (h : Matched es s)
    (hes : shipments es = done.toList ++ shipments s.queue.toList)
    (hx : Exchanged done new s s') : Matched s'.queue.toList s' := by
  obtain ⟨apart, marks, receivers⟩ := h
  rw [hes] at apart marks receivers
  obtain ⟨_, hrest, hdone⟩ := List.nodup_append.mp apart
  have hpending : ∀ x, x ∈ shipments s'.queue.toList ↔ x ∈ new ∨ x ∈ shipments s.queue.toList :=
    fun x => hx.pending.mem_iff.trans List.mem_append
  constructor
  · rw [hx.pending.nodup_iff]
    refine List.nodup_append.mpr ⟨hx.apart, hrest, ?_⟩
    rintro x hnew _ hold rfl
    exact hx.unmarked x hnew ((marks x).mpr (List.mem_append_right _ hold))
  · intro x
    rw [hx.marks, hpending, marks, List.mem_append, Option.mem_toList]
    refine or_congr_right ⟨?_, fun hold => ⟨.inr hold, fun heq => ?_⟩⟩
    · rintro ⟨heq | hold, hnone⟩
      · exact absurd (hnone heq) (receivers x (List.mem_append_left _ (Option.mem_toList.mpr heq)))
      · exact hold
    · exact absurd rfl (hdone x (Option.mem_toList.mpr heq) x hold)
  · intro x hmem hnone
    rcases (hpending x).mp hmem with hnew | hold
    · exact hx.receivers x hnew ((hx.nodes _).mp hnone)
    · exact receivers x (List.mem_append_right _ hold) ((hx.nodes _).mp hnone)

theorem Fresh.matched (h : Fresh scenario trace s) (hx : shipments trace.events = []) :
    Matched s.queue.toList s := by
  have hperm : (shipments s.queue.toList).Perm (shipments trace.events) := h.pending.filterMap _
  have hnone : shipments s.queue.toList = [] := List.perm_nil.mp (hx ▸ hperm)
  refine ⟨hnone ▸ .nil, fun x => ?_, fun x hmem => absurd (hnone ▸ hmem) List.not_mem_nil⟩
  rw [h.inFlight, hnone]
  exact iff_of_false Std.TreeSet.not_mem_emptyc List.not_mem_nil

theorem Reachable.matched (h : Reachable scenario trace s) (hx : shipments trace.events = []) :
    Matched s.queue.toList s := by
  induction h with
  | start h => exact (fresh_of_ofTrace h).matched hx
  | @event s e q h hd ih =>
    rw [(due?_eq_some hd).1] at ih
    have htaken : Matched (e :: q.toList) (s.taken e q) := ⟨ih.apart, ih.marks, ih.receivers⟩
    obtain ⟨_, hexchanged⟩ := (h.handled hd).exchanged (h.sane.taken hd)
    exact htaken.exchanged (shipments_cons e q.toList) hexchanged
  | @finish s _ _ ih => exact ih.exchanged rfl (.of_quiet (quiet_sweepAll s.stop s))

/--
On a trace without transfers of its own, no two pending transfers, valid or aborted, carry one
packet to one receiver, and what is in flight is exactly what they carry.
-/
theorem one_transfer_each (hx : shipments trace.events = []) (h : Reachable scenario trace s) :
    (shipments s.queue.toList).Nodup ∧
      ∀ x, x ∈ s.inFlight ↔ x ∈ shipments s.queue.toList :=
  ⟨(h.matched hx).apart, (h.matched hx).marks⟩

/-- The one transfer pending is an aborted one, while its link is open again. -/
theorem reopened_one_transfer : shipments Trace.reopened.events = [] ∧
    ∃ s, Reachable Scenario.pair Trace.reopened s ∧ s.timesOpen ⟨0⟩ ⟨1⟩ = 1 ∧
      shipments s.queue.toList = [⟨⟨1⟩, ⟨0⟩⟩] ∧ underway s.queue.toList = [] ∧
      (shipments s.queue.toList).Nodup ∧
      ((⟨⟨1⟩, ⟨0⟩⟩ : Shipment) ∈ s.inFlight ↔ ⟨⟨1⟩, ⟨0⟩⟩ ∈ shipments s.queue.toList) := by
  obtain ⟨s, hs, hp⟩ := exists_reachable Scenario.pair Trace.reopened 4
    (fun s => decide (s.timesOpen ⟨0⟩ ⟨1⟩ = 1 ∧ shipments s.queue.toList = [⟨⟨1⟩, ⟨0⟩⟩] ∧
      underway s.queue.toList = [])) (by decide +kernel)
  obtain ⟨hopen, hship, hnone⟩ := of_decide_eq_true hp
  obtain ⟨hapart, hmarks⟩ := one_transfer_each rfl hs
  exact ⟨rfl, s, hs, hopen, hship, hnone, hapart, hmarks _⟩

end OppNet.Simulator
