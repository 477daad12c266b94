import OppNet.Proofs.Simulator.Exclusive

/-!
# OppNet.Proofs.Simulator.Coverage

What a new contact leaves out. Under epidemic forwarding and without admission control, each end
offers everything that the other lacks, unless a transfer of it is marked. A mark stays when its
transfer is aborted, until the time at which the transfer would have ended, and so a link that is
opened again meanwhile withholds the packet.

* `Reachable.marked`: a marked transfer is pending, aborted or not.
* `offer_complete`: one direction queues whatever is of use and not marked.
* `offered_iff`: a packet that the receiver lacks is offered exactly if it is not marked.
-/

namespace OppNet.Simulator

variable {now : Time} {s s' : Simulator} {es : List Event} {scenario : Scenario} {trace : Trace}

/-! ### Marks -/

/-- Every mark is that of a pending transfer to an existing node. -/
def Marked (es : List Event) (s : Simulator) : Prop :=
  ∀ x ∈ s.inFlight, s.node? x.receiver ≠ none ∧ x ∈ shipments es

theorem Marked.exchanged {done : Option Shipment} {new : List Shipment} (h : Marked es s)
    (hes : shipments es = done.toList ++ shipments s.queue.toList)
    (hx : Exchanged done new s s') : Marked s'.queue.toList s' := by
  intro x hmem
  rw [hx.pending.mem_iff, List.mem_append, ne_eq, hx.nodes]
  rcases (hx.marks x).mp hmem with hnew | ⟨hold, hnone⟩
  · exact ⟨hx.receivers x hnew, .inl hnew⟩
  · obtain ⟨hnode, hship⟩ := h x hold
    rw [hes, List.mem_append, Option.mem_toList] at hship
    exact ⟨hnode, .inr (hship.resolve_left fun heq => hnode (hnone heq))⟩

theorem Reachable.marked (h : Reachable scenario trace s) : Marked s.queue.toList s := by
  induction h with
  | start h =>
    intro x hx
    rw [(fresh_of_ofTrace h).inFlight] at hx
    exact absurd hx Std.TreeSet.not_mem_emptyc
  | @event s e q h hd ih =>
    rw [(due?_eq_some hd).1] at ih
    have htaken : Marked (e :: q.toList) (s.taken e q) := ih
    obtain ⟨_, hexchanged⟩ := (h.handled hd).exchanged (h.sane.taken hd)
    exact htaken.exchanged (shipments_cons e q.toList) hexchanged
  | @finish s _ _ ih => exact ih.exchanged rfl (.of_quiet (quiet_sweepAll s.stop s))

/-! ### Offers -/

/-- One node has a packet that another one lacks, once both have been swept. -/
structure Lacks (now : Time) (sender receiver : NodeId) (id : PacketId) (s : Simulator) : Prop where
  sender : ∃ tx, s.node? sender = some tx ∧ id ∈ (tx.buffer.sweep now).liveIds
  receiver : ∃ rx, s.node? receiver = some rx ∧ id ∉ (rx.buffer.sweep now).liveIds ∧
    rx.hasReceived id = false

namespace Lacks

variable {sender receiver : NodeId} {id : PacketId}

theorem of_quiet (h : Lacks now sender receiver id s) (hq : Quiet now s s') :
    Lacks now sender receiver id s' := by
  obtain ⟨tx, htx, hlive⟩ := h.sender
  obtain ⟨rx, hrx, hnot, hold⟩ := h.receiver
  obtain ⟨tx', htx', hkept⟩ := hq.nodes _ _ htx
  obtain ⟨rx', hrx', hkept'⟩ := hq.nodes _ _ hrx
  refine ⟨⟨tx', htx', by rw [hkept.buffer.living]; exact hlive⟩, rx', hrx', ?_, ?_⟩
  · rw [hkept'.buffer.living]
    exact hnot
  · rw [Node.hasReceived, hkept'.received]
    exact hold

/-- Of two nodes that differ about a packet, one has it. -/
theorem not_back (h : Lacks now sender receiver id s) : ¬ Lacks now receiver sender id s := by
  intro h'
  obtain ⟨tx, htx, hlive⟩ := h.sender
  obtain ⟨tx', htx', hnot, _⟩ := h'.receiver
  cases htx.symm.trans htx'
  exact hnot hlive

theorem of_same_nodes (h : Lacks now sender receiver id s) (hn : s'.nodes = s.nodes) :
    Lacks now sender receiver id s' := by
  have hnodes : ∀ n, s'.node? n = s.node? n := fun n => by rw [node?, node?, hn]
  exact ⟨by rw [hnodes]; exact h.sender, by rw [hnodes]; exact h.receiver⟩

instance : Decidable (Lacks now sender receiver id s) :=
  decidable_of_iff
    ((s.node? sender).any (fun tx => decide (id ∈ (tx.buffer.sweep now).liveIds)) = true ∧
      (s.node? receiver).any (fun rx => decide (id ∉ (rx.buffer.sweep now).liveIds ∧
        rx.hasReceived id = false)) = true) (by
    simp only [Option.any_eq_true, decide_eq_true_eq]
    exact ⟨fun h => ⟨h.1, h.2⟩, fun h => ⟨h.sender, h.receiver⟩⟩)

end Lacks

/-- One direction of a contact queues all that is of use and not marked. -/
theorem offer_complete {sender receiver : NodeId} {id : PacketId} (hs : Sane scenario s)
    (hf : scenario.protocol.forwarding = .epidemic)
    (hp : scenario.policies.admission = .admitAll) (h : Lacks now sender receiver id s)
    (hmark : (⟨receiver, id⟩ : Shipment) ∉ s.inFlight)
    (hok : ((offer now sender receiver).run s).1 = .ok ()) :
    ⟨receiver, id⟩ ∈ underway ((offer now sender receiver).run s).2.queue.toList := by
  obtain ⟨tx₀, htx₀, hlive₀⟩ := h.sender
  obtain ⟨rx₀, hrx₀, hnot₀, hold₀⟩ := h.receiver
  obtain ⟨s₁, tx, rx, hready, hcases⟩ := offer_cases now htx₀ hrx₀
  have hs₁ := hs.of_quiet hready.quiet
  have h₁ := h.of_quiet hready.quiet
  have hlive : id ∈ tx.buffer.liveIds := by
    obtain ⟨tx', htx', hlive⟩ := h₁.sender
    obtain rfl : tx = tx' := Option.some_inj.mp (hready.sender.symm.trans htx')
    rwa [hready.settledSender] at hlive
  have hspare : s₁.isSpared rx id = false := by
    obtain ⟨rx', hrx', hnot, hold⟩ := h₁.receiver
    obtain rfl : rx = rx' := Option.some_inj.mp (hready.receiver.symm.trans hrx')
    rw [hready.settledReceiver] at hnot
    rw [hs₁.isSpared_eq_false hrx', hready.quiet.inFlight]
    exact ⟨hmark, hnot, hold⟩
  have hepidemic : s₁.protocol.forwarding = .epidemic := by rw [hs₁.protocol]; exact hf
  have hadmit : tx.admission = .admitAll := by
    rw [(hs₁.nodes _ _ hready.sender).admission]; exact hp
  obtain ⟨i, hi, rfl⟩ := exists_worthOffering now hepidemic hlive hspare
  have hne : s₁.worthOffering now tx rx ≠ [] := List.ne_nil_of_mem hi
  rcases hcases with ⟨hempty, _⟩ | ⟨_, choice, hchoice, ⟨f, _, hrun⟩ |
    ⟨⟨result, rfl, hnone⟩, _⟩ | ⟨count, ids, lines, rfl, hrun⟩⟩
  · exact absurd hempty hne
  · rw [hrun] at hok
    cases hok
  · obtain ⟨count, ids, rfl, _⟩ := choose_admitAll hne hadmit hchoice
    exact absurd rfl (hnone count ids)
  · rw [hrun] at hok ⊢
    obtain ⟨count', ids', heq, hall⟩ := choose_admitAll hne hadmit hchoice
    cases heq
    obtain ⟨sent, _, hship, _, ⟨_, rfl⟩ | ⟨herr, _⟩⟩ := queueAll_outcome
      (s := { s₁ with journal := lines }) hs₁.sound now sender receiver 1 ids
    · rw [hship.underway_perm.mem_iff, List.mem_append]
      exact .inl (List.mem_map_of_mem (hall i hi))
    · rw [herr] at hok
      cases hok

theorem underway_offer {sender receiver : NodeId} {tx rx : Node} (hs : Sane scenario s)
    (now : Time) (htx : s.node? sender = some tx) (hrx : s.node? receiver = some rx)
    {x : Shipment} (h : x ∈ underway s.queue.toList) :
    x ∈ underway ((offer now sender receiver).run s).2.queue.toList := by
  obtain ⟨s₁, ids, hq, _, hship⟩ := offer_outcome hs.sound now htx hrx
  rw [hship.underway_perm.mem_iff, hq.queue, List.mem_append]
  exact .inr h

theorem not_underway_of_shipped {sender receiver : NodeId} {ids : List PacketId} {x : Shipment}
    (hs : Sane scenario s) (ho : Offered sender receiver ids s)
    (hship : Shipped sender receiver ids s s') (hx : x ∈ s.inFlight)
    (h : x ∉ underway s.queue.toList) : x ∉ underway s'.queue.toList := by
  rw [hship.underway_perm.mem_iff, List.mem_append, not_or]
  refine ⟨fun hmem => ?_, h⟩
  obtain ⟨id, hid, rfl⟩ := List.mem_map.mp hmem
  obtain ⟨_, rx, _, hrx, _, hspare⟩ := ho.source id hid
  exact ((hs.isSpared_eq_false hrx).mp hspare).1 hx

/-- A contact revives no transfer that is marked. -/
theorem Handled.withheld {a b : NodeId} {x : Shipment} (hs : Sane scenario s)
    (hh : Handled now (.contactUp a b) s s') (hx : x ∈ s.inFlight)
    (h : x ∉ underway s.queue.toList) : x ∉ underway s'.queue.toList := by
  cases hh with
  | quiet _ hq => rw [hq.queue]; exact h
  | overlap => exact h
  | opened links contacts h₁ ho h₂ h₃ ho' h₄ =>
    have hs₁ := (hs.relinked links contacts).of_quiet h₁
    have hs₃ := (hs₁.of_shipped h₂).of_quiet h₃
    have hx₁ : x ∈ _ := h₁.inFlight ▸ hx
    have hx₃ : x ∈ _ := h₃.inFlight ▸ (h₂.inFlight x).mpr (.inr hx₁)
    have hn₁ : x ∉ underway _ := h₁.queue ▸ h
    have hn₂ := not_underway_of_shipped hs₁ ho h₂ hx₁ hn₁
    exact not_underway_of_shipped hs₃ ho' h₄ hx₃ (h₃.queue ▸ hn₂)

/-- A contact that opens its link and does not fail offers all that is of use and not marked. -/
theorem contactUp_complete {a b sender receiver : NodeId} {id : PacketId} (hs : Sane scenario s)
    (hf : scenario.protocol.forwarding = .epidemic)
    (hp : scenario.policies.admission = .admitAll) (hclosed : s.timesOpen a b = 0)
    (hok : ((contactUp now a b).run s).1 = .ok ())
    (hends : (sender = a ∧ receiver = b) ∨ (sender = b ∧ receiver = a))
    (h : Lacks now sender receiver id s) (hmark : (⟨receiver, id⟩ : Shipment) ∉ s.inFlight) :
    ⟨receiver, id⟩ ∈ underway ((contactUp now a b).run s).2.queue.toList := by
  rcases contactUp_cases now a b s with ⟨_, n, hrun⟩ | ⟨hopen, _⟩ |
    ⟨_, s₁, na, nb, ha, hb, hquiet, hrun⟩
  · rw [hrun] at hok
    cases hok
  · exact absurd hclosed hopen
  · have hs₁ := (hs.relinked _ _).of_quiet hquiet
    have h₀ : Lacks now sender receiver id (s.relinked (s.links.insert (Link.between a b) 1)
        (s.traffic.contacts + 1)) := h.of_same_nodes rfl
    have h₁ := h₀.of_quiet hquiet
    have hmark₁ : (⟨receiver, id⟩ : Shipment) ∉ s₁.inFlight := hquiet.inFlight ▸ hmark
    obtain ⟨na₁, ha₁, _⟩ := hquiet.nodes a na ha
    obtain ⟨nb₁, hb₁, _⟩ := hquiet.nodes b nb hb
    obtain ⟨s₂, ids, hq, _, hship⟩ := offer_outcome hs₁.sound now ha₁ hb₁
    cases hfirst : (offer now a b).run s₁ with
    | mk res s₃ =>
      rw [hfirst] at hship
      cases res with
      | error f =>
        rw [hrun, run_bind_error hfirst] at hok
        cases hok
      | ok u =>
        rw [hrun, run_bind_ok hfirst] at hok ⊢
        have hs₃ := (hs₁.of_quiet hq).of_shipped hship
        have h₃ : Lacks now sender receiver id s₃ := (h₁.of_quiet hq).of_same_nodes hship.nodes
        obtain ⟨na₃, ha₃⟩ := Option.ne_none_iff_exists'.mp (hs₃.node?_ne_none.mpr
          (hs₁.node?_ne_none.mp (by rw [ha₁]; nofun)))
        obtain ⟨nb₃, hb₃⟩ := Option.ne_none_iff_exists'.mp (hs₃.node?_ne_none.mpr
          (hs₁.node?_ne_none.mp (by rw [hb₁]; nofun)))
        rcases hends with ⟨rfl, rfl⟩ | ⟨rfl, rfl⟩
        · -- The first direction queues it, and the second one leaves it there.
          have hfound := offer_complete hs₁ hf hp h₁ hmark₁ (by rw [hfirst])
          rw [hfirst] at hfound
          exact underway_offer hs₃ now hb₃ ha₃ hfound
        · -- A mark set by the first direction stands for a transfer that it has queued.
          by_cases hmark₃ : (⟨receiver, id⟩ : Shipment) ∈ s₃.inFlight
          · rcases (hship.inFlight _).mp hmark₃ with ⟨id', hid', heq⟩ | hold
            · refine underway_offer hs₃ now hb₃ ha₃ ?_
              rw [hship.underway_perm.mem_iff, heq, List.mem_append]
              exact .inl (List.mem_map_of_mem hid')
            · rw [hq.inFlight] at hold
              exact absurd hold hmark₁
          · exact offer_complete hs₃ hf hp h₃ hmark₃ hok

/--
When a contact opens a closed link under epidemic forwarding and without admission control, a
packet that one end has, the other lacks and nobody is bringing to it has a valid transfer to it
afterwards exactly if none is marked; a marked one is still pending, and so has been aborted.
-/
theorem offered_iff (h : Reachable scenario trace s)
    (hf : scenario.protocol.forwarding = .epidemic)
    (hp : scenario.policies.admission = .admitAll) {a b : NodeId} {q : Event.Queue}
    (hd : s.due? = some (⟨now, .contactUp a b⟩, q)) (hclosed : s.timesOpen a b = 0)
    (hok : ((process ⟨now, .contactUp a b⟩ q).run s).1 = .ok ()) {sender receiver : NodeId}
    (hends : (sender = a ∧ receiver = b) ∨ (sender = b ∧ receiver = a)) {id : PacketId}
    (hlacks : Lacks now sender receiver id s)
    (hnone : ⟨receiver, id⟩ ∉ underway s.queue.toList) :
    (⟨receiver, id⟩ ∈ underway ((process ⟨now, .contactUp a b⟩ q).run s).2.queue.toList ↔
        (⟨receiver, id⟩ : Shipment) ∉ s.inFlight) ∧
      ((⟨receiver, id⟩ : Shipment) ∈ s.inFlight → ⟨receiver, id⟩ ∈ shipments s.queue.toList) := by
  refine ⟨⟨fun hfound hmark => ?_, fun hmark => ?_⟩, fun hmark => (h.marked _ hmark).2⟩
  · have htaken := h.sane.taken hd
    refine (h.handled hd).withheld htaken hmark (fun hx => hnone ?_) hfound
    rw [(due?_eq_some hd).1]
    exact ((List.sublist_cons_self _ _).filterMap _).subset hx
  · exact contactUp_complete (h.sane.taken hd) hf hp hclosed hok hends
      (hlacks.of_same_nodes rfl) hmark

/-- The second contact of two nodes, while the transfer that the first one cut short is marked. -/
theorem exists_reopened : ∃ s q, Reachable Scenario.pair Trace.reopened s ∧
    s.due? = some (⟨⟨7.0⟩, .contactUp ⟨0⟩ ⟨1⟩⟩, q) ∧ s.timesOpen ⟨0⟩ ⟨1⟩ = 0 ∧
    ((process ⟨⟨7.0⟩, .contactUp ⟨0⟩ ⟨1⟩⟩ q).run s).1 = .ok () ∧
    Lacks ⟨7.0⟩ ⟨0⟩ ⟨1⟩ ⟨0⟩ s ∧ ⟨⟨1⟩, ⟨0⟩⟩ ∉ underway s.queue.toList ∧
    (⟨⟨1⟩, ⟨0⟩⟩ : Shipment) ∈ s.inFlight := by
  obtain ⟨s, hs, hp⟩ := exists_reachable Scenario.pair Trace.reopened 3
    (fun s => s.due?.any fun x => decide (x.1 = (⟨⟨7.0⟩, .contactUp ⟨0⟩ ⟨1⟩⟩ : Event) ∧
      s.timesOpen ⟨0⟩ ⟨1⟩ = 0 ∧ ((process x.1 x.2).run s).1 = .ok () ∧
      Lacks ⟨7.0⟩ ⟨0⟩ ⟨1⟩ ⟨0⟩ s ∧ (⟨⟨1⟩, ⟨0⟩⟩ : Shipment) ∉ underway s.queue.toList ∧
      (⟨⟨1⟩, ⟨0⟩⟩ : Shipment) ∈ s.inFlight)) (by decide +kernel)
  obtain ⟨⟨e, q⟩, hd, hx⟩ := (Option.any_eq_true _ _).mp hp
  obtain ⟨rfl, hrest⟩ := of_decide_eq_true hx
  exact ⟨s, q, hs, hd, hrest⟩

/-- The packet is lacking, nobody is bringing it, and still the new contact does not offer it. -/
theorem reopened_withholds : ∃ s q, Reachable Scenario.pair Trace.reopened s ∧
    Scenario.pair.protocol.forwarding = .epidemic ∧
    Scenario.pair.policies.admission = .admitAll ∧
    s.due? = some (⟨⟨7.0⟩, .contactUp ⟨0⟩ ⟨1⟩⟩, q) ∧ s.timesOpen ⟨0⟩ ⟨1⟩ = 0 ∧
    ((process ⟨⟨7.0⟩, .contactUp ⟨0⟩ ⟨1⟩⟩ q).run s).1 = .ok () ∧
    Lacks ⟨7.0⟩ ⟨0⟩ ⟨1⟩ ⟨0⟩ s ∧ ⟨⟨1⟩, ⟨0⟩⟩ ∉ underway s.queue.toList ∧
    ⟨⟨1⟩, ⟨0⟩⟩ ∉
      underway ((process ⟨⟨7.0⟩, .contactUp ⟨0⟩ ⟨1⟩⟩ q).run s).2.queue.toList := by
  obtain ⟨s, q, hs, hd, hclosed, hok, hlacks, hnone, hmark⟩ := exists_reopened
  have hwithheld := (hs.handled hd).withheld (hs.sane.taken hd) hmark fun hx => hnone (by
    rw [(due?_eq_some hd).1]
    exact ((List.sublist_cons_self _ _).filterMap _).subset hx)
  exact ⟨s, q, hs, rfl, rfl, hd, hclosed, hok, hlacks, hnone, hwithheld⟩

/-- At that contact, the mark decides. -/
theorem reopened_offered_iff : ∃ s q, Reachable Scenario.pair Trace.reopened s ∧
    s.due? = some (⟨⟨7.0⟩, .contactUp ⟨0⟩ ⟨1⟩⟩, q) ∧
    (⟨⟨1⟩, ⟨0⟩⟩ ∈
        underway ((process ⟨⟨7.0⟩, .contactUp ⟨0⟩ ⟨1⟩⟩ q).run s).2.queue.toList ↔
      (⟨⟨1⟩, ⟨0⟩⟩ : Shipment) ∉ s.inFlight) := by
  obtain ⟨s, q, hs, hd, hclosed, hok, hlacks, hnone, _⟩ := exists_reopened
  exact ⟨s, q, hs, hd, (offered_iff hs rfl rfl hd hclosed hok (.inl ⟨rfl, rfl⟩) hlacks hnone).1⟩

end OppNet.Simulator
