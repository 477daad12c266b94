import OppNet.Proofs.Simulator.Run

/-!
# OppNet.Proofs.Simulator.Upheld

An event is made of few kinds of changes of a network. What each of them keeps, the event keeps.

* `Upheld now k s₀ I`: every change that an event of kind `k` at `now` is made of keeps `I`.
* `Upheld.process`: then the whole event keeps it, whether it fails or not.
-/

namespace OppNet

def Node.inserting (now : Time) (p : Packet) (node : Node) : Node :=
  { node with buffer := (node.buffer.insert now p).2 }

def Node.marking (now : Time) (id : PacketId) (node : Node) : Node :=
  { node with buffer := (node.buffer.markForwarded now id).2 }

def Node.handing (now : Time) (id : PacketId) (other : NodeId) (node : Node) : Node :=
  { node with buffer := (node.buffer.addForwarder now id other).2 }

namespace Simulator

variable {now : Time} {k : EventKind} {n : NodeId} {s s₀ : Simulator}

/-- The totals that tell of packets, and their latencies. -/
def accounts (s : Simulator) : Nat × Nat × Nat × Mean :=
  (s.traffic.generated, s.traffic.delivered, s.traffic.transmitted, s.latency)

def withBirth (s : Simulator) : Simulator :=
  s.counted fun t => { t with generated := t.generated + 1 }

def withTransfer (s : Simulator) : Simulator :=
  s.counted fun t => { t with transmitted := t.transmitted + 1 }

def withDelivery (seconds : Float) (s : Simulator) : Simulator :=
  { s.counted fun t => { t with delivered := t.delivered + 1 } with
    latency := s.latency.record seconds }

/-! ### What an event keeps -/

/--
What an event of kind `k` at `now`, which began in `s₀`, keeps: every change that it is made of
keeps it. A packet is marked as handed on and the receiver noted in one go. Nodes count each other
when a contact begins and at no other time, and what is sent has not expired.
-/
structure Upheld (now : Time) (k : EventKind) (s₀ : Simulator) (I : Simulator → Prop) : Prop where
  aside : ∀ {s s' : Simulator}, I s → s'.nodes = s.nodes → s'.accounts = s.accounts → I s'
  swept : ∀ {s : Simulator} {n : NodeId} {node : Node}, I s → s.node? n = some node →
    I (s.putNode n (node.sweep now))
  met : ∀ {s : Simulator} {n : NodeId} {node : Node} (other : NodeId), I s →
    k.isContactUp = true → s.node? n = some node → I (s.putNode n (node.recordEncounter other))
  again : ∀ {s : Simulator} {n : NodeId} {node : Node} {id : PacketId}, I s →
    s.node? n = some node → node.hasReceived id = true → I (s.putNode n (node.deliver id).2)
  relayed : ∀ {s : Simulator} {n sender : NodeId} {node tx : Node} {p : Packet}, I s →
    s.node? n = some node → s₀.node? sender = some tx → p ∈ tx.buffer.livePackets →
      I (s.putNode n (node.inserting now (p.relayedBy sender)))
  handed : ∀ {s : Simulator} {n : NodeId} {node : Node} {id : PacketId} (other : NodeId), I s →
    s.node? n = some node → (node.buffer.markForwarded now id).1 = .ok () →
      I ((s.putNode n (node.marking now id)).putNode n
        ((silenced (node.marking now id)).handing now id other))
  removed : ∀ {s : Simulator} {n : NodeId} {node : Node} (id : PacketId), I s →
    s.node? n = some node → I (s.putNode n { node with buffer := (node.buffer.remove now id).2 })
  sent : ∀ {s : Simulator} {sender : NodeId} {tx : Node} {p : Packet}, I s →
    s₀.node? sender = some tx → p ∈ (tx.buffer.sweep now).livePackets → I s.withTransfer
  born : ∀ {s : Simulator} {n destination : NodeId} {id : PacketId} {node : Node}, I s →
    k = .generation n destination id true → s.node? n = some node →
      I (s.putNode n (node.inserting now (.generate id n destination now))).withBirth
  delivered : ∀ {s : Simulator} {n sender : NodeId} {node tx : Node} {p : Packet}, I s →
    s.node? n = some node → s₀.node? sender = some tx →
      p ∈ (tx.buffer.sweep now).livePackets → p.destination = n → node.hasReceived p.id = false →
        I ((s.withTransfer.putNode n (node.deliver p.id).2).withDelivery
          (now.since p.created).seconds)

section Parts

variable {α β : Type} {I : Simulator → Prop}

theorem keeps_bind {x : Action α} {g : α → Action β} (hx : I (x.run s).2)
    (hg : ∀ a s', x.run s = (.ok a, s') → I s' → I ((g a).run s').2) : I ((x >>= g).run s).2 := by
  cases hr : x.run s with
  | mk res s₁ =>
    rw [hr] at hx
    cases res with
    | error f =>
      rw [run_bind_error hr]
      exact hx
    | ok a =>
      rw [run_bind_ok hr]
      exact hg a s₁ hr hx

variable (h : I s)
include h

theorem keeps_requireNode (n : NodeId) : I ((requireNode n).run s).2 := by
  cases hn : s.node? n with
  | none =>
    rw [requireNode_run_none hn]
    exact h
  | some node =>
    rw [requireNode_run_some hn]
    exact h

theorem keeps_visit {f : Node → α × Node}
    (hf : ∀ node, s.node? n = some node → I (s.putNode n (f node).2)) :
    I ((visit n f).run s).2 := by
  cases hn : s.node? n with
  | none =>
    rw [visit_run_none hn]
    exact h
  | some node =>
    rw [visit_run_some hn]
    exact hf node hn

theorem keeps_onBuffer {f : Buffer → Buffer.Outcome α}
    (hf : ∀ node, s.node? n = some node →
      I (s.putNode n { node with buffer := (f node.buffer).2 })) :
    I ((onBuffer n f).run s).2 := by
  cases hn : s.node? n with
  | none =>
    rw [onBuffer_run_none hn]
    exact h
  | some node =>
    rw [onBuffer_run_some hn]
    exact hf node hn

theorem keeps_ofExcept (r : Except Fault α) : I ((ofExcept r).run s).2 := by
  cases r with
  | ok a => exact h
  | error f => exact h

end Parts

namespace Upheld

variable {I : Simulator → Prop} (u : Upheld now k s₀ I)
include u

theorem sweepNode (h : I s) (n : NodeId) : I ((sweepNode now n).run s).2 :=
  keeps_visit h fun _ hn => u.swept h hn

theorem sweepAll (h : I s) : I (s.sweepAll now) := by
  unfold Simulator.sweepAll
  refine List.foldlRecOn _ _ h fun s₁ h₁ i _ => ?_
  cases hn : s₁.node? ⟨i⟩ with
  | none => exact h₁
  | some node => exact u.swept h₁ hn

/-- A total that does not tell of packets. -/
theorem counted (h : I s) (g : Traffic → Traffic) (hg : (s.counted g).accounts = s.accounts) :
    I (s.counted g) :=
  u.aside h rfl hg

theorem say (h : I s) (time : Time) (r : Remark) : I ((say time r).run s).2 := u.aside h rfl rfl

/-! ### Contacts -/

theorem queueTransmission (h : I s) (time : Time) (sender receiver : NodeId) (id : PacketId) :
    I ((queueTransmission time sender receiver id).run s).2 := by
  unfold Simulator.queueTransmission
  rw [run_bind_ok (run_get s)]
  refine keeps_bind (keeps_ofExcept h _) fun _ _ _ _ => ?_
  exact u.aside h rfl rfl

theorem queueAll (h : I s) (time : Time) (sender receiver : NodeId) (ids : List PacketId)
    (i : Nat) : I ((queueAll time sender receiver i ids).run s).2 := by
  induction ids generalizing s i with
  | nil => exact h
  | cons id rest ih =>
    unfold Simulator.queueAll
    rw [run_bind_ok (run_get s)]
    refine keeps_bind (u.queueTransmission h _ _ _ _) fun _ _ _ h₁ => ?_
    exact ih h₁ (i + 1)

theorem offer (h : I s) (sender receiver : NodeId) : I ((offer now sender receiver).run s).2 := by
  unfold Simulator.offer
  refine keeps_bind (u.sweepNode h sender) fun _ s₁ _ h₁ => ?_
  refine keeps_bind (u.sweepNode h₁ receiver) fun _ s₂ _ h₂ => ?_
  rw [run_bind_ok (run_get s₂)]
  split
  · dsimp only
    split
    · exact h₂
    · refine keeps_bind (keeps_ofExcept h₂ _) fun _ s₃ _ h₃ => ?_
      split
      · exact h₃
      · exact u.say h₃ now _
      · refine keeps_bind (u.say h₃ now _) fun _ s₄ _ h₄ => ?_
        exact u.queueAll h₄ now sender receiver _ 1
  · exact h₂

theorem contactUp (hk : k.isContactUp = true) (h : I s) (a b : NodeId) :
    I ((contactUp now a b).run s).2 := by
  unfold Simulator.contactUp
  refine keeps_bind (keeps_requireNode h a) fun _ s₁ _ h₁ => ?_
  refine keeps_bind (keeps_requireNode h₁ b) fun _ s₂ _ h₂ => ?_
  have hlinked : I { s₂ with
      links := s₂.links.insert (Link.between a b) (s₂.timesOpen a b + 1) } := u.aside h₂ rfl rfl
  rw [run_bind_ok (run_get s₂), run_bind_ok (run_modify _ _)]
  split
  · rw [run_bind_ok (run_count _ _)]
    have hcounted := u.counted hlinked (fun t => { t with contacts := t.contacts + 1 }) rfl
    refine keeps_bind (keeps_visit hcounted fun _ hn => u.met b hcounted hk hn)
      fun _ s₃ _ h₃ => ?_
    refine keeps_bind (keeps_visit h₃ fun _ hn => u.met a h₃ hk hn) fun _ s₄ _ h₄ => ?_
    refine keeps_bind (u.offer h₄ a b) fun _ s₅ _ h₅ => ?_
    exact u.offer h₅ b a
  · exact hlinked

theorem contactDown (h : I s) (a b : NodeId) : I ((contactDown a b).run s).2 := by
  unfold Simulator.contactDown
  rw [run_bind_ok (run_get s)]
  split
  · exact h
  · exact u.aside h rfl rfl
  · exact u.aside h rfl rfl

/-! ### Packets on their way -/

theorem mark {α : Type} (h : I s) (id : PacketId) (sender receiver : NodeId) {g : Action α}
    (hg : ∀ s', I s' → I (g.run s').2) : I ((do
      onBuffer sender (Buffer.markForwarded now id)
      onBuffer sender (Buffer.addForwarder now id receiver)
      g : Action α).run s).2 := by
  cases hn : s.node? sender with
  | none =>
    rw [run_bind_error (onBuffer_run_none hn _)]
    exact h
  | some node =>
    have hrun := onBuffer_run_some hn (Buffer.markForwarded now id)
    cases hmark : (node.buffer.markForwarded now id).1 with
    | error f =>
      rw [hmark] at hrun
      have hswept : (node.buffer.markForwarded now id).2 = node.buffer.sweep now :=
        Buffer.modify_eq_sweep hmark
      rw [run_bind_error hrun, hswept]
      exact u.swept h hn
    | ok _ =>
      rw [hmark] at hrun
      rw [run_bind_ok hrun]
      have hmarked := node?_putNode_self (index_lt_of_node? hn) (node.marking now id)
      have hhanded := u.handed receiver h hn hmark
      refine keeps_bind ?_ fun _ s₁ _ h₁ => hg s₁ h₁
      change I ((onBuffer sender _).run (s.putNode sender (node.marking now id))).2
      rw [onBuffer_run_some hmarked]
      exact hhanded

section

variable {sender : NodeId} {tx : Node} {p : Packet} (htx : s₀.node? sender = some tx)
  (hp : p ∈ (tx.buffer.sweep now).livePackets)
include htx hp

theorem arrive (h : I s) {receiver : NodeId} (hd : p.destination = receiver) :
    I ((arrive now receiver p).run s.withTransfer).2 := by
  unfold Simulator.arrive
  cases hrx : s.node? receiver with
  | none =>
    have hnone : s.withTransfer.node? receiver = none := hrx
    rw [run_bind_error (visit_run_none hnone _)]
    exact u.sent h htx hp
  | some rx =>
    have hsome : s.withTransfer.node? receiver = some rx := hrx
    rw [run_bind_ok (visit_run_some hsome _)]
    cases hold : rx.hasReceived p.id with
    | true =>
      rw [if_neg (by simp [Node.deliver, hold])]
      exact u.again (u.sent h htx hp) hsome hold
    | false =>
      rw [if_pos (by simp [Node.deliver, hold])]
      exact u.aside (u.delivered h hrx htx hp hd hold) rfl rfl

theorem relay (h : I s) (receiver : NodeId) : I ((relay now sender receiver p).run s).2 := by
  unfold Simulator.relay
  refine keeps_bind (u.sweepNode h receiver) fun _ s₁ _ h₁ => ?_
  rw [run_bind_ok (run_get s₁)]
  split
  · exact h₁
  · split
    · exact h₁
    · have hlive := Buffer.mem_of_mem_livePackets_sweep hp
      exact keeps_onBuffer h₁ fun _ hn => u.relayed h₁ hn htx hlive

theorem handOver (h : I s) (receiver : NodeId) :
    I ((handOver now sender receiver p).run s).2 := by
  unfold Simulator.handOver
  refine u.mark h p.id sender receiver fun s₂ h₂ => ?_
  split
  · rename_i hd
    refine keeps_bind (keeps_visit h₂ fun _ hn => u.removed p.id h₂ hn) fun _ s₃ _ h₃ => ?_
    rw [run_bind_ok (run_count _ _)]
    exact u.arrive htx hp h₃ hd
  · rw [run_bind_ok (run_count _ _)]
    exact u.relay htx hp (u.sent h₂ htx hp) receiver

end

/-- A packet is born, or its insertion is refused and nothing but a sweep has happened. -/
theorem generation {source destination : NodeId} {id : PacketId} {valid : Bool}
    (hk : k = .generation source destination id valid) (h : I s) :
    I ((generation now source destination id valid).run s).2 := by
  unfold Simulator.generation
  refine keeps_bind (keeps_requireNode h destination) fun _ s₁ _ h₁ => ?_
  cases valid with
  | false => exact h₁
  | true =>
    rw [if_pos rfl]
    cases hn : s₁.node? source with
    | none =>
      rw [run_bind_error (onBuffer_run_none hn _)]
      exact h₁
    | some node =>
      have hrun := onBuffer_run_some hn (Buffer.insert now (.generate id source destination now))
      rcases Buffer.insert_cases now (.generate id source destination now) node.buffer with
        ⟨_, he⟩ | ⟨_, room, _, he⟩
      · rw [he] at hrun
        rw [run_bind_error hrun]
        exact u.swept h₁ hn
      · have hborn := u.born h₁ hk hn
        rw [Node.inserting, he] at hborn
        rw [he] at hrun
        rw [run_bind_ok hrun, run_count]
        exact hborn

/-- The packet that is handed over has been at its sender since the event began. -/
theorem transmission (h : I s) (hnodes : s.nodes = s₀.nodes) (sender receiver : NodeId)
    (id : PacketId) (valid : Bool) :
    I ((transmission now sender receiver id valid).run s).2 := by
  have hunmarked : I (s.unmarked receiver id) := u.aside h rfl rfl
  have hmark : (modify fun s => { s with inFlight := s.inFlight.erase ⟨receiver, id⟩ } :
      Action PUnit).run s = (.ok ⟨⟩, s.unmarked receiver id) := rfl
  unfold Simulator.transmission
  cases hrx : s.node? receiver with
  | none =>
    rw [run_bind_error (requireNode_run_none hrx)]
    exact h
  | some rx =>
    rw [run_bind_ok (requireNode_run_some hrx), run_bind_ok hmark]
    split
    · cases htx : (s.unmarked receiver id).node? sender with
      | none =>
        rw [run_bind_error (sweepNode_run_none now htx)]
        exact hunmarked
      | some tx =>
        have htx₀ : s₀.node? sender = some tx := by
          rw [node?, ← hnodes]
          exact htx
        have hswept := node?_putNode_self (index_lt_of_node? htx) (tx.sweep now)
        have h₁ : I ((s.unmarked receiver id).putNode sender (tx.sweep now)) :=
          u.swept hunmarked htx
        rw [run_bind_ok (sweepNode_run_some now htx)]
        generalize (s.unmarked receiver id).putNode sender (tx.sweep now) = s₁ at h₁ hswept
        rw [run_bind_ok (run_get s₁), hswept]
        dsimp only [Option.bind_some]
        cases hp : (silenced (tx.sweep now)).buffer.find? id with
        | none => exact u.say h₁ now _
        | some p =>
          exact u.handOver htx₀ (Buffer.mem_livePackets_of_find? hp) h₁ receiver
    · exact hunmarked

omit u

/-! ### Whole events -/

theorem handle {e : Event} (u : Upheld e.time e.kind s₀ I) (h : I s)
    (hnodes : s.nodes = s₀.nodes) : I ((handle e).run s).2 := by
  obtain ⟨now, kind⟩ := e
  cases kind with
  | contactUp a b => exact u.contactUp rfl h a b
  | contactDown a b => exact u.contactDown h a b
  | transmission sender receiver id valid =>
    exact u.transmission h hnodes sender receiver id valid
  | generation source destination id valid => exact u.generation rfl h
  | checkpoint => exact u.sweepAll h

/-- What every change by an event keeps, the event keeps, whether it fails or not. -/
theorem process {e : Event} (u : Upheld e.time e.kind s I) (q : Event.Queue) (h : I s) :
    I ((process e q).run s).2 := by
  have htaken : I (s.taken e q) := u.aside h rfl rfl
  change I ((Simulator.handle e).run (s.taken e q)).2
  exact u.handle htaken rfl

end Upheld

end Simulator

end OppNet
