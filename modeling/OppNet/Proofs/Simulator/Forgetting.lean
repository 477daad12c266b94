import OppNet.Proofs.Buffer.Unnoticed
import OppNet.Proofs.Simulator.Repetition

/-!
# OppNet.Proofs.Simulator.Forgetting

A network without histories. Risk-aware admission reads them and nothing else does, so without it a
run goes on in the same way.

* `forget s`: the network without the histories of its buffers, and without a window to look back.
* `Unread s`: no node admits by risk. `choose_forget`: then a contact chooses without histories what
  it chooses with them.
* `Oblivious x s`: the action `x` does in `forget s` what it does in `s`. Every part of a run is
  oblivious, and `oblivious_run` is all of it.
* `history_matters_to_acc_only`: so two scenarios that differ in what they remember run alike.
-/

namespace OppNet

/-! ### Buffers and nodes -/

namespace Buffer

variable {now : Time}

def forget (b : Buffer) : Buffer := { b with history := none }

theorem unnoticed_forget : Unnoticed forget where
  entries _ := rfl
  lifetime _ := rfl
  counters _ := rfl
  rebuilt _ _ _ := rfl
  noted _ _ _ := rfl
  recorded _ _ _ _ := rfl

theorem placesAlike_forget (now : Time) (b b' : Buffer) : PlacesAlike now forget b b' := by
  intro e d _
  have hfull : b.forget.isFull = b.isFull := rfl
  unfold place makeRoom
  rw [hfull]
  cases b.isFull with
  | false => rfl
  | true =>
    have hevict : b.forget.eviction.evict b.forget.entries = b.eviction.evict b.entries := rfl
    rw [hevict]
    cases b.eviction.evict b.entries with
    | error f => rfl
    | ok x => rfl

theorem insert_forget (now : Time) (p : Packet) (b : Buffer) :
    b.forget.insert now p = Prod.map id forget (b.insert now p) :=
  unnoticed_forget.insert (placesAlike_forget now _ _)

end Buffer

namespace AdmissionPolicy

/-- The other policies look at what a receiver has, and not at what has become of it. -/
theorem admitted_congr {policy : AdmissionPolicy} (hp : policy ≠ .acc) (s s' : ReceiverState)
    (hlength : s'.length = s.length) (hcapacity : s'.capacity = s.capacity)
    (hsender : s'.senderLength = s.senderLength) (infoOf : PacketId → Option PacketInfo)
    (ids : List PacketId) : policy.admitted s' infoOf ids = policy.admitted s infoOf ids := by
  have hfree : s'.free? = s.free? := by
    unfold ReceiverState.free?
    rw [hcapacity, hlength]
  cases policy with
  | admitAll => rfl
  | avoidOverflow =>
    unfold admitted
    rw [hfree]
    cases s.free? with
    | none => rfl
    | some free => rfl
  | fairRoute => simp only [admitted, hlength, hsender]
  | acc => exact absurd rfl hp

end AdmissionPolicy

namespace Node

def forget (node : Node) : Node := { node with buffer := node.buffer.forget }

theorem sweep_forget (now : Time) (node : Node) : node.forget.sweep now = (node.sweep now).forget :=
  congrArg (fun buffer => { node with buffer := buffer })
    (Buffer.unnoticed_forget.sweep now node.buffer)

end Node

namespace Simulator

variable {now : Time} {n : NodeId} {node tx rx : Node} {s s' : Simulator} {scenario : Scenario}
  {trace : Trace}

def forget (s : Simulator) : Simulator :=
  { s with
    protocol := { s.protocol with historyWindow := TimeSpan.zero }
    nodes := s.nodes.map Node.forget }

/-- No node admits by risk. -/
def Unread (s : Simulator) : Prop := ∀ n node, s.node? n = some node → node.admission ≠ .acc

theorem node?_forget (s : Simulator) (n : NodeId) :
    s.forget.node? n = (s.node? n).map Node.forget := by
  simp [node?, forget]

theorem forget_putNode (n : NodeId) (node : Node) (s : Simulator) :
    (s.putNode n node).forget = s.forget.putNode n node.forget := by
  simp only [putNode, forget, Array.map_setIfInBounds]
  rfl

theorem Unread.putNode (h : Unread s) (hn : s.node? n = some node) {node' : Node}
    (ha : node'.admission = node.admission) : Unread (s.putNode n node') := by
  intro m other hm
  by_cases hmn : m = n
  · subst hmn
    rw [node?_putNode_self (index_lt_of_node? hn)] at hm
    cases hm
    exact ha ▸ h _ _ hn
  · rw [node?_putNode_ne hmn] at hm
    exact h m other hm

theorem report_forget (s : Simulator) : s.forget.report = s.report := by
  simp only [report, forget, Array.foldl_map]
  rfl

/-! ### Choosing -/

theorem worthOffering_forget (s : Simulator) (now : Time) (tx rx : Node) :
    s.forget.worthOffering now tx.forget rx.forget = s.worthOffering now tx rx := rfl

/-- What is chosen depends on a history only where it is admitted by risk. -/
theorem choose_forget (h : tx.admission ≠ .acc) (now : Time) (rx : Node)
    (window window' : TimeSpan) (infos : List PacketInfo) :
    choose now tx.forget rx.forget window' infos = choose now tx rx window infos := by
  have hdecide : ∀ order, (admitterOf now tx.forget rx.forget window' infos).decide order =
      (admitterOf now tx rx window infos).decide order := by
    intro order
    have hadmitted := AdmissionPolicy.admitted_congr h
      (rx.receiverState now tx.buffer.size window)
      (rx.forget.receiverState now tx.buffer.size window') rfl rfl rfl
      (PacketInfo.lookup? infos.reverse) order.eraseDups
    unfold Admitter.decide admitterOf
    dsimp only
    split
    · rfl
    · exact congrArg (Except.map _) hadmitted
  rw [choose_eq, choose_eq]
  have horder : tx.forget.scheduling.order (List.lookup · tx.forget.buffer.positions)
      (offersOf infos) = tx.scheduling.order (List.lookup · tx.buffer.positions)
      (offersOf infos) := rfl
  rw [horder]
  cases tx.scheduling.order (List.lookup · tx.buffer.positions) (offersOf infos) with
  | error f => rfl
  | ok order? =>
    cases order? with
    | none => rfl
    | some order =>
      dsimp only
      rw [hdecide order]

/-! ### Oblivious actions -/

/-- The action does the same without histories, and leaves no node that would read them. -/
structure Oblivious {α : Type} (x : Action α) (s : Simulator) : Prop where
  run : x.run s.forget = Prod.map id forget (x.run s)
  unread : Unread (x.run s).2

theorem Oblivious.of_run {α : Type} {x : Action α} {res : Except Fault α}
    (hr : x.run s = (res, s')) (hf : x.run s.forget = (res, s'.forget)) (h : Unread s') :
    Oblivious x s := by
  constructor
  · rw [hf, hr]
    rfl
  · rw [hr]
    exact h

section Parts

variable {α β : Type}

theorem Oblivious.bind {x : Action α} {g : α → Action β} (hx : Oblivious x s)
    (hg : ∀ a s', Unread s' → Oblivious (g a) s') : Oblivious (x >>= g) s := by
  obtain ⟨hrun, hunread⟩ := hx
  cases hr : x.run s with
  | mk res s₁ =>
    rw [hr] at hrun hunread
    cases res with
    | error f => exact .of_run (run_bind_error hr) (run_bind_error hrun) hunread
    | ok a =>
      obtain ⟨hrun', hunread'⟩ := hg a s₁ hunread
      rw [← run_bind_ok (g := g) hr] at hrun' hunread'
      exact ⟨(run_bind_ok hrun).trans hrun', hunread'⟩

theorem oblivious_read {g : Simulator → Action α}
    (h : (g s.forget).run s.forget = Prod.map id forget ((g s).run s))
    (hu : Unread ((g s).run s).2) : Oblivious (get >>= g) s :=
  ⟨h, hu⟩

theorem oblivious_get {g : Simulator → Action α} (h : g s.forget = g s)
    (hg : Oblivious (g s) s) : Oblivious (get >>= g) s :=
  oblivious_read (h ▸ hg.run) hg.unread

theorem oblivious_modify {g : Simulator → Simulator} (hg : g s.forget = (g s).forget)
    (h : Unread (g s)) : Oblivious (modify g : Action PUnit) s :=
  ⟨congrArg (Prod.mk _) hg, h⟩

variable (h : Unread s)
include h

theorem oblivious_pure (a : α) : Oblivious (pure a) s := ⟨rfl, h⟩

theorem oblivious_throw (f : Fault) : Oblivious (throw f : Action α) s := ⟨rfl, h⟩

theorem oblivious_ofExcept (r : Except Fault α) : Oblivious (ofExcept r) s := by
  cases r with
  | ok a => exact oblivious_pure h a
  | error f => exact oblivious_throw h f

theorem oblivious_say (time : Time) (r : Remark) : Oblivious (say time r) s :=
  oblivious_modify rfl h

theorem oblivious_count (g : Traffic → Traffic) : Oblivious (count g) s :=
  oblivious_modify rfl h

theorem oblivious_requireNode (n : NodeId) : Oblivious (requireNode n) s := by
  unfold requireNode
  refine oblivious_get ?_ ?_
  · simp only [node?_forget, Option.isNone_map]
  · split
    · exact oblivious_throw h _
    · exact oblivious_pure h _

theorem oblivious_visit {f : Node → α × Node}
    (hf : ∀ node, f node.forget = Prod.map id Node.forget (f node))
    (ha : ∀ node, (f node).2.admission = node.admission) : Oblivious (visit n f) s := by
  have hforget := node?_forget s n
  cases hn : s.node? n with
  | none =>
    rw [hn] at hforget
    exact .of_run (visit_run_none hn f) (visit_run_none hforget f) h
  | some node =>
    rw [hn] at hforget
    refine .of_run (visit_run_some hn f) ?_ (h.putNode hn (ha node))
    rw [visit_run_some hforget, hf, forget_putNode]
    rfl

theorem oblivious_changing {f : Buffer → α × Buffer}
    (hf : ∀ b, f b.forget = Prod.map id Buffer.forget (f b)) :
    Oblivious (visit n fun node =>
      let (answer, buffer) := f node.buffer
      (answer, { node with buffer := buffer })) s := by
  refine oblivious_visit h (fun node => ?_) fun node => rfl
  change ((f node.buffer.forget).1, { node.forget with buffer := (f node.buffer.forget).2 }) = _
  rw [hf]
  rfl

theorem oblivious_onBuffer {f : Buffer → Buffer.Outcome α}
    (hf : ∀ b, f b.forget = Prod.map id Buffer.forget (f b)) : Oblivious (onBuffer n f) s :=
  (oblivious_changing h hf).bind fun _ _ h₁ => oblivious_ofExcept h₁ _

theorem oblivious_sweepNode (now : Time) (n : NodeId) : Oblivious (sweepNode now n) s :=
  oblivious_visit h (fun node => congrArg (Prod.mk ()) (node.sweep_forget now)) fun _ => rfl

/-! ### Contacts -/

theorem oblivious_queueTransmission (time : Time) (sender receiver : NodeId) (id : PacketId) :
    Oblivious (queueTransmission time sender receiver id) s := by
  have hqueue : s.forget.queue = s.queue := rfl
  unfold queueTransmission
  refine oblivious_read ?_ ?_
  · rw [hqueue]
    cases s.queue.insert ⟨time, .transmission sender receiver id true⟩ with
    | error f => rfl
    | ok queue => rfl
  · cases s.queue.insert ⟨time, .transmission sender receiver id true⟩ with
    | error f => exact h
    | ok queue => exact h

theorem oblivious_queueAll (now : Time) (sender receiver : NodeId) (ids : List PacketId)
    (i : Nat) : Oblivious (queueAll now sender receiver i ids) s := by
  induction ids generalizing s i with
  | nil => exact oblivious_pure h ()
  | cons id rest ih =>
    unfold queueAll
    refine oblivious_get rfl ?_
    exact (oblivious_queueTransmission h _ _ _ _).bind fun _ _ h₁ => ih h₁ (i + 1)

theorem oblivious_offer (now : Time) (sender receiver : NodeId) :
    Oblivious (offer now sender receiver) s := by
  unfold offer
  refine (oblivious_sweepNode h now sender).bind fun _ s₁ h₁ => ?_
  refine (oblivious_sweepNode h₁ now receiver).bind fun _ s₂ h₂ => ?_
  refine oblivious_get ?_ ?_
  · rw [node?_forget, node?_forget]
    cases htx : s₂.node? sender with
    | none => rfl
    | some tx =>
      cases s₂.node? receiver with
      | none => rfl
      | some rx =>
        simp only [Option.map_some, worthOffering_forget]
        rw [choose_forget (h₂ sender tx htx) now rx s₂.protocol.historyWindow]
        rfl
  · split
    · dsimp only
      split
      · exact oblivious_pure h₂ ()
      · refine (oblivious_ofExcept h₂ _).bind fun choice s₃ h₃ => ?_
        split
        · exact oblivious_pure h₃ ()
        · exact oblivious_say h₃ now _
        · refine (oblivious_say h₃ now _).bind fun _ s₄ h₄ => ?_
          exact oblivious_queueAll h₄ now sender receiver _ 1
    · exact oblivious_throw h₂ _

theorem oblivious_contactUp (now : Time) (a b : NodeId) : Oblivious (contactUp now a b) s := by
  unfold contactUp
  refine (oblivious_requireNode h a).bind fun _ s₁ h₁ => ?_
  refine (oblivious_requireNode h₁ b).bind fun _ s₂ h₂ => ?_
  refine oblivious_get rfl ?_
  refine .bind (oblivious_modify rfl h₂) fun _ s₃ h₃ => ?_
  split
  · refine (oblivious_count h₃ _).bind fun _ s₄ h₄ => ?_
    refine (oblivious_visit h₄ (fun _ => rfl) fun _ => rfl).bind fun _ s₅ h₅ => ?_
    refine (oblivious_visit h₅ (fun _ => rfl) fun _ => rfl).bind fun _ s₆ h₆ => ?_
    exact (oblivious_offer h₆ now a b).bind fun _ s₇ h₇ => oblivious_offer h₇ now b a
  · exact oblivious_pure h₃ ()

theorem oblivious_contactDown (a b : NodeId) : Oblivious (contactDown a b) s := by
  have htimes : s.forget.timesOpen a b = s.timesOpen a b := rfl
  unfold contactDown
  refine oblivious_read ?_ ?_
  · rw [htimes]
    split
    · rfl
    · rfl
    · rfl
  · split
    · exact h
    · exact h
    · exact h

/-! ### Packets on their way -/

theorem oblivious_arrive (now : Time) (receiver : NodeId) (p : Packet) :
    Oblivious (arrive now receiver p) s := by
  unfold arrive
  refine (oblivious_visit h (fun _ => rfl) fun _ => rfl).bind fun new s₁ h₁ => ?_
  split
  · refine (oblivious_count h₁ _).bind fun _ s₂ h₂ => ?_
    refine .bind (oblivious_modify rfl h₂) fun _ s₃ h₃ => ?_
    exact oblivious_say h₃ now _
  · exact oblivious_pure h₁ ()

theorem oblivious_relay (now : Time) (sender receiver : NodeId) (p : Packet) :
    Oblivious (relay now sender receiver p) s := by
  unfold relay
  refine (oblivious_sweepNode h now receiver).bind fun _ s₁ h₁ => ?_
  refine oblivious_get ?_ ?_
  · rw [node?_forget]
    cases s₁.node? receiver with
    | none => rfl
    | some rx => rfl
  · split
    · exact oblivious_throw h₁ _
    · split
      · exact oblivious_pure h₁ ()
      · exact oblivious_onBuffer h₁ (Buffer.insert_forget now _)

theorem oblivious_handOver (now : Time) (sender receiver : NodeId) (p : Packet) :
    Oblivious (handOver now sender receiver p) s := by
  unfold handOver
  refine .bind (oblivious_onBuffer h (Buffer.unnoticed_forget.modify now _ _)) fun _ s₁ h₁ => ?_
  refine .bind (oblivious_onBuffer h₁ (Buffer.unnoticed_forget.modify now _ _)) fun _ s₂ h₂ => ?_
  split
  · refine .bind (oblivious_changing h₂ (f := Buffer.remove now p.id)
      (Buffer.unnoticed_forget.remove now p.id)) fun _ s₃ h₃ => ?_
    refine (oblivious_count h₃ _).bind fun _ s₄ h₄ => ?_
    exact oblivious_arrive h₄ now receiver p
  · refine (oblivious_count h₂ _).bind fun _ s₃ h₃ => ?_
    exact oblivious_relay h₃ now sender receiver p

theorem oblivious_transmission (now : Time) (sender receiver : NodeId) (id : PacketId)
    (valid : Bool) : Oblivious (transmission now sender receiver id valid) s := by
  unfold transmission
  refine (oblivious_requireNode h receiver).bind fun _ s₁ h₁ => ?_
  refine .bind (oblivious_modify rfl h₁) fun _ s₂ h₂ => ?_
  split
  · refine (oblivious_sweepNode h₂ now sender).bind fun _ s₃ h₃ => ?_
    refine oblivious_get ?_ ?_
    · rw [node?_forget]
      cases s₃.node? sender with
      | none => rfl
      | some tx => rfl
    · split
      · exact oblivious_say h₃ now _
      · exact oblivious_handOver h₃ now sender receiver _
  · exact oblivious_pure h₂ ()

theorem oblivious_generation (now : Time) (source destination : NodeId) (id : PacketId)
    (valid : Bool) : Oblivious (generation now source destination id valid) s := by
  unfold generation
  refine (oblivious_requireNode h destination).bind fun _ s₁ h₁ => ?_
  split
  · refine (oblivious_onBuffer h₁ (Buffer.insert_forget now _)).bind fun _ s₂ h₂ => ?_
    exact oblivious_count h₂ _
  · exact oblivious_pure h₁ ()

/-! ### Whole runs -/

omit h in
theorem sweepAt_forget (now : Time) (s : Simulator) (i : Nat) :
    sweepAt now s.forget i = (sweepAt now s i).forget := by
  have hforget := node?_forget s ⟨i⟩
  unfold sweepAt
  cases hn : s.node? ⟨i⟩ with
  | none =>
    rw [hforget, hn]
    rfl
  | some node =>
    rw [hforget, hn]
    change s.forget.putNode ⟨i⟩ (node.forget.sweep now) = _
    rw [node.sweep_forget, forget_putNode]

omit h in
theorem sweepAll_forget (now : Time) (s : Simulator) :
    s.forget.sweepAll now = (s.sweepAll now).forget := by
  have hsize : s.forget.nodes.size = s.nodes.size := Array.size_map
  rw [sweepAll_eq, sweepAll_eq, hsize]
  exact List.foldl_hom forget fun s i => sweepAt_forget now s i

theorem Unread.sweepAll (now : Time) : Unread (s.sweepAll now) := by
  intro n node hn
  rw [node?_sweepAll] at hn
  obtain ⟨node', hn', rfl⟩ := Option.map_eq_some_iff.mp hn
  exact h n node' hn'

theorem oblivious_handle (e : Event) : Oblivious (handle e) s := by
  obtain ⟨now, kind⟩ := e
  cases kind with
  | contactUp a b => exact oblivious_contactUp h now a b
  | contactDown a b => exact oblivious_contactDown h a b
  | transmission sender receiver id valid =>
    exact oblivious_transmission h now sender receiver id valid
  | generation source destination id valid =>
    exact oblivious_generation h now source destination id valid
  | checkpoint => exact oblivious_modify (sweepAll_forget now s) (h.sweepAll now)

theorem oblivious_process (e : Event) (q : Event.Queue) : Oblivious (process e q) s := by
  unfold process
  refine .bind (oblivious_modify rfl h) fun _ s₁ h₁ => ?_
  refine (oblivious_count h₁ _).bind fun _ s₂ h₂ => ?_
  refine (oblivious_say h₂ _ _).bind fun _ s₃ h₃ => ?_
  exact oblivious_handle h₃ e

theorem oblivious_settle (fuel : Nat) : Oblivious (settle fuel) s := by
  induction fuel generalizing s with
  | zero => exact oblivious_pure h ()
  | succ fuel ih =>
    unfold settle
    refine oblivious_get rfl ?_
    split
    · exact oblivious_pure h ()
    · split
      · exact oblivious_pure h ()
      · exact (oblivious_process h _ _).bind fun _ _ h₁ => ih h₁

theorem oblivious_advance (ups : Nat) : Oblivious (advance ups) s := by
  induction ups generalizing s with
  | zero => exact oblivious_pure h ()
  | succ ups ih =>
    unfold advance
    refine oblivious_get rfl ?_
    refine (oblivious_settle h _).bind fun _ s₁ h₁ => ?_
    refine oblivious_get rfl ?_
    split
    · exact oblivious_pure h₁ ()
    · exact (oblivious_process h₁ _ _).bind fun _ _ h₂ => ih h₂

theorem oblivious_run : Oblivious run s := by
  unfold run
  refine oblivious_get rfl ?_
  refine (oblivious_advance h _).bind fun _ s₁ h₁ => ?_
  refine .bind (oblivious_modify (sweepAll_forget s₁.stop s₁) (h₁.sweepAll s₁.stop))
    fun _ s₂ h₂ => ?_
  exact oblivious_get (congrArg pure (report_forget s₂)) (oblivious_pure h₂ _)

end Parts

def afterRuns : Nat → Simulator → Simulator
  | 0, s => s
  | count + 1, s => afterRuns count (run.run s).2

theorem afterRuns_forget (h : Unread s) (count : Nat) :
    s.forget.afterRuns count = (s.afterRuns count).forget ∧ Unread (s.afterRuns count) := by
  induction count generalizing s with
  | zero => exact ⟨rfl, h⟩
  | succ count ih =>
    obtain ⟨hrun, hunread⟩ := oblivious_run h
    obtain ⟨hafter, hunread⟩ := ih hunread
    refine ⟨?_, hunread⟩
    rw [afterRuns, afterRuns, hrun]
    exact hafter

/-- Each run of a network reports what it would report without histories. -/
theorem run_afterRuns_forget (h : Unread s) (count : Nat) :
    (run.run (s.forget.afterRuns count)).1 = (run.run (s.afterRuns count)).1 := by
  obtain ⟨hafter, hunread⟩ := afterRuns_forget h count
  rw [hafter, (oblivious_run hunread).run]
  rfl

end Simulator

/-- A scenario that differs in what its buffers record, and in how far back nodes look. -/
def Scenario.remembering (recording : Bool) (window : TimeSpan) (scenario : Scenario) : Scenario :=
  { scenario with
    buffer := { scenario.buffer with recording := recording }
    protocol := { scenario.protocol with historyWindow := window } }

namespace Simulator

variable {scenario : Scenario} {trace : Trace} {s s' : Simulator}

theorem unread_of_ofTrace (hp : scenario.policies.admission ≠ .acc)
    (h : ofTrace scenario trace = .ok s) : Unread s := by
  intro n node hn
  rw [(fresh_of_ofTrace h).nodes n node hn]
  exact hp

/-- Both scenarios start alike, or fail alike. -/
theorem forget_ofTrace_remembering (recording : Bool) (window : TimeSpan) (scenario : Scenario)
    (trace : Trace) : (ofTrace (scenario.remembering recording window) trace).map forget =
      (ofTrace scenario trace).map forget := by
  unfold ofTrace
  cases Event.Queue.empty.insertAll trace.events with
  | error f => rfl
  | ok queue =>
    refine congrArg Except.ok ?_
    simp only [forget, Array.map_ofFn]
    rfl

/--
What the buffers record and how far back nodes look matters to risk-aware admission only. Under any
other policy, scenarios that differ in nothing else take a trace or refuse it alike; every run, and
every repeated one, has the same result; and it leaves the same network apart from histories, with
the same entries, totals and evictions at every node.
-/
theorem history_matters_to_acc_only (hp : scenario.policies.admission ≠ .acc) (recording : Bool)
    (window : TimeSpan) (trace : Trace) :
    let other := scenario.remembering recording window
    (ofTrace other trace).map forget = (ofTrace scenario trace).map forget ∧
    ∀ s s', ofTrace scenario trace = .ok s → ofTrace other trace = .ok s' → ∀ count,
      (run.run (s'.afterRuns count)).1 = (run.run (s.afterRuns count)).1 ∧
      (s'.afterRuns count).forget = (s.afterRuns count).forget ∧
      ∀ n, ((s'.afterRuns count).node? n).map
          (fun node => (node.buffer.entries, node.buffer.counters, node.buffer.evictions)) =
        ((s.afterRuns count).node? n).map
          fun node => (node.buffer.entries, node.buffer.counters, node.buffer.evictions) := by
  intro other
  have hstart := forget_ofTrace_remembering recording window scenario trace
  refine ⟨hstart, fun s s' hs hs' count => ?_⟩
  have hsame : s'.forget = s.forget := by
    have hmap : (ofTrace other trace).map forget = (ofTrace scenario trace).map forget := hstart
    rw [hs, hs'] at hmap
    exact Except.ok.inj hmap
  have hunread := unread_of_ofTrace hp hs
  have hp' : other.policies.admission ≠ .acc := hp
  have hunread' := unread_of_ofTrace hp' hs'
  have hafter : (s'.afterRuns count).forget = (s.afterRuns count).forget := by
    rw [← (afterRuns_forget hunread' count).1, hsame, (afterRuns_forget hunread count).1]
  refine ⟨?_, hafter, fun n => ?_⟩
  · rw [← run_afterRuns_forget hunread' count, hsame, run_afterRuns_forget hunread count]
  · have hnode := congrArg (fun s => (s.node? n).map fun node =>
      (node.buffer.entries, node.buffer.counters, node.buffer.evictions)) hafter
    simp only [node?_forget, Option.map_map] at hnode
    exact hnode

end Simulator

/-- Three nodes that let each other's buffers grow to their own length only. -/
def Scenario.fair : Scenario :=
  { Scenario.trio with
    policies := { eviction := ⟨.front, true⟩, scheduling := .fifo, admission := .fairRoute } }

namespace Simulator

/-- Two runs drop a packet and end alike, and only one of them has recorded it. -/
theorem recorded_or_not : Scenario.fair.policies.admission ≠ .acc ∧
    ∃ s s' r, ofTrace Scenario.fair .returning = .ok s ∧
      ofTrace (Scenario.fair.remembering true ⟨5.0⟩) .returning = .ok s' ∧
      (run.run s).1 = .ok r ∧ (run.run s').1 = .ok r ∧ r.dropped = 1 ∧
      (s.afterRuns 1).forget = (s'.afterRuns 1).forget ∧
      ((s.afterRuns 1).node? ⟨0⟩).all (·.buffer.history.isNone) = true ∧
      ((s'.afterRuns 1).node? ⟨0⟩).any (·.buffer.history.any (·.size = 5)) = true := by
  have hp : Scenario.fair.policies.admission ≠ .acc := by decide
  have hfound : (match ofTrace Scenario.fair .returning,
        ofTrace (Scenario.fair.remembering true ⟨5.0⟩) .returning with
      | .ok s, .ok s' => ((s.afterRuns 1).node? ⟨0⟩).all (·.buffer.history.isNone) &&
        ((s'.afterRuns 1).node? ⟨0⟩).any (·.buffer.history.any (·.size = 5)) &&
        (match (run.run s).1 with
          | .ok r => r.dropped = 1
          | .error _ => false)
      | _, _ => false) = true := by decide +kernel
  have halike := history_matters_to_acc_only hp true ⟨5.0⟩ .returning
  cases hs : ofTrace Scenario.fair .returning with
  | error f =>
    rw [hs] at hfound
    cases hfound
  | ok s =>
    cases hs' : ofTrace (Scenario.fair.remembering true ⟨5.0⟩) .returning with
    | error f =>
      rw [hs, hs'] at hfound
      cases hfound
    | ok s' =>
      rw [hs, hs'] at hfound
      simp only [Bool.and_eq_true] at hfound
      obtain ⟨⟨hnone, hsome⟩, hdropped⟩ := hfound
      cases hr : (run.run s).1 with
      | error f =>
        rw [hr] at hdropped
        cases hdropped
      | ok r =>
        rw [hr] at hdropped
        have hresult := (halike.2 s s' hs hs' 0).1
        have hafter := (halike.2 s s' hs hs' 1).2.1
        exact ⟨hp, s, s', r, rfl, rfl, hr, hresult.trans hr, of_decide_eq_true hdropped,
          hafter.symm, hnone, hsome⟩

end Simulator

end OppNet
