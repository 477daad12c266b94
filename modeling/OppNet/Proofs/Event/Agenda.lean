import Mathlib.Data.List.Sort
import OppNet.Proofs.Event.Flow

/-!
# OppNet.Proofs.Event.Agenda

The event queue as an ordered list.

* `Agenda`: a plain list of events and a clock. An event enters in front of the first one that is
  not earlier.
* `Operations`, `perform`, `run`: sequences of operations, on a queue or on an agenda.
* `Lists q g`: the agenda `g` lists what is pending in `q`. `Lists.perform`: every operation keeps
  it, and is answered alike.
* `exists_flow_run`: what is accepted enters the queue, and what is taken out leaves it.
* `refines_agenda`: no sequence of operations can tell a queue from an agenda.
-/

namespace OppNet.Event

/-! ### The ordered list -/

/-- Whether `e` is a valid transfer between the two nodes, in either direction. -/
def Crosses (a b : NodeId) (e : Event) : Prop :=
  ∃ packet, e.kind = .transmission a b packet true ∨ e.kind = .transmission b a packet true

theorem breaksWith_iff {a b : NodeId} {e : Event} :
    Queue.breaksWith a b e = true ↔ Crosses a b e := by
  obtain ⟨time, kind⟩ := e
  cases kind with
  | transmission sender receiver packet valid =>
    simp only [Queue.breaksWith, EventKind.isTransferBetween, EventKind.isValidTransfer, Crosses,
      Bool.and_eq_true, Bool.or_eq_true, beq_iff_eq, EventKind.transmission.injEq]
    grind
  | _ => simp [Queue.breaksWith, EventKind.isTransferBetween, Crosses]

instance (a b : NodeId) (e : Event) : Decidable (Crosses a b e) :=
  decidable_of_iff _ breaksWith_iff

theorem crosses_comm {a b : NodeId} {e : Event} : Crosses a b e ↔ Crosses b a e :=
  exists_congr fun _ => or_comm

structure Agenda where
  now : Time
  events : List Event

namespace Agenda

def empty : Agenda := ⟨Time.earliest, []⟩

/-- In front of the first event that is not earlier. -/
def insert (e : Event) (g : Agenda) : Except Fault Agenda :=
  if e.time < g.now then .error .eventInPast
  else .ok { g with events := g.events.orderedInsert (fun x y => x.time ≤ y.time) e }

def pop? (g : Agenda) : Option (Event × Agenda) :=
  match g.events with
  | [] => none
  | e :: rest => some (e, ⟨e.time, rest⟩)

def peekTime? (g : Agenda) : Option Time := g.events.head?.map (·.time)

/-- Clears the marks of the valid transfers between two nodes, and counts them. -/
def invalidateLink (a b : NodeId) (g : Agenda) : Nat × Agenda :=
  (g.events.countP (Crosses a b ·),
    { g with events := g.events.map fun e => if Crosses a b e then e.aborted else e })

end Agenda

/-! ### Sequences of operations -/

inductive Request where
  | insert (e : Event)
  | pop
  | peek
  | invalidate (a b : NodeId)
  deriving DecidableEq, Repr

inductive Answer where
  | accepted
  | refused (f : Fault)
  | popped (e : Option Event)
  | next (time : Option Time)
  | broken (count : Nat)
  deriving DecidableEq, Repr

structure Operations (σ : Type) where
  insert : Event → σ → Except Fault σ
  pop? : σ → Option (Event × σ)
  peekTime? : σ → Option Time
  invalidateLink : NodeId → NodeId → σ → Nat × σ

def Queue.operations : Operations Queue :=
  ⟨Queue.insert, Queue.pop?, Queue.peekTime?, Queue.invalidateLink⟩

def Agenda.operations : Operations Agenda :=
  ⟨Agenda.insert, Agenda.pop?, Agenda.peekTime?, Agenda.invalidateLink⟩

variable {σ : Type}

/-- A refused insertion changes nothing. -/
def perform (ops : Operations σ) (s : σ) : Request → Answer × σ
  | .insert e =>
    match ops.insert e s with
    | .error f => (.refused f, s)
    | .ok s' => (.accepted, s')
  | .pop =>
    match ops.pop? s with
    | none => (.popped none, s)
    | some (e, s') => (.popped (some e), s')
  | .peek => (.next (ops.peekTime? s), s)
  | .invalidate a b => ((ops.invalidateLink a b s).1 |> .broken, (ops.invalidateLink a b s).2)

/-- One operation after the other, with what was asked and answered. -/
def run (ops : Operations σ) (s : σ) : List Request → List (Request × Answer) × σ
  | [] => ([], s)
  | r :: rest =>
    let (answer, s') := perform ops s r
    let (log, s'') := run ops s' rest
    ((r, answer) :: log, s'')

def accepted (log : List (Request × Answer)) : List Event :=
  log.filterMap fun
    | (.insert e, .accepted) => some e
    | _ => none

def popped (log : List (Request × Answer)) : List Event :=
  log.filterMap fun
    | (_, .popped e) => e
    | _ => none

/-! ### The queue lists its events -/

namespace Queue

variable {q q' : Queue} {e : Event}

/-- A slot of the newest turn, put in front of the first event that is not earlier. -/
theorem pairwise_orderedInsert {x : Slot × Event} {xs : List (Slot × Event)}
    (hx : x.1.time = x.2.time) (hkeys : ∀ y ∈ xs, y.1.time = y.2.time)
    (hturns : ∀ y ∈ xs, y.1.turn < x.1.turn)
    (hsorted : xs.Pairwise fun x y => compare x.1 y.1 = .lt) :
    (xs.orderedInsert (fun x y => x.2.time ≤ y.2.time) x).Pairwise
      fun x y => compare x.1 y.1 = .lt := by
  induction xs with
  | nil => simp
  | cons y rest ih =>
    have hy : y.1.time = y.2.time := hkeys y List.mem_cons_self
    rw [List.pairwise_cons] at hsorted
    by_cases hle : x.2.time ≤ y.2.time
    · rw [List.orderedInsert_cons, if_pos hle]
      have hfirst : compare x.1 y.1 = .lt := by
        rw [compare_slot_eq_lt, hx, hy]
        by_cases hlt : x.2.time < y.2.time
        · exact .inl hlt
        · exact .inr ⟨Std.le_antisymm hle (Std.not_lt.mp hlt), hturns y List.mem_cons_self⟩
      refine List.pairwise_cons.mpr ⟨fun z hz => ?_, List.pairwise_cons.mpr hsorted⟩
      rcases List.mem_cons.mp hz with rfl | hz
      · exact hfirst
      · exact Std.TransCmp.lt_trans hfirst (hsorted.1 z hz)
    · rw [List.orderedInsert_cons, if_neg hle]
      have hrest := ih (fun z hz => hkeys z (List.mem_cons_of_mem _ hz))
        (fun z hz => hturns z (List.mem_cons_of_mem _ hz)) hsorted.2
      refine List.pairwise_cons.mpr ⟨fun z hz => ?_, hrest⟩
      rcases (List.mem_orderedInsert _).mp hz with rfl | hz
      · rw [compare_slot_eq_lt, hx, hy]
        exact .inl (Std.not_le.mp hle)
      · exact hsorted.1 z hz

/-- An event enters the list of pending events in front of the first one that is not earlier. -/
theorem Regular.toList_insert (h : q.Regular) (hi : q.insert e = .ok q') :
    q'.toList = q.toList.orderedInsert (fun x y => x.time ≤ y.time) e := by
  obtain ⟨hslots, _, _, _⟩ := slots_insert hi h.sound
  have hsorted := pairwise_orderedInsert (x := (⟨e.time, q.turns + 1⟩, e)) rfl h.keyed
    (fun y hy => Nat.lt_succ_of_le (h.turn_le hy)) q.pairwise_slots
  have heq : q'.pending.toList =
      q.pending.toList.orderedInsert (fun x y => x.2.time ≤ y.2.time) (⟨e.time, q.turns + 1⟩, e) :=
    eq_of_sorted (hslots.trans (List.perm_orderedInsert _ _ _).symm) q'.pairwise_slots hsorted
  rw [toList, heq, toList]
  exact List.map_orderedInsert _ _ _ _ _ (fun _ _ => .rfl) fun _ _ => .rfl

theorem Regular.peekTime?_eq (h : q.Regular) : q.peekTime? = q.toList.head?.map (·.time) := by
  rw [peekTime?, first?_eq, toList, List.head?_map, Option.map_map]
  cases hl : q.pending.toList with
  | nil => rfl
  | cons x rest => exact congrArg some (h.keyed x (by simp [hl]))

theorem breakLink_eq (a b : NodeId) (e : Event) :
    breakLink a b e = if Crosses a b e then e.aborted else e := by
  by_cases hc : Crosses a b e
  · have hb := breaksWith_iff.mpr hc
    rw [breaksWith, Bool.and_eq_true] at hb
    simp only [breakLink, hb.1, hc, if_true, aborted_eq]
  · rw [if_neg hc]
    exact breakLink_of_not_breaksWith (by rw [← Bool.not_eq_true, breaksWith_iff]; exact hc)

theorem invalidateLink_comm (a b : NodeId) (q : Queue) :
    q.invalidateLink a b = q.invalidateLink b a := by
  have hbreaks : breaksWith a b = breaksWith b a := by
    funext e
    rw [Bool.eq_iff_iff, breaksWith_iff, breaksWith_iff, crosses_comm]
  have hlink : breakLink a b = breakLink b a := by
    funext e
    simp only [breakLink_eq, crosses_comm (a := a)]
  unfold invalidateLink
  rw [hbreaks, hlink]

end Queue

/-- The agenda lists what is pending in the queue, at the same time. -/
structure Lists (q : Queue) (g : Agenda) : Prop where
  regular : q.Regular
  now : g.now = q.now
  events : g.events = q.toList

theorem lists_empty : Lists Queue.empty Agenda.empty :=
  ⟨Queue.regular_empty, rfl, Queue.toList_empty.symm⟩

namespace Lists

variable {q : Queue} {g : Agenda}

theorem insert (h : Lists q g) (e : Event) :
    (q.insert e = .error .eventInPast ∧ g.insert e = .error .eventInPast) ∨
      ∃ q' g', q.insert e = .ok q' ∧ g.insert e = .ok g' ∧ Lists q' g' := by
  by_cases hpast : e.time < q.now
  · left
    simp [Queue.insert, Agenda.insert, h.now, hpast]
  · right
    obtain ⟨q', hq⟩ := Queue.exists_insert hpast
    obtain ⟨_, hnow, _⟩ := Queue.insert_eq_ok hq h.regular.sound
    have hg : g.insert e =
        .ok { g with events := g.events.orderedInsert (fun x y => x.time ≤ y.time) e } := by
      simp [Agenda.insert, h.now, hpast]
    refine ⟨q', _, hq, hg, h.regular.insert hq, h.now.trans hnow.symm, ?_⟩
    rw [h.regular.toList_insert hq, h.events]

theorem pop? (h : Lists q g) : (q.pop? = none ∧ g.pop? = none) ∨
    ∃ e q' g', q.pop? = some (e, q') ∧ g.pop? = some (e, g') ∧ Lists q' g' := by
  cases hq : q.pop? with
  | none =>
    left
    have hnone := h.events.trans (Queue.pop?_eq_none.mp hq)
    simp [Agenda.pop?, hnone]
  | some x =>
    right
    obtain ⟨e, q'⟩ := x
    obtain ⟨hlist, hnow, _, _⟩ := Queue.pop?_eq_some hq
    obtain ⟨hregular, _, _⟩ := h.regular.pop? hq
    refine ⟨e, q', ⟨e.time, q'.toList⟩, rfl, ?_, hregular, hnow.symm, rfl⟩
    simp only [Agenda.pop?, h.events, hlist]

theorem invalidateLink (h : Lists q g) (a b : NodeId) :
    (q.invalidateLink a b).1 = (g.invalidateLink a b).1 ∧
      Lists (q.invalidateLink a b).2 (g.invalidateLink a b).2 := by
  obtain ⟨hcount, hlist, hnow, _⟩ := q.toList_invalidateLink a b
  constructor
  · rw [hcount, Agenda.invalidateLink, h.events]
    refine List.countP_congr fun e _ => ?_
    rw [breaksWith_iff, decide_eq_true_eq]
  · refine ⟨h.regular.invalidateLink a b, by rw [hnow, ← h.now]; rfl, ?_⟩
    rw [hlist, Agenda.invalidateLink, h.events]
    exact List.map_congr_left fun e _ => (Queue.breakLink_eq a b e).symm

/-- Every operation is answered alike, and the agenda goes on listing what is pending. -/
theorem perform (h : Lists q g) (r : Request) :
    (Event.perform Queue.operations q r).1 = (Event.perform Agenda.operations g r).1 ∧
      Lists (Event.perform Queue.operations q r).2 (Event.perform Agenda.operations g r).2 := by
  cases r with
  | insert e =>
    rcases h.insert e with ⟨hq, hg⟩ | ⟨q', g', hq, hg, hlists⟩
    · simpa only [Event.perform, Queue.operations, Agenda.operations, hq, hg, true_and] using h
    · simpa only [Event.perform, Queue.operations, Agenda.operations, hq, hg, true_and] using
        hlists
  | pop =>
    rcases h.pop? with ⟨hq, hg⟩ | ⟨e, q', g', hq, hg, hlists⟩
    · simpa only [Event.perform, Queue.operations, Agenda.operations, hq, hg, true_and] using h
    · simpa only [Event.perform, Queue.operations, Agenda.operations, hq, hg, true_and] using
        hlists
  | peek =>
    simp only [Event.perform, Queue.operations, Agenda.operations, h.regular.peekTime?_eq,
      Agenda.peekTime?, h.events]
    exact ⟨trivial, h⟩
  | invalidate a b =>
    obtain ⟨hcount, hlists⟩ := h.invalidateLink a b
    exact ⟨congrArg Answer.broken hcount, hlists⟩

theorem run (h : Lists q g) (rs : List Request) :
    (Event.run Queue.operations q rs).1 = (Event.run Agenda.operations g rs).1 ∧
      Lists (Event.run Queue.operations q rs).2 (Event.run Agenda.operations g rs).2 := by
  induction rs generalizing q g with
  | nil => exact ⟨rfl, h⟩
  | cons r rest ih =>
    obtain ⟨hanswer, hlists⟩ := h.perform r
    obtain ⟨hlog, hend⟩ := ih hlists
    exact ⟨by simp only [Event.run, hanswer, hlog], hend⟩

end Lists

/-! ### What goes in and comes out -/

namespace Queue

variable {q : Queue}

theorem exists_flow_perform (h : q.Regular) (r : Request) :
    ∃ entering leaving, Flow q (perform operations q r).2 entering leaving ∧
      entering.map (·.2) = accepted [(r, (perform operations q r).1)] ∧
      leaving.map (·.2) = popped [(r, (perform operations q r).1)] := by
  cases r with
  | insert e =>
    cases hi : q.insert e with
    | error f =>
      simp only [perform, operations, hi]
      exact ⟨[], [], .refl h, rfl, rfl⟩
    | ok q' =>
      simp only [perform, operations, hi]
      exact ⟨_, [], .insert h hi, rfl, rfl⟩
  | pop =>
    cases hp : q.pop? with
    | none =>
      simp only [perform, operations, hp]
      exact ⟨[], [], .refl h, rfl, rfl⟩
    | some x =>
      obtain ⟨e, q'⟩ := x
      obtain ⟨slot, _, hflow⟩ := Flow.pop? h hp
      simp only [perform, operations, hp]
      exact ⟨[], [(slot, e)], hflow, rfl, rfl⟩
  | peek => exact ⟨[], [], .refl h, rfl, rfl⟩
  | invalidate a b => exact ⟨[], [], .invalidateLink h a b, rfl, rfl⟩

/-- What is accepted enters the queue, and what is taken out leaves it. -/
theorem exists_flow_run (h : q.Regular) (rs : List Request) :
    ∃ entering leaving, Flow q (run operations q rs).2 entering leaving ∧
      entering.map (·.2) = accepted (run operations q rs).1 ∧
      leaving.map (·.2) = popped (run operations q rs).1 := by
  induction rs generalizing q with
  | nil => exact ⟨[], [], .refl h, rfl, rfl⟩
  | cons r rest ih =>
    obtain ⟨entering, leaving, hflow, hin, hout⟩ := exists_flow_perform h r
    obtain ⟨entering', leaving', hflow', hin', hout'⟩ := ih hflow.regular
    refine ⟨entering ++ entering', leaving ++ leaving', hflow.trans hflow', ?_, ?_⟩
    · rw [List.map_append, hin, hin']
      simp only [accepted, ← List.filterMap_append]
      rfl
    · rw [List.map_append, hout, hout']
      simp only [popped, ← List.filterMap_append]
      rfl

end Queue

/--
No sequence of operations on a new queue can tell it from an agenda: the answers, the clock, the
pending events and their number are the same, and a link can be named from either end. So the clock
never goes back, events are taken out in the order of their times and the newest of one time first,
and those accepted are the ones taken out and the ones pending, abortion apart.
-/
theorem refines_agenda (rs : List Request) :
    let log := (run Queue.operations .empty rs).1
    let q := (run Queue.operations .empty rs).2
    let g := (run Agenda.operations .empty rs).2
    log = (run Agenda.operations .empty rs).1 ∧ q.now = g.now ∧ q.toList = g.events ∧
    q.size = g.events.length ∧ (∀ a b, q.invalidateLink a b = q.invalidateLink b a) ∧
    (∀ r, q.now ≤ (perform Queue.operations q r).2.now) ∧
    (popped log).Pairwise (fun x y => x.time ≤ y.time) ∧
    (∀ e q', q.pop? = some (e, q') → ∃ slot, q.first? = some (slot, e) ∧
      ∀ x ∈ q'.pending.toList,
        e.time < x.2.time ∨ (e.time = x.2.time ∧ x.1.turn < slot.turn)) ∧
    (∀ e q', q.insert e = .ok q' → ∃ slot, (slot, e) ∈ q'.pending.toList ∧
      ∀ x ∈ q.pending.toList, x ∈ q'.pending.toList ∧ x.1.turn < slot.turn) ∧
    ((popped log ++ q.toList).map aborted).Perm ((accepted log).map aborted) := by
  intro log q g
  obtain ⟨hlog, hlists⟩ := lists_empty.run rs
  obtain ⟨entering, leaving, hflow, hin, hout⟩ := Queue.exists_flow_run Queue.regular_empty rs
  have hregular : q.Regular := hlists.regular
  refine ⟨hlog, hlists.now.symm, hlists.events.symm, ?_,
    fun a b => Queue.invalidateLink_comm a b q, ?_, ?_, ?_, ?_, ?_⟩
  · rw [Queue.size_eq, hlists.events]
  · intro r
    obtain ⟨_, _, hstep, _, _⟩ := Queue.exists_flow_perform hregular r
    exact hstep.forward
  · rw [← hout]
    exact List.pairwise_map.mpr hflow.ordered
  · intro e q' hp
    obtain ⟨hregular', _, slot, hslots, hkey, hahead⟩ := hregular.pop? hp
    refine ⟨slot, by simp [Queue.first?_eq, hslots], fun x hx => ?_⟩
    rw [← hkey, ← hregular'.keyed x hx]
    exact compare_slot_eq_lt.mp (hahead x hx)
  · intro e q' hi
    obtain ⟨hslots, _, _, _⟩ := Queue.slots_insert hi hregular.sound
    refine ⟨⟨e.time, q.turns + 1⟩, hslots.mem_iff.mpr List.mem_cons_self, fun x hx => ?_⟩
    exact ⟨hslots.mem_iff.mpr (List.mem_cons_of_mem _ hx), Nat.lt_succ_of_le (hregular.turn_le hx)⟩
  · have hbalance := hflow.balance.map (·.2)
    rw [Queue.slots_empty, List.append_nil, List.map_map, List.map_map] at hbalance
    rw [← hin, ← hout, Queue.toList, ← List.map_append, List.map_map, List.map_map]
    exact hbalance

/-- Both transfers of a link lose their marks where they are; a NaN with a sign is in the past. -/
example :
    let up : Event := ⟨⟨2.0⟩, .transmission ⟨0⟩ ⟨1⟩ ⟨0⟩ true⟩
    let away : Event := ⟨⟨2.0⟩, .transmission ⟨0⟩ ⟨2⟩ ⟨0⟩ true⟩
    let back : Event := ⟨⟨3.0⟩, .transmission ⟨1⟩ ⟨0⟩ ⟨1⟩ true⟩
    (run Queue.operations .empty [.insert up, .insert away, .insert back,
      .insert ⟨⟨⟨0xfff8000000000000⟩⟩, .checkpoint⟩, .invalidate ⟨1⟩ ⟨0⟩, .invalidate ⟨0⟩ ⟨1⟩,
      .pop, .pop, .pop, .pop]).1.map (·.2) =
    [.accepted, .accepted, .accepted, .refused .eventInPast, .broken 2, .broken 0,
      .popped (some away), .popped (some ⟨⟨2.0⟩, .transmission ⟨0⟩ ⟨1⟩ ⟨0⟩ false⟩),
      .popped (some ⟨⟨3.0⟩, .transmission ⟨1⟩ ⟨0⟩ ⟨1⟩ false⟩), .popped none] := by
  decide +kernel

end OppNet.Event
