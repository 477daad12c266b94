import Mathlib.Data.List.Nodup
import OppNet.Proofs.Event.Order

/-!
# OppNet.Proofs.Event.Flow

What goes into a queue and comes out of it.

* `Flow q q' entering leaving`: between two states of a queue, some events have entered, each with a
  turn of its own, and some have left, in the order of their times. The rest is where it was.
* `Flow.trans`: flows compose, and every operation is one.
* `Flow.since_perm`: what has been inserted can be told by its turns as long as it is pending.
* `Flow.nodup_slots`: nothing leaves twice, and nothing that has left is pending.
-/

namespace OppNet.Event.Queue

/-- A slot and its event without the mark, which a pending transfer may lose. -/
def stripped (x : Slot × Event) : Slot × Event := (x.1, x.2.aborted)

/-- The pending events that were inserted after so many others. -/
def since (turns : Nat) (q : Queue) : List (Slot × Event) :=
  q.pending.toList.filter fun x => turns < x.1.turn

/-- What happens to a queue from one state of it to a later one. -/
structure Flow (q q' : Queue) (entering leaving : List (Slot × Event)) : Prop where
  regular : q'.Regular
  forward : q.now ≤ q'.now
  ordered : leaving.Pairwise fun x y => x.2.time ≤ y.2.time
  after : ∀ x ∈ leaving, q.now ≤ x.2.time
  before : ∀ x ∈ leaving, x.2.time ≤ q'.now
  turns : q'.turns = q.turns + entering.length
  fresh : (entering.map (·.1.turn)).Perm (List.range' (q.turns + 1) entering.length)
  balance : ((leaving ++ q'.pending.toList).map stripped).Perm
    ((entering ++ q.pending.toList).map stripped)

namespace Flow

variable {q q' q'' : Queue} {entering entering' leaving leaving' : List (Slot × Event)}

theorem refl (h : q.Regular) : Flow q q [] [] :=
  ⟨h, Std.le_refl _, .nil, nofun, nofun, rfl, .nil, .refl _⟩

theorem trans (h : Flow q q' entering leaving) (h' : Flow q' q'' entering' leaving') :
    Flow q q'' (entering ++ entering') (leaving ++ leaving') := by
  constructor
  · exact h'.regular
  · exact Std.le_trans h.forward h'.forward
  · refine List.pairwise_append.mpr ⟨h.ordered, h'.ordered, ?_⟩
    intro x hx y hy
    exact Std.le_trans (h.before x hx) (h'.after y hy)
  · intro x hx
    rcases List.mem_append.mp hx with hx | hx
    · exact h.after x hx
    · exact Std.le_trans h.forward (h'.after x hx)
  · intro x hx
    rcases List.mem_append.mp hx with hx | hx
    · exact Std.le_trans (h.before x hx) h'.forward
    · exact h'.before x hx
  · rw [h'.turns, h.turns, List.length_append, Nat.add_assoc]
  · have hfresh := h.fresh.append h'.fresh
    have hstart : q'.turns + 1 = q.turns + 1 + entering.length := by
      rw [h.turns]
      omega
    rw [hstart, List.range'_append_1] at hfresh
    simpa using hfresh
  · -- What has left in the first part stays out of the second.
    have hfirst := h.balance
    have hsecond := h'.balance
    simp only [List.map_append] at hfirst hsecond ⊢
    rw [List.append_assoc, List.append_assoc]
    refine (hsecond.append_left _).trans ?_
    rw [← List.append_assoc]
    refine (List.perm_append_comm.append_right _).trans ?_
    rw [List.append_assoc]
    refine (hfirst.append_left _).trans ?_
    rw [← List.append_assoc, ← List.append_assoc]
    exact List.perm_append_comm.append_right _

theorem of_perm (h : Flow q q' entering leaving) (hp : entering'.Perm entering) :
    Flow q q' entering' leaving := by
  have hturns := h.turns
  have hfresh := (hp.map (·.1.turn)).trans h.fresh
  have hbalance := h.balance.trans ((hp.symm.append_right _).map _)
  rw [← hp.length_eq] at hturns hfresh
  exact ⟨h.regular, h.forward, h.ordered, h.after, h.before, hturns, hfresh, hbalance⟩

/-! ### Operations -/

theorem insert {e : Event} (h : q.Regular) (hi : q.insert e = .ok q') :
    Flow q q' [(⟨e.time, q.turns + 1⟩, e)] [] := by
  obtain ⟨hslots, hnow, hturns, _⟩ := slots_insert hi h.sound
  exact ⟨h.insert hi, Std.le_of_eq hnow.symm, .nil, nofun, nofun, hturns, .refl _,
    hslots.map stripped⟩

theorem insertAll {events : List Event} (h : q.Regular) (hi : Queue.insertAll events q = .ok q') :
    ∃ entering, Flow q q' entering [] ∧ entering.map (·.2) = events ∧
      q'.pending.toList.Perm (entering ++ q.pending.toList) := by
  induction events generalizing q with
  | nil =>
    cases hi
    exact ⟨[], refl h, rfl, .refl _⟩
  | cons e rest ih =>
    rw [Queue.insertAll] at hi
    cases hfirst : q.insert e with
    | error f =>
      rw [hfirst] at hi
      cases hi
    | ok q₁ =>
      rw [hfirst] at hi
      obtain ⟨hslots, _, _, _⟩ := slots_insert hfirst h.sound
      obtain ⟨entering, hflow, hevents, hperm⟩ := ih (h.insert hfirst) hi
      refine ⟨_, (insert h hfirst).trans hflow, by simp [hevents], ?_⟩
      refine hperm.trans ((hslots.append_left entering).trans ?_)
      exact List.perm_middle

theorem pop? {e : Event} (h : q.Regular) (hp : q.pop? = some (e, q')) :
    ∃ slot, q.first? = some (slot, e) ∧ Flow q q' [] [(slot, e)] := by
  obtain ⟨hregular, hclock, slot, hslots, _, _⟩ := h.pop? hp
  obtain ⟨_, hnow, hturns, _⟩ := pop?_eq_some hp
  have htime : e.time ≤ q'.now := Std.le_of_eq hnow.symm
  refine ⟨slot, by simp [first?_eq, hslots], hregular, Std.le_trans hclock htime,
    List.pairwise_singleton _ _, by simpa using hclock, by simpa using htime, hturns, .nil, ?_⟩
  rw [hslots]
  exact .refl _

theorem invalidateLink (h : q.Regular) (a b : NodeId) :
    Flow q (q.invalidateLink a b).2 [] [] := by
  obtain ⟨_, hslots, hnow, hturns⟩ := slots_invalidateLink a b q
  refine ⟨h.invalidateLink a b, Std.le_of_eq hnow.symm, .nil, nofun, nofun, hturns, .nil, ?_⟩
  have hsame : ((q.invalidateLink a b).2.pending.toList).map stripped =
      q.pending.toList.map stripped := by
    rw [hslots, List.map_map]
    refine List.map_congr_left fun x _ => ?_
    simp [stripped]
  simp [hsame]

/-! ### Who has entered since -/

/-- What entered between two states can be told by its turns. -/
theorem since_perm (h : Flow q q' entering []) (hq : q.Regular)
    (hp : q'.pending.toList.Perm (entering ++ q.pending.toList)) :
    (q'.since q.turns).Perm entering := by
  have hnew : entering.filter (fun x => q.turns < x.1.turn) = entering := by
    refine List.filter_eq_self.mpr fun x hx => ?_
    have hturn := h.fresh.mem_iff.mp (List.mem_map_of_mem (f := (·.1.turn)) hx)
    rw [List.mem_range'_1] at hturn
    exact decide_eq_true hturn.1
  have hold : q.pending.toList.filter (fun x => q.turns < x.1.turn) = [] := by
    refine List.filter_eq_nil_iff.mpr fun x hx => ?_
    simpa using hq.turn_le hx
  have hsince := hp.filter fun x => q.turns < x.1.turn
  rwa [List.filter_append, hnew, hold, List.append_nil] at hsince

/-! ### What has left -/

theorem nodup_entering (h : Flow q q' entering leaving) (hq : q.Regular) :
    ((entering ++ q.pending.toList).map (·.1)).Nodup := by
  have hfresh : (entering.map (·.1.turn)).Nodup := h.fresh.nodup_iff.mpr List.nodup_range'
  rw [List.map_append]
  refine List.nodup_append.mpr ⟨?_, q.nodup_slots, ?_⟩
  · refine List.Nodup.of_map Slot.turn ?_
    rw [List.map_map]
    exact hfresh
  · intro slot hslot slot' hslot' heq
    obtain ⟨x, hx, rfl⟩ := List.mem_map.mp hslot
    obtain ⟨y, hy, hxy⟩ := List.mem_map.mp hslot'
    have hturn := h.fresh.mem_iff.mp (List.mem_map_of_mem (f := (·.1.turn)) hx)
    have hold := hq.turn_le hy
    rw [List.mem_range'_1] at hturn
    rw [heq, ← hxy] at hturn
    omega

/-- Nothing leaves twice, and nothing that has left is pending. -/
theorem nodup_slots (h : Flow q q' entering leaving) (hq : q.Regular) :
    ((leaving ++ q'.pending.toList).map (·.1)).Nodup := by
  have hslots := h.balance.map (·.1)
  simp only [List.map_map, Function.comp_def, stripped] at hslots
  exact hslots.nodup_iff.mpr (h.nodup_entering hq)

end Flow

end OppNet.Event.Queue
