import OppNet.Proofs.Event.Queue

/-!
# OppNet.Proofs.Event.Order

The order in which the events of a queue come out.

* `compare_slot_eq_lt`: a slot is ahead of the later ones, and of those of its time that were given
  out before it.
* `Regular q`: what every queue keeps. Turns have been given out, events stand under their own
  times, and none lies before the clock.
* `Regular.pop?`: what is taken out lies ahead of what is left, and the clock never goes back.
-/

namespace OppNet.Event

/-- The event with its mark cleared, if it is a transfer. -/
def aborted (e : Event) : Event :=
  match e.kind with
  | .transmission sender receiver packet _ =>
    ⟨e.time, .transmission sender receiver packet false⟩
  | _ => e

theorem aborted_eq (e : Event) : e.aborted = { e with kind := e.kind.abort } := by
  obtain ⟨time, kind⟩ := e
  cases kind <;> rfl

@[simp] theorem time_aborted (e : Event) : e.aborted.time = e.time := by rw [aborted_eq]

@[simp] theorem kind_aborted (e : Event) : e.aborted.kind = e.kind.abort := by rw [aborted_eq]

@[simp] theorem aborted_breakLink (a b : NodeId) (e : Event) :
    (Queue.breakLink a b e).aborted = e.aborted := by
  obtain ⟨time, kind⟩ := e
  unfold Queue.breakLink
  split
  · cases kind <;> rfl
  · rfl

/-- Ahead by an earlier time, or by a later turn at the same time. -/
theorem compare_slot_eq_lt {a b : Slot} :
    compare a b = .lt ↔ a.time < b.time ∨ (a.time = b.time ∧ b.turn < a.turn) := by
  show (compare a.time b.time).then (compare b.turn a.turn) = .lt ↔ _
  rw [Ordering.then_eq_lt, Std.compare_eq_lt, Std.compare_eq_iff_eq, Nat.compare_eq_lt]

theorem time_le_of_compare {a b : Slot} (h : compare a b = .lt) : a.time ≤ b.time := by
  rcases compare_slot_eq_lt.mp h with hlt | ⟨heq, _⟩
  · exact Std.le_of_lt hlt
  · exact Std.le_of_eq heq

namespace Queue

theorem pairwise_slots (q : Queue) :
    q.pending.toList.Pairwise (fun x y => compare x.1 y.1 = .lt) :=
  Std.TreeMap.ordered_keys_toList

theorem nodup_slots (q : Queue) : (q.pending.toList.map (·.1)).Nodup := by
  refine List.pairwise_map.mpr (q.pairwise_slots.imp ?_)
  intro x y hlt heq
  have hself : compare y.1 y.1 = .eq := Std.ReflCmp.compare_self
  rw [heq, hself] at hlt
  cases hlt

/-- What every queue keeps. -/
structure Regular (q : Queue) : Prop where
  sound : q.Sound
  keyed : ∀ x ∈ q.pending.toList, x.1.time = x.2.time
  current : ∀ x ∈ q.pending.toList, q.now ≤ x.1.time

theorem regular_empty : empty.Regular := by
  constructor
  · exact sound_empty
  · intro x hx
    simp [slots_empty] at hx
  · intro x hx
    simp [slots_empty] at hx

namespace Regular

variable {q q' : Queue} {e : Event}

theorem turn_le (h : q.Regular) {x : Slot × Event} (hx : x ∈ q.pending.toList) :
    x.1.turn ≤ q.turns :=
  h.sound x.1 (mem_pending_iff.mpr ⟨x.2, hx⟩)

theorem insert (h : q.Regular) (hi : q.insert e = .ok q') : q'.Regular := by
  obtain ⟨hslots, hnow, _, hsound⟩ := slots_insert hi h.sound
  have hpast : ¬ e.time < q.now := by
    intro hpast
    simp [Queue.insert, hpast] at hi
  constructor
  · exact hsound
  · intro x hx
    rcases List.mem_cons.mp (hslots.mem_iff.mp hx) with rfl | hx
    · rfl
    · exact h.keyed x hx
  · intro x hx
    rw [hnow]
    rcases List.mem_cons.mp (hslots.mem_iff.mp hx) with rfl | hx
    · exact Std.not_lt.mp hpast
    · exact h.current x hx

/-- What is taken out lies ahead of what is left, and the clock never goes back. -/
theorem pop? (h : q.Regular) (hp : q.pop? = some (e, q')) : q'.Regular ∧ q.now ≤ e.time ∧
    ∃ slot, q.pending.toList = (slot, e) :: q'.pending.toList ∧ slot.time = e.time ∧
      ∀ x ∈ q'.pending.toList, compare slot x.1 = .lt := by
  obtain ⟨slot, hslots, hnow, hturns⟩ := slots_pop? hp
  obtain ⟨_, _, _, hsound⟩ := pop?_eq_some hp
  have hmem : ∀ x ∈ q'.pending.toList, x ∈ q.pending.toList := by
    intro x hx
    rw [hslots]
    exact List.mem_cons_of_mem _ hx
  have hfirst : (slot, e) ∈ q.pending.toList := by simp [hslots]
  have hkey : slot.time = e.time := h.keyed _ hfirst
  have hclock : q.now ≤ slot.time := h.current (slot, e) hfirst
  have hsorted := q.pairwise_slots
  rw [hslots, List.pairwise_cons] at hsorted
  refine ⟨⟨hsound h.sound, fun x hx => h.keyed x (hmem x hx), fun x hx => ?_⟩, ?_, slot, hslots,
    hkey, hsorted.1⟩
  · rw [hnow, ← hkey]
    exact time_le_of_compare (hsorted.1 x hx)
  · rw [← hkey]
    exact hclock

theorem invalidateLink (h : q.Regular) (a b : NodeId) : (q.invalidateLink a b).2.Regular := by
  obtain ⟨_, hslots, hnow, _⟩ := slots_invalidateLink a b q
  obtain ⟨_, _, _, hsound⟩ := q.toList_invalidateLink a b
  have horigin : ∀ x ∈ (q.invalidateLink a b).2.pending.toList,
      ∃ y ∈ q.pending.toList, y.1 = x.1 ∧ breakLink a b y.2 = x.2 := by
    intro x hx
    rw [hslots] at hx
    obtain ⟨y, hy, rfl⟩ := List.mem_map.mp hx
    exact ⟨y, hy, rfl, rfl⟩
  constructor
  · exact hsound h.sound
  · intro x hx
    obtain ⟨y, hy, hslot, hevent⟩ := horigin x hx
    rw [← hslot, ← hevent, h.keyed y hy, time_breakLink]
  · intro x hx
    obtain ⟨y, hy, hslot, _⟩ := horigin x hx
    rw [hnow, ← hslot]
    exact h.current y hy

end Regular

end Queue

end OppNet.Event
