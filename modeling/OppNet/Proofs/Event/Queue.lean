import OppNet.Event.Queue
import OppNet.Proofs.Binary64.Order

/-!
# OppNet.Proofs.Event.Queue

The event queue as the plain list of its pending events.

* `pop?_eq_some`, `pop?_eq_none`: what is taken out is the front of the list.
* `insert_eq_ok`: an event that is not in the past joins the others. A slot is never reused, which
  takes that no pending turn lies ahead of the counter (`Sound`).
* `toList_invalidateLink`: aborting a link changes the events in place.
* `slots_pop?`, `slots_insert`, `slots_invalidateLink`: the same for the events with their slots.
-/

namespace OppNet.Event

/-- The later turn first. -/
def compareTurns (a b : Slot) : Ordering := compare b.turn a.turn

instance : Std.TransCmp compareTurns :=
  (inferInstance : Std.TransCmp (compareOn Slot.turn)).opposite

instance : Std.TransOrd Slot :=
  inferInstanceAs (Std.TransCmp (compareLex (compareOn Slot.time) compareTurns))

instance : Std.LawfulEqOrd Slot where
  compare_self :=
    (inferInstance : Std.ReflCmp (compareLex (compareOn Slot.time) compareTurns)).compare_self
  eq_of_compare {a b} h := by
    obtain ⟨ht, hn⟩ := Ordering.then_eq_eq.mp h
    cases a
    cases b
    rw [Slot.mk.injEq]
    exact ⟨Std.LawfulEqCmp.eq_of_compare ht, (Std.LawfulEqCmp.eq_of_compare hn).symm⟩

namespace Queue

/-- The turns of the pending events have been given out. -/
def Sound (q : Queue) : Prop := ∀ slot ∈ q.pending, slot.turn ≤ q.turns

theorem sound_empty : Sound empty := by
  intro slot h
  simp [empty] at h

/-! ### The list of pending events -/

theorem slots_empty : empty.pending.toList = [] := by
  rw [← List.isEmpty_iff, Std.TreeMap.isEmpty_toList]
  exact Std.TreeMap.isEmpty_emptyc

theorem toList_empty : empty.toList = [] := by
  rw [toList, slots_empty]
  rfl

theorem size_eq (q : Queue) : q.size = q.toList.length := by
  simp [size, toList]

theorem mem_pending_iff {q : Queue} {slot : Slot} :
    slot ∈ q.pending ↔ ∃ e, (slot, e) ∈ q.pending.toList := by
  simp only [Std.TreeMap.mem_toList_iff_getElem?_eq_some, Std.TreeMap.mem_iff_isSome_getElem?,
    Option.isSome_iff_exists]

theorem foldl_count (p : Event → Bool) (xs : List (Slot × Event)) (n : Nat) :
    xs.foldl (fun n x => if p x.2 then n + 1 else n) n = n + (xs.map (·.2)).countP p := by
  induction xs generalizing n with
  | nil => rfl
  | cons x rest ih =>
    rw [List.foldl_cons, ih, List.map_cons, List.countP_cons]
    split <;> omega

theorem count_eq (p : Event → Bool) (q : Queue) : q.count p = q.toList.countP p := by
  rw [count, Std.TreeMap.foldl_eq_foldl_toList, foldl_count, Nat.zero_add, toList]

/-! ### Taking out -/

theorem first?_eq (q : Queue) : q.first? = q.pending.toList.head? := by
  unfold first?
  simp only [Std.TreeMap.forIn_eq_forIn_toList]
  cases q.pending.toList <;> rfl

theorem mem_of_first? {q : Queue} {x : Slot × Event} (h : q.first? = some x) :
    x ∈ q.pending.toList := by
  rw [first?_eq] at h
  exact List.mem_of_head? h

theorem nodup_of_sorted {xs : List (Slot × Event)}
    (h : xs.Pairwise fun x y => compare x.1 y.1 = .lt) : xs.Nodup := by
  refine h.imp fun {x y} hlt heq => ?_
  have hself : compare y.1 y.1 = .eq := Std.ReflCmp.compare_self
  rw [heq, hself] at hlt
  cases hlt

/-- There is one way only to put events into the order of their slots. -/
theorem eq_of_sorted {xs ys : List (Slot × Event)} (h : xs.Perm ys)
    (hx : xs.Pairwise fun x y => compare x.1 y.1 = .lt)
    (hy : ys.Pairwise fun x y => compare x.1 y.1 = .lt) : xs = ys := by
  refine h.eq_of_pairwise (fun x y _ _ hxy hyx => ?_) hx hy
  have := Std.OrientedCmp.gt_of_lt hxy
  rw [hyx] at this
  cases this

theorem erase_perm {t : Std.TreeMap Slot Event} {slot : Slot} {e : Event}
    {rest : List (Slot × Event)} (h : t.toList = (slot, e) :: rest) :
    (t.erase slot).toList = rest := by
  have hsorted := Std.TreeMap.ordered_keys_toList (t := t)
  rw [h, List.pairwise_cons] at hsorted
  have hmem : ∀ x, x ∈ (t.erase slot).toList ↔ x ∈ rest := by
    intro ⟨k, v⟩
    rw [Std.TreeMap.mem_toList_iff_getElem?_eq_some, Std.TreeMap.getElem?_erase]
    constructor
    · intro hk
      split at hk
      · cases hk
      · rename_i hne
        rw [← Std.TreeMap.mem_toList_iff_getElem?_eq_some, h, List.mem_cons] at hk
        rcases hk with hk | hk
        · cases hk
          exact absurd (Std.ReflCmp.compare_self) hne
        · exact hk
    · intro hk
      have hlt := hsorted.1 (k, v) hk
      rw [if_neg (by rw [hlt]; nofun), ← Std.TreeMap.mem_toList_iff_getElem?_eq_some, h]
      exact List.mem_cons_of_mem _ hk
  have hsorted' := Std.TreeMap.ordered_keys_toList (t := t.erase slot)
  have hperm : (t.erase slot).toList.Perm rest :=
    (List.perm_ext_iff_of_nodup (nodup_of_sorted hsorted') (nodup_of_sorted hsorted.2)).mpr hmem
  exact eq_of_sorted hperm hsorted' hsorted.2

theorem pop?_eq_none {q : Queue} : q.pop? = none ↔ q.toList = [] := by
  rw [pop?, first?_eq, Option.map_eq_none_iff, List.head?_eq_none_iff, toList, List.map_eq_nil_iff]

/-- The first slot goes, with its event, and the clock moves to it. -/
theorem slots_pop? {q q' : Queue} {e : Event} (h : q.pop? = some (e, q')) :
    ∃ slot, q.pending.toList = (slot, e) :: q'.pending.toList ∧ q'.now = e.time ∧
      q'.turns = q.turns := by
  rw [pop?, first?_eq] at h
  cases hl : q.pending.toList with
  | nil => rw [hl] at h; cases h
  | cons x rest =>
    obtain ⟨slot, e'⟩ := x
    rw [hl] at h
    cases h
    exact ⟨slot, by rw [erase_perm hl], rfl, rfl⟩

/-- What is taken out is the front of the list; the clock moves to it. -/
theorem pop?_eq_some {q q' : Queue} {e : Event} (h : q.pop? = some (e, q')) :
    q.toList = e :: q'.toList ∧ q'.now = e.time ∧ q'.turns = q.turns ∧ (q.Sound → q'.Sound) := by
  obtain ⟨slot, hslots, hnow, hturns⟩ := slots_pop? h
  refine ⟨by rw [toList, hslots]; rfl, hnow, hturns, fun hs k hk => ?_⟩
  rw [hturns]
  rw [mem_pending_iff] at hk
  obtain ⟨e', hk⟩ := hk
  exact hs k (mem_pending_iff.mpr ⟨e', hslots ▸ List.mem_cons_of_mem _ hk⟩)

/-! ### Putting in -/

theorem insert_eq_error {q : Queue} {e : Event} {f : Fault} (h : q.insert e = .error f) :
    e.time < q.now ∧ f = .eventInPast := by
  unfold insert at h
  split at h
  · cases h
    exact ⟨by assumption, rfl⟩
  · cases h

/-- An event that is not in the past gets the next turn. -/
theorem slots_insert {q q' : Queue} {e : Event} (h : q.insert e = .ok q') (hs : q.Sound) :
    q'.pending.toList.Perm ((⟨e.time, q.turns + 1⟩, e) :: q.pending.toList) ∧ q'.now = q.now ∧
      q'.turns = q.turns + 1 ∧ q'.Sound := by
  unfold insert at h
  split at h
  · cases h
  · cases h
    refine ⟨?_, rfl, rfl, ?_⟩
    · have hfresh : q.pending.toList.filter (fun x => ¬(⟨e.time, q.turns + 1⟩ : Slot) == x.1) =
          q.pending.toList := by
        rw [List.filter_eq_self]
        intro x hx
        have hturn : x.1.turn ≤ q.turns := hs x.1 (mem_pending_iff.mpr ⟨x.2, hx⟩)
        simp only [beq_iff_eq, decide_not, Bool.not_eq_eq_eq_not, Bool.not_true,
          decide_eq_false_iff_not]
        intro heq
        rw [← heq] at hturn
        simp only at hturn
        omega
      have hperm := Std.TreeMap.toList_insert_perm (t := q.pending)
        (k := ⟨e.time, q.turns + 1⟩) (v := e)
      rwa [hfresh] at hperm
    · intro slot hslot
      rcases Std.TreeMap.mem_insert.mp hslot with heq | hmem
      · exact Nat.le_of_eq (congrArg Slot.turn (Std.LawfulEqCmp.eq_of_compare heq).symm)
      · exact Nat.le_succ_of_le (hs slot hmem)

theorem insert_eq_ok {q q' : Queue} {e : Event} (h : q.insert e = .ok q') (hs : q.Sound) :
    q'.toList.Perm (e :: q.toList) ∧ q'.now = q.now ∧ q'.Sound := by
  obtain ⟨hslots, hnow, _, hsound⟩ := slots_insert h hs
  have hevents := hslots.map (·.2)
  exact ⟨hevents, hnow, hsound⟩

theorem exists_insert {q : Queue} {e : Event} (h : ¬ e.time < q.now) :
    ∃ q', q.insert e = .ok q' := by
  unfold insert
  rw [if_neg h]
  exact ⟨_, rfl⟩

theorem insertAll_eq_ok {events : List Event} {q q' : Queue} (h : insertAll events q = .ok q')
    (hs : q.Sound) :
    q'.toList.Perm (events ++ q.toList) ∧ q'.now = q.now ∧ q'.Sound := by
  induction events generalizing q with
  | nil =>
    cases h
    exact ⟨.refl _, rfl, hs⟩
  | cons e rest ih =>
    rw [insertAll] at h
    cases hi : q.insert e with
    | error f => rw [hi] at h; cases h
    | ok q₁ =>
      rw [hi] at h
      obtain ⟨hperm, hnow, hs₁⟩ := insert_eq_ok hi hs
      obtain ⟨hperm', hnow', hs'⟩ := ih h hs₁
      refine ⟨?_, hnow'.trans hnow, hs'⟩
      exact hperm'.trans ((hperm.append_left rest).trans List.perm_middle)

theorem insertAll_append {xs ys : List Event} {q q₁ q₂ : Queue} (h : insertAll xs q = .ok q₁)
    (h' : insertAll ys q₁ = .ok q₂) : insertAll (xs ++ ys) q = .ok q₂ := by
  induction xs generalizing q with
  | nil =>
    cases h
    exact h'
  | cons e rest ih =>
    rw [insertAll] at h
    cases hi : q.insert e with
    | error f => rw [hi] at h; cases h
    | ok q' =>
      rw [hi] at h
      rw [List.cons_append, insertAll, hi]
      exact ih h

theorem exists_insertAll {events : List Event} {q : Queue}
    (h : ∀ e ∈ events, ¬ e.time < q.now) : ∃ q', insertAll events q = .ok q' := by
  induction events generalizing q with
  | nil => exact ⟨q, rfl⟩
  | cons e rest ih =>
    obtain ⟨q₁, hi⟩ := exists_insert (h e List.mem_cons_self)
    have hnow : q₁.now = q.now := by
      unfold insert at hi
      split at hi
      · cases hi
      · cases hi; rfl
    obtain ⟨q', hq'⟩ := ih (q := q₁) fun e' he' => hnow ▸ h e' (List.mem_cons_of_mem _ he')
    exact ⟨q', by rw [insertAll, hi]; exact hq'⟩

/-! ### Aborting a link -/

theorem time_breakLink (a b : NodeId) (e : Event) : (breakLink a b e).time = e.time := by
  unfold breakLink
  split <;> rfl

theorem breakLink_of_not_breaksWith {a b : NodeId} {e : Event} (h : breaksWith a b e = false) :
    breakLink a b e = e := by
  obtain ⟨time, kind⟩ := e
  unfold breaksWith at h
  unfold breakLink
  split
  · rename_i hbetween
    rw [hbetween, Bool.true_and] at h
    cases kind with
    | transmission sender receiver packet valid =>
      obtain rfl : valid = false := h
      rfl
    | _ => cases hbetween
  · rfl

theorem slots_invalidateLink (a b : NodeId) (q : Queue) :
    (q.invalidateLink a b).1 = q.toList.countP (breaksWith a b) ∧
      (q.invalidateLink a b).2.pending.toList =
        q.pending.toList.map (fun x => (x.1, breakLink a b x.2)) ∧
      (q.invalidateLink a b).2.now = q.now ∧ (q.invalidateLink a b).2.turns = q.turns := by
  have hcount := q.count_eq (breaksWith a b)
  unfold invalidateLink
  dsimp only
  split
  · rename_i hzero
    refine ⟨by rw [← hcount, hzero], ?_, rfl, rfl⟩
    rw [hcount, List.countP_eq_zero] at hzero
    symm
    refine (List.map_congr_left fun x hx => ?_).trans (List.map_id _)
    have hx' := hzero x.2 (List.mem_map_of_mem hx)
    rw [breakLink_of_not_breaksWith (Bool.not_eq_true _ ▸ hx')]
    rfl
  · exact ⟨hcount, Std.TreeMap.toList_map, rfl, rfl⟩

/-- Aborting a link changes events in place, and counts the ones that it changes. -/
theorem toList_invalidateLink (a b : NodeId) (q : Queue) :
    (q.invalidateLink a b).1 = q.toList.countP (breaksWith a b) ∧
      (q.invalidateLink a b).2.toList = q.toList.map (breakLink a b) ∧
      (q.invalidateLink a b).2.now = q.now ∧
      (q.Sound → (q.invalidateLink a b).2.Sound) := by
  obtain ⟨hcount, hslots, hnow, hturns⟩ := slots_invalidateLink a b q
  refine ⟨hcount, ?_, hnow, fun hs slot hslot => ?_⟩
  · rw [toList, hslots, toList, List.map_map, List.map_map]
    rfl
  · obtain ⟨e, he⟩ := mem_pending_iff.mp hslot
    rw [hslots] at he
    obtain ⟨x, hx, heq⟩ := List.mem_map.mp he
    cases heq
    rw [hturns]
    exact hs x.1 (mem_pending_iff.mpr ⟨x.2, hx⟩)

end Queue

end OppNet.Event
