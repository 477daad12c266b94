import OppNet.Proofs.Buffer.Expiry
import OppNet.Proofs.Packet.Thresholds

/-!
# OppNet.Proofs.Buffer.Compaction

Two packets that are entries of their own are made into one entry.

* `eraseSingle_pair_eq_filter`: where no packet is live twice, the two entries that are erased are
  those of the two packets, whichever of them comes first.
* `Compacted`: the courses that a compaction can take, told by what is among the entries.
* `Joined`: what becomes of two packets that fit together. `Compaction`: that, and which fault
  arises when.
* `compaction_exact`: every buffer that requests can build.
-/

namespace OppNet.Buffer

variable {now : Time} {b : Buffer} {x y : PacketId} {p q : Packet} {es : List Entry}

def Alone (id : PacketId) (b : Buffer) : Prop := ∃ p, Entry.single p ∈ b.entries ∧ p.id = id

/-! ### Erasing -/

theorem filter_single_of_absent (h : p.id ∉ es.flatMap Entry.liveIds) :
    es.filter (fun e => e ≠ .single p) = es := by
  rw [List.filter_eq_self]
  intro e he
  rw [decide_eq_true_eq]
  rintro rfl
  exact h (List.mem_flatMap.mpr ⟨_, he, List.mem_singleton_self p.id⟩)

/-- Where no packet is live twice, the entry that is erased is the only one of its kind. -/
theorem eraseSingle_eq_filter (h : (es.flatMap Entry.liveIds).Nodup) (hp : Entry.single p ∈ es) :
    eraseSingle p.id es = es.filter fun e => e ≠ .single p := by
  induction es with
  | nil => cases hp
  | cons e rest ih =>
    rw [List.flatMap_cons] at h
    by_cases he : e = .single p
    · subst he
      have habsent : p.id ∉ rest.flatMap Entry.liveIds :=
        fun hlive => List.disjoint_of_nodup_append h (List.mem_singleton_self p.id) hlive
      rw [List.filter_cons_of_neg (by simp), filter_single_of_absent habsent]
      exact List.eraseP_cons_of_pos (by simp [Entry.single?])
    · have hrest : Entry.single p ∈ rest := (List.mem_cons.mp hp).resolve_left (Ne.symm he)
      have hother : e.single? p.id = none := by
        rw [Option.eq_none_iff_forall_ne_some]
        intro q hq
        obtain ⟨hid, rfl⟩ := single?_eq_some hq
        refine List.disjoint_of_nodup_append h (List.mem_singleton_self q.id) ?_
        exact List.mem_flatMap.mpr ⟨_, hrest, by simp [hid]⟩
      rw [List.filter_cons_of_pos (by simpa using he), ← ih h.of_append_right hrest]
      exact List.eraseP_cons_of_neg (by simp [hother])

theorem eraseSingle_pair_eq_filter (h : (es.flatMap Entry.liveIds).Nodup)
    (hp : Entry.single p ∈ es) (hq : Entry.single q ∈ es) (hne : p.id ≠ q.id) :
    eraseSingle q.id (eraseSingle p.id es) =
      es.filter fun e => e ≠ .single p ∧ e ≠ .single q := by
  have hkept : Entry.single q ∈ es.filter fun e => e ≠ .single p := by
    refine List.mem_filter.mpr ⟨hq, ?_⟩
    rw [decide_eq_true_eq]
    rintro ⟨⟩
    exact hne rfl
  have hnodup : ((es.filter fun e => e ≠ .single p).flatMap Entry.liveIds).Nodup :=
    h.sublist (Remains.of_sublist List.filter_sublist).liveIds_sublist
  rw [eraseSingle_eq_filter h hp, eraseSingle_eq_filter hnodup hkept, List.filter_filter]
  refine List.filter_congr fun e _ => ?_
  rw [Bool.decide_and, Bool.and_comm]

/-! ### Finding -/

theorem findSingle?_eq_none_iff : b.findSingle? x = none ↔ ¬ Alone x b := by
  rw [findSingle?, List.findSome?_eq_none_iff]
  constructor
  · rintro h ⟨p, hp, hid⟩
    have hnone := h _ hp
    simp [Entry.single?, hid] at hnone
  · intro h e he
    rw [Option.eq_none_iff_forall_ne_some]
    intro p hp
    obtain ⟨hid, rfl⟩ := single?_eq_some hp
    exact h ⟨p, he, hid⟩

theorem eq_of_single (hb : Integrity b.entries) (hp : Entry.single p ∈ b.entries)
    (hq : Entry.single q ∈ b.entries) (h : p.id = q.id) : p = q :=
  eq_of_live hb (List.mem_flatMap.mpr ⟨_, hp, List.mem_singleton_self p⟩)
    (List.mem_flatMap.mpr ⟨_, hq, List.mem_singleton_self q⟩) h

/-! ### Courses -/

/-- The two packets as the halves of one pair, with the better knowledge of both. -/
def pairOf (thresholds : List Float) (p q : Packet) : CodedPair where
  first := { p with thresholds := thresholds, replicas := max p.replicas q.replicas }
  second := { q with thresholds := thresholds, replicas := max p.replicas q.replicas }
  survivor := none

/-- The packets can share a pair: they travel between the same ends in opposite directions. -/
def Opposite (p q : Packet) : Prop := CodedPair.Crossed ⟨p, q, none⟩

/-- The courses that a compaction can take, each with its answer and the buffer afterwards. -/
inductive Compacted (now : Time) (b : Buffer) (x y : PacketId) : Outcome Unit → Prop
  | first (hx : ¬ Alone x (b.sweep now)) :
    Compacted now b x y (.error (.packetNotFound x), b.sweep now)
  | second (hx : Alone x (b.sweep now)) (hy : ¬ Alone y (b.sweep now)) :
    Compacted now b x y (.error (.packetNotFound y), b.sweep now)
  | unfit {p q : Packet} (hp : Entry.single p ∈ (b.sweep now).entries)
    (hq : Entry.single q ∈ (b.sweep now).entries) (hx : p.id = x) (hy : q.id = y)
    (h : ¬ Opposite p q) : Compacted now b x y (.error (.invalidEncoding x y), b.sweep now)
  | joined {p q : Packet} (hp : Entry.single p ∈ (b.sweep now).entries)
    (hq : Entry.single q ∈ (b.sweep now).entries) (hx : p.id = x) (hy : q.id = y)
    (h : Opposite p q) : Compacted now b x y (.ok (), { b.sweep now with
      entries := (b.sweep now).entries.filter (fun e => e ≠ .single p ∧ e ≠ .single q) ++
        [.coded (pairOf (Packet.mergeThresholds p.thresholds q.thresholds) p q)]
      notes := ⟨now, .encoded x y⟩ :: (b.sweep now).notes })

theorem combine_mergedWith (thresholds : List Float) (p q : Packet) :
    (Opposite p q → CodedPair.combine (p.mergedWith thresholds (max p.replicas q.replicas))
      (q.mergedWith thresholds (max p.replicas q.replicas)) = .ok (pairOf thresholds p q)) ∧
    (¬ Opposite p q → CodedPair.combine (p.mergedWith thresholds (max p.replicas q.replicas))
      (q.mergedWith thresholds (max p.replicas q.replicas)) =
        .error (.invalidEncoding p.id q.id)) := by
  have hfit : (p.mergedWith thresholds (max p.replicas q.replicas)).encodableWith
      (q.mergedWith thresholds (max p.replicas q.replicas)) = true ↔ Opposite p q :=
    (CodedPair.crossed_iff (c := pairOf thresholds p q)).symm
  unfold CodedPair.combine
  constructor
  · intro h
    rw [if_pos (hfit.mpr h)]
    rfl
  · intro h
    rw [if_neg (fun henc => h (hfit.mp henc))]
    rfl

theorem compacted_compact (hb : Integrity b.entries) (now : Time) (x y : PacketId) :
    Compacted now b x y (b.compact now x y) := by
  have hs := integrity_sweep hb now
  unfold compact
  cases hx : (b.sweep now).findSingle? x with
  | none =>
    simp only [hx]
    exact .first (findSingle?_eq_none_iff.mp hx)
  | some p =>
    obtain ⟨rfl, hp⟩ := findSingle?_eq_some hx
    cases hy : (b.sweep now).findSingle? y with
    | none =>
      simp only [hx, hy]
      exact .second ⟨p, hp, rfl⟩ (findSingle?_eq_none_iff.mp hy)
    | some q =>
      obtain ⟨rfl, hq⟩ := findSingle?_eq_some hy
      obtain ⟨hfit, hunfit⟩ :=
        combine_mergedWith (Packet.mergeThresholds p.thresholds q.thresholds) p q
      by_cases h : Opposite p q
      · simp only [hx, hy, hfit h, eraseSingle_pair_eq_filter hs.distinct hp hq h.1]
        exact .joined hp hq rfl rfl h
      · simp only [hx, hy, hunfit h]
        exact .unfit hp hq rfl rfl h

/-! ### All of it -/

/--
Two entries of their own become one intact pair at the end. The other entries keep their order, and
apart from what was noted nothing else changes.
-/
structure Joined (now : Time) (p q : Packet) (thresholds : List Float) (before after : Buffer) :
    Prop where
  result : after = { before with
    entries := before.entries.filter (fun e => e ≠ .single p ∧ e ≠ .single q) ++
      [.coded (pairOf thresholds p q)]
    notes := ⟨now, .encoded p.id q.id⟩ :: before.notes }
  size : after.size + 1 = before.size
  merged : Packet.Merged p.thresholds q.thresholds thresholds

/-- What combining two packets does to the buffer that a sweep leaves. -/
structure Compaction (now : Time) (x y : PacketId) (b : Buffer) : Prop where
  /-- The second packet is missed only where the first one is there. -/
  not_found : ∀ id, (b.compact now x y).1 = .error (.packetNotFound id) ↔
    id = x ∧ ¬ Alone x (b.sweep now) ∨
      id = y ∧ Alone x (b.sweep now) ∧ ¬ Alone y (b.sweep now)
  invalid : ∀ i j, (b.compact now x y).1 = .error (.invalidEncoding i j) ↔
    i = x ∧ j = y ∧ ∃ p q, Entry.single p ∈ (b.sweep now).entries ∧
      Entry.single q ∈ (b.sweep now).entries ∧ p.id = x ∧ q.id = y ∧ ¬ Opposite p q
  /-- No packet fits itself. -/
  itself : x = y → Alone x (b.sweep now) →
    (b.compact now x y).1 = .error (.invalidEncoding x y)
  /-- There are no other faults, and a refused compaction has only swept. -/
  refused : ∀ f, (b.compact now x y).1 = .error f →
    (f = .packetNotFound x ∨ f = .packetNotFound y ∨ f = .invalidEncoding x y) ∧
      (b.compact now x y).2 = b.sweep now
  joined : ∀ p q, Entry.single p ∈ (b.sweep now).entries →
    Entry.single q ∈ (b.sweep now).entries → p.id = x → q.id = y → Opposite p q →
    (b.compact now x y).1 = .ok () ∧
      ∃ thresholds, Joined now p q thresholds (b.sweep now) (b.compact now x y).2

/-- The two entries that go and the one that comes. -/
theorem length_filter_pair (h : (es.flatMap Entry.liveIds).Nodup) (hp : Entry.single p ∈ es)
    (hq : Entry.single q ∈ es) (hne : p.id ≠ q.id) :
    (es.filter fun e => e ≠ .single p ∧ e ≠ .single q).length + 2 = es.length := by
  have hfirst := length_eraseSingle hp
  have hsecond := length_eraseSingle (mem_eraseSingle_of_ne hne.symm hq)
  rw [← eraseSingle_pair_eq_filter h hp hq hne]
  omega

theorem compaction_of_integrity (hb : Integrity b.entries) (now : Time) (x y : PacketId) :
    Compaction now x y b := by
  have hs := integrity_sweep hb now
  have hc := compacted_compact hb now x y
  constructor
  · intro id
    generalize b.compact now x y = o at hc
    cases hc with
    | first hx => simp [hx, eq_comm]
    | second hx hy => simp [hx, hy, eq_comm]
    | unfit hp hq hx hy h =>
      have hx : Alone x (b.sweep now) := ⟨_, hp, hx⟩
      have hy : Alone y (b.sweep now) := ⟨_, hq, hy⟩
      simp [hx, hy]
    | joined hp hq hx hy h =>
      have hx : Alone x (b.sweep now) := ⟨_, hp, hx⟩
      have hy : Alone y (b.sweep now) := ⟨_, hq, hy⟩
      simp [hx, hy]
  · intro i j
    generalize b.compact now x y = o at hc
    cases hc with
    | first hx =>
      refine iff_of_false nofun ?_
      rintro ⟨-, -, p, q, hp, -, hid, -⟩
      exact hx ⟨p, hp, hid⟩
    | second hx hy =>
      refine iff_of_false nofun ?_
      rintro ⟨-, -, p, q, -, hq, -, hid, -⟩
      exact hy ⟨q, hq, hid⟩
    | @unfit p q hp hq hx hy h =>
      constructor
      · rintro ⟨⟩
        exact ⟨rfl, rfl, p, q, hp, hq, hx, hy, h⟩
      · rintro ⟨rfl, rfl, -⟩
        rfl
    | joined hp hq hx hy h =>
      refine iff_of_false nofun ?_
      rintro ⟨-, -, p', q', hp', hq', hx', hy', h'⟩
      obtain rfl := eq_of_single hs hp hp' (hx.trans hx'.symm)
      obtain rfl := eq_of_single hs hq hq' (hy.trans hy'.symm)
      exact h' h
  · rintro rfl hx
    generalize b.compact now x x = o at hc
    cases hc with
    | first hx' => exact absurd hx hx'
    | second _ hx' => exact absurd hx hx'
    | unfit => rfl
    | joined hp hq hx hy h => exact absurd (hx.trans hy.symm) h.1
  · intro f hf
    generalize b.compact now x y = o at hc hf ⊢
    cases hc with
    | first => cases hf; exact ⟨.inl rfl, rfl⟩
    | second => cases hf; exact ⟨.inr (.inl rfl), rfl⟩
    | unfit => cases hf; exact ⟨.inr (.inr rfl), rfl⟩
    | joined => cases hf
  · intro p q hp hq hx hy h
    generalize b.compact now x y = o at hc ⊢
    cases hc with
    | first hx' => exact absurd ⟨p, hp, hx⟩ hx'
    | second _ hy' => exact absurd ⟨q, hq, hy⟩ hy'
    | unfit hp' hq' hx' hy' h' =>
      obtain rfl := eq_of_single hs hp' hp (hx'.trans hx.symm)
      obtain rfl := eq_of_single hs hq' hq (hy'.trans hy.symm)
      exact absurd h h'
    | joined hp' hq' hx' hy' h' =>
      obtain rfl := eq_of_single hs hp' hp (hx'.trans hx.symm)
      obtain rfl := eq_of_single hs hq' hq (hy'.trans hy.symm)
      subst hx hy
      refine ⟨rfl, _, rfl, ?_, Packet.merged_mergeThresholds _ _⟩
      have hlen := length_filter_pair hs.distinct hp hq h.1
      simp only [size, List.length_append, List.length_singleton] at hlen ⊢
      omega

/--
Compaction is an exact merge, in every buffer that requests can build. Two packets that fit together
trade their two places for one at the end, and nothing else changes. Any other two are refused, for
the first reason that there is.
-/
theorem compaction_exact (capacity : Nat) (lifetime : TimeSpan) (eviction : EvictionPolicy)
    (recording : Bool) (rs : List (Time × Request)) (now : Time) :
    let b := (Buffer.new capacity lifetime eviction recording).run rs
    ∀ x y, Compaction now x y b := by
  intro b
  have hb : Integrity b.entries := integrity_run capacity lifetime eviction recording rs
  exact compaction_of_integrity hb now

/-- Of the two packets the second one was buffered first, and knows less. -/
example :
    let p := { Packet.generate ⟨1⟩ ⟨0⟩ ⟨1⟩ ⟨0.0⟩ with replicas := 2, thresholds := [0.25, 1.0] }
    let q := { Packet.generate ⟨2⟩ ⟨1⟩ ⟨0⟩ ⟨0.0⟩ with replicas := 3, thresholds := [0.5] }
    let other := Packet.generate ⟨3⟩ ⟨0⟩ ⟨2⟩ ⟨0.0⟩
    let b := (Buffer.new 3 ⟨0.0⟩ ⟨.front, false⟩ true).run
      [(⟨0.0⟩, .insert q), (⟨0.0⟩, .insert other), (⟨0.0⟩, .insert p)]
    (b.compact ⟨1.0⟩ ⟨1⟩ ⟨2⟩).2.entries =
      [.single other, .coded ⟨{ p with replicas := 3, thresholds := [0.5, 1.0] },
        { q with replicas := 3, thresholds := [0.5, 1.0] }, none⟩] := by
  decide +kernel

end OppNet.Buffer
