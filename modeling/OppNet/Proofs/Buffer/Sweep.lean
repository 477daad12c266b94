import OppNet.Buffer
import OppNet.Proofs.Packet.Entry

/-!
# OppNet.Proofs.Buffer.Sweep

The expiry sweep. `sweep_eq` removes its shortcut, so that the lemmas below need no case split:

* `entries_sweep`: what is left of each entry, in the same order.
* `livePackets_sweep`: the live packets that have not expired, in the same order.
* `sweep_sweep`: a second sweep at the same time changes nothing.
* `size_sweep`: every entry that goes is counted as expired, and nothing else is counted.
* `sweep_notes`: what has been noted before makes no difference to what is left.
-/

namespace OppNet

namespace Entry

variable {now : Time} {lifetime : TimeSpan}

theorem isExpired_of_isZero (h : lifetime.isZero = true) (p : Packet) :
    p.isExpired now lifetime = false := by
  simp [Packet.isExpired, h]

theorem expire_of_isZero (h : lifetime.isZero = true) (e : Entry) :
    e.expire now lifetime = .fresh := by
  cases e with
  | single p => simp [expire, isExpired_of_isZero h]
  | coded c =>
    simp only [expire, isExpired_of_isZero h]
    cases c.survivor <;> simp

theorem surviving?_of_fresh {e : Entry} (h : e.expire now lifetime = .fresh) :
    e.surviving? now lifetime = some e := by
  simp [surviving?, h]

theorem livePackets_surviving? (now : Time) (lifetime : TimeSpan) (e : Entry) :
    ((e.surviving? now lifetime).map livePackets).getD [] =
      e.livePackets.filter fun p => !p.isExpired now lifetime := by
  cases e with
  | single p =>
    cases hp : p.isExpired now lifetime <;> simp [surviving?, expire, hp]
  | coded c =>
    cases hs : c.survivor with
    | some left =>
      cases hl : (c.half left).isExpired now lifetime <;>
        simp [surviving?, expire, livePackets, CodedPair.livePackets_of_survivor hs, hs, hl]
    | none =>
      cases hf : c.first.isExpired now lifetime <;> cases hl : c.second.isExpired now lifetime <;>
        simp [surviving?, expire, livePackets, CodedPair.livePackets, CodedPair.half, hs, hf, hl]

theorem expire_of_unexpired {e : Entry}
    (h : ∀ p ∈ e.livePackets, p.isExpired now lifetime = false) :
    e.expire now lifetime = .fresh := by
  cases e with
  | single p => simp [expire, h p (by simp)]
  | coded c =>
    cases hs : c.survivor with
    | some left =>
      have := h (c.half left) (by simp [livePackets, CodedPair.livePackets_of_survivor hs])
      simp [expire, hs, this]
    | none =>
      have hf := h c.first (by simp [livePackets, CodedPair.livePackets_of_intact hs])
      have hl := h c.second (by simp [livePackets, CodedPair.livePackets_of_intact hs])
      simp [expire, hs, hf, hl]

theorem expire_of_surviving? {e e' : Entry} (h : e.surviving? now lifetime = some e') :
    e'.expire now lifetime = .fresh := by
  have hl := livePackets_surviving? now lifetime e
  rw [h, Option.map_some, Option.getD_some] at hl
  refine expire_of_unexpired fun p hp => ?_
  rw [hl, List.mem_filter] at hp
  simpa using hp.2

end Entry

def Expiry.isGone : Expiry → Bool
  | .gone _ => true
  | _ => false

theorem Entry.surviving?_eq_none {now : Time} {lifetime : TimeSpan} {e : Entry} :
    e.surviving? now lifetime = none ↔ (e.expire now lifetime).isGone = true := by
  unfold Entry.surviving?
  cases e.expire now lifetime <;> simp [Expiry.isGone]

namespace Buffer

variable {now : Time}

/-! ### The books of a sweep -/

/-- What no single expiry changes, none of them changes. -/
theorem foldl_settle {α : Type} {g : Buffer → α} (h : ∀ b x, g (settle now b x) = g b)
    (xs : List Expiry) (b : Buffer) : g (xs.foldl (settle now) b) = g b := by
  induction xs generalizing b with
  | nil => rfl
  | cons x rest ih => rw [List.foldl_cons, ih, h]

theorem foldl_settle_of_fresh {xs : List Expiry} (h : ∀ x ∈ xs, x = .fresh) (b : Buffer) :
    xs.foldl (settle now) b = b := by
  induction xs with
  | nil => rfl
  | cons x rest ih =>
    rw [h x (by simp)]
    exact ih fun y hy => h y (by simp [hy])

theorem expired_foldl_settle (xs : List Expiry) (b : Buffer) :
    (xs.foldl (settle now) b).counters.expired =
      b.counters.expired + xs.countP Expiry.isGone := by
  induction xs generalizing b with
  | nil => simp
  | cons x rest ih =>
    rw [List.foldl_cons, ih, List.countP_cons]
    cases x with
    | fresh => simp [settle, Expiry.isGone]
    | half lost left => simp [settle, note, Expiry.isGone]
    | gone lost =>
      simp only [settle, note, record, Expiry.isGone, if_true]
      omega

theorem filterMap_surviving?_of_fresh {lifetime : TimeSpan} {es : List Entry}
    (h : ∀ e ∈ es, e.expire now lifetime = .fresh) :
    es.filterMap (Entry.surviving? now lifetime) = es := by
  induction es with
  | nil => rfl
  | cons e rest ih =>
    rw [List.filterMap_cons, Entry.surviving?_of_fresh (h e (by simp)),
      ih fun x hx => h x (by simp [hx])]

theorem sweep_of_fresh {b : Buffer} (h : ∀ e ∈ b.entries, e.expire now b.lifetime = .fresh) :
    b.sweep now = b := by
  unfold sweep
  rw [if_pos]
  simpa [List.all_eq_true] using .inr h

/-- A sweep without its shortcut for a buffer in which nothing has expired. -/
theorem sweep_eq (now : Time) (b : Buffer) :
    b.sweep now =
      { (b.entries.map (Entry.expire now b.lifetime)).foldl (settle now) b with
        entries := b.entries.filterMap (Entry.surviving? now b.lifetime) } := by
  by_cases h : ∀ e ∈ b.entries, e.expire now b.lifetime = .fresh
  · rw [sweep_of_fresh h, filterMap_surviving?_of_fresh h, foldl_settle_of_fresh]
    intro x hx
    obtain ⟨e, he, rfl⟩ := List.mem_map.mp hx
    exact h e he
  · unfold sweep
    rw [if_neg]
    intro hc
    apply h
    intro e he
    simp only [Bool.or_eq_true, List.all_eq_true, beq_iff_eq] at hc
    rcases hc with hz | hf
    · exact Entry.expire_of_isZero hz e
    · exact hf e he

@[simp] theorem entries_sweep (now : Time) (b : Buffer) :
    (b.sweep now).entries = b.entries.filterMap (Entry.surviving? now b.lifetime) := by
  rw [sweep_eq]

theorem sweep_keeps {α : Type} {g : Buffer → α} (he : ∀ b es, g { b with entries := es } = g b)
    (h : ∀ b x, g (settle now b x) = g b) (b : Buffer) : g (b.sweep now) = g b := by
  rw [sweep_eq, he, foldl_settle h]

@[simp] theorem capacity_sweep (now : Time) (b : Buffer) : (b.sweep now).capacity = b.capacity :=
  sweep_keeps (fun _ _ => rfl) (fun b x => by cases x <;> rfl) b

@[simp] theorem lifetime_sweep (now : Time) (b : Buffer) : (b.sweep now).lifetime = b.lifetime :=
  sweep_keeps (fun _ _ => rfl) (fun b x => by cases x <;> rfl) b

@[simp] theorem eviction_sweep (now : Time) (b : Buffer) : (b.sweep now).eviction = b.eviction :=
  sweep_keeps (fun _ _ => rfl) (fun b x => by cases x <;> rfl) b

@[simp] theorem evictions_sweep (now : Time) (b : Buffer) :
    (b.sweep now).evictions = b.evictions :=
  sweep_keeps (fun _ _ => rfl) (fun b x => by cases x <;> rfl) b

@[simp] theorem inserted_sweep (now : Time) (b : Buffer) :
    (b.sweep now).counters.inserted = b.counters.inserted :=
  sweep_keeps (g := fun b => b.counters.inserted) (fun _ _ => rfl)
    (fun b x => by cases x <;> rfl) b

@[simp] theorem dropped_sweep (now : Time) (b : Buffer) :
    (b.sweep now).counters.dropped = b.counters.dropped :=
  sweep_keeps (g := fun b => b.counters.dropped) (fun _ _ => rfl)
    (fun b x => by cases x <;> rfl) b

@[simp] theorem removed_sweep (now : Time) (b : Buffer) :
    (b.sweep now).counters.removed = b.counters.removed :=
  sweep_keeps (g := fun b => b.counters.removed) (fun _ _ => rfl)
    (fun b x => by cases x <;> rfl) b

theorem size_sweep (now : Time) (b : Buffer) :
    (b.sweep now).size + (b.sweep now).counters.expired = b.size + b.counters.expired := by
  have hx : (b.sweep now).counters.expired = b.counters.expired +
      (b.entries.map (Entry.expire now b.lifetime)).countP Expiry.isGone := by
    rw [sweep_eq]; exact expired_foldl_settle _ b
  have hn : ∀ es : List Entry, (es.filterMap (Entry.surviving? now b.lifetime)).length +
      (es.map (Entry.expire now b.lifetime)).countP Expiry.isGone = es.length := by
    intro es
    induction es with
    | nil => rfl
    | cons e rest ih =>
      rw [List.filterMap_cons, List.map_cons, List.countP_cons, List.length_cons]
      cases he : e.surviving? now b.lifetime with
      | none => rw [if_pos (Entry.surviving?_eq_none.mp he)]; simp only; omega
      | some e' =>
        have hg : ¬ (e.expire now b.lifetime).isGone = true := by
          rw [← Entry.surviving?_eq_none, he]; simp
        rw [if_neg hg, List.length_cons]; omega
  have := hn b.entries
  simp only [size, entries_sweep, hx]
  omega

/-! ### What a sweep leaves -/

/-- Entries that keep some of their live packets each keep those of the buffer. -/
theorem flatMap_livePackets_filterMap {f : Entry → Option Entry} {keep : Packet → Bool}
    {es : List Entry}
    (h : ∀ e ∈ es, ((f e).map Entry.livePackets).getD [] = e.livePackets.filter keep) :
    (es.filterMap f).flatMap Entry.livePackets = (es.flatMap Entry.livePackets).filter keep := by
  induction es with
  | nil => rfl
  | cons e rest ih =>
    rw [List.flatMap_cons, List.filter_append, ← ih fun x hx => h x (by simp [hx]),
      ← h e (by simp), List.filterMap_cons]
    cases f e <;> simp

theorem livePackets_sweep (now : Time) (b : Buffer) :
    (b.sweep now).livePackets = b.livePackets.filter fun p => !p.isExpired now b.lifetime := by
  rw [livePackets, entries_sweep]
  exact flatMap_livePackets_filterMap fun e _ => e.livePackets_surviving? now b.lifetime

theorem foldl_settle_notes (now : Time) (xs : List Expiry) (b : Buffer) (notes : List Note) :
    ∃ notes', xs.foldl (settle now) { b with notes := notes } =
      { xs.foldl (settle now) b with notes := notes' } := by
  induction xs generalizing b notes with
  | nil => exact ⟨notes, rfl⟩
  | cons x rest ih =>
    rw [List.foldl_cons, List.foldl_cons]
    cases x with
    | fresh => exact ih b notes
    | half lost left => exact ih (settle now b (.half lost left)) _
    | gone lost => exact ih (settle now b (.gone lost)) _

theorem sweep_notes (now : Time) (b : Buffer) (notes : List Note) :
    { ({ b with notes := notes } : Buffer).sweep now with notes := [] } =
      { b.sweep now with notes := [] } := by
  obtain ⟨notes', h⟩ := foldl_settle_notes now
    (b.entries.map (Entry.expire now b.lifetime)) b notes
  rw [sweep_eq, sweep_eq, h]

theorem expire_of_mem_sweep {b : Buffer} {e : Entry} (h : e ∈ (b.sweep now).entries) :
    e.expire now b.lifetime = .fresh := by
  rw [entries_sweep, List.mem_filterMap] at h
  obtain ⟨e', _, he⟩ := h
  exact Entry.expire_of_surviving? he

theorem sweep_sweep (now : Time) (b : Buffer) : (b.sweep now).sweep now = b.sweep now :=
  sweep_of_fresh fun _ he => by rw [lifetime_sweep]; exact expire_of_mem_sweep he

end Buffer

end OppNet
