import OppNet.Proofs.Buffer.Request

/-!
# OppNet.Proofs.Buffer.Books

A buffer keeps books in four places: the entries themselves, the totals, the tally of evictions and
the history. Different operations write to them, and they agree all the same.

* `Booked recording coded b`: the books of a buffer in which `coded` pairs were made of packets that
  were entries of their own.
* `Booked.performed`: every request keeps this, and `booked_run` every sequence of requests.
-/

namespace OppNet

namespace Counters

/-- The total of what a record of that kind is about. -/
def recorded (c : Counters) : RecordKind → Nat
  | .inserted => c.inserted
  | .dropped => c.dropped
  | .expired => c.expired

end Counters

namespace History

def count (kind : RecordKind) (h : History) : Nat := h.backwards.countP (·.kind = kind)

theorem count_push (kind : RecordKind) (r : Record) (h : History) :
    (h.push r).count kind = h.count kind + if r.kind = kind then 1 else 0 := by
  simp [count, push, List.countP_cons]

end History

@[simp] theorem EvictionTally.total_add (victim : Entry) (t : EvictionTally) :
    (t.add victim).total = t.total + 1 := by
  unfold add total
  split <;> simp only <;> omega

namespace Buffer

variable {now : Time} {b b' : Buffer} {recording : Bool} {coded : Nat}

/-! ### The history -/

/-- A history is kept where recording is on, and has a record for everything that was counted. -/
structure Recorded (recording : Bool) (b : Buffer) : Prop where
  kept : b.history.isSome = recording
  complete : ∀ h, b.history = some h → ∀ kind, h.count kind = b.counters.recorded kind

theorem Recorded.congr (h : Recorded recording b) (hh : b'.history = b.history)
    (hc : b'.counters.recorded = b.counters.recorded) : Recorded recording b' := by
  refine ⟨?_, ?_⟩
  · rw [hh]
    exact h.kept
  · intro x hx kind
    rw [hh] at hx
    rw [hc, h.complete x hx]

/-- One more record, and one more of what it is about. -/
theorem Recorded.push (h : Recorded recording b) {r : Record}
    (hh : b'.history = b.history.map (History.push r))
    (hc : ∀ kind, b'.counters.recorded kind =
      b.counters.recorded kind + if r.kind = kind then 1 else 0) : Recorded recording b' := by
  refine ⟨?_, ?_⟩
  · rw [hh, Option.isSome_map]
    exact h.kept
  · intro x hx kind
    rw [hh] at hx
    obtain ⟨y, hy, rfl⟩ := Option.map_eq_some_iff.mp hx
    rw [History.count_push, hc, h.complete y hy]

theorem Recorded.settle (h : Recorded recording b) (now : Time) (x : Expiry) :
    Recorded recording (settle now b x) := by
  cases x with
  | fresh => exact h
  | half lost rest => exact h.congr rfl rfl
  | gone lost =>
    refine h.push (r := ⟨now, some TimeSpan.zero, .expired⟩) rfl ?_
    intro kind
    cases kind <;> rfl

theorem Recorded.sweep (h : Recorded recording b) (now : Time) :
    Recorded recording (b.sweep now) := by
  rw [sweep_eq]
  have hfold : Recorded recording
      ((b.entries.map (Entry.expire now b.lifetime)).foldl (Buffer.settle now) b) :=
    List.foldlRecOn _ _ h fun b' h' x _ => h'.settle now x
  exact hfold.congr rfl rfl

theorem Recorded.makeRoom {room : Buffer} (h : Recorded recording b) (hr : MadeRoom b room) :
    Recorded recording room := by
  cases hfull : b.isFull with
  | false =>
    rw [hr.kept hfull]
    exact h
  | true =>
    obtain ⟨i, victim, hgave⟩ := hr.evicted hfull
    obtain ⟨r, hkind, hhistory⟩ := hgave.history
    refine h.push hhistory ?_
    intro kind
    have hinserted := hr.inserted
    have hexpired := hr.expired
    have hdropped := hgave.dropped
    rw [hkind]
    cases kind <;> simpa [Counters.recorded]

theorem Recorded.append (h : Recorded recording b) (now : Time) (e : Entry) (d : Deed) :
    Recorded recording (b.append now e d) := by
  refine h.push (r := ⟨now, b.remainingSince now e.created, .inserted⟩) rfl ?_
  intro kind
  cases kind <;> rfl

/-! ### All books -/

/-- The books of a buffer agree. A pair made of two entries costs one, which is counted nowhere. -/
structure Booked (recording : Bool) (coded : Nat) (b : Buffer) : Prop where
  entries : b.size + b.counters.dropped + b.counters.expired + b.counters.removed + coded =
    b.counters.inserted
  evictions : b.evictions.total = b.counters.dropped
  history : Recorded recording b

theorem Booked.sweep (h : Booked recording coded b) (now : Time) :
    Booked recording coded (b.sweep now) := by
  refine ⟨?_, ?_, h.history.sweep now⟩
  · have hsize := size_sweep now b
    have hentries := h.entries
    rw [inserted_sweep, dropped_sweep, removed_sweep]
    omega
  · rw [evictions_sweep, dropped_sweep]
    exact h.evictions

theorem Booked.makeRoom {room : Buffer} (h : Booked recording coded b) (hr : MadeRoom b room) :
    Booked recording coded room := by
  refine ⟨?_, ?_, h.history.makeRoom hr⟩
  · have hsize := hr.size
    have hentries := h.entries
    rw [hr.expired, hr.removed, hr.inserted]
    omega
  · cases hfull : b.isFull with
    | false =>
      rw [hr.kept hfull]
      exact h.evictions
    | true =>
      obtain ⟨i, victim, hgave⟩ := hr.evicted hfull
      rw [hgave.evictions, hgave.dropped, EvictionTally.total_add, h.evictions]

theorem Booked.append (h : Booked recording coded b) (now : Time) (e : Entry) (d : Deed) :
    Booked recording coded (b.append now e d) := by
  refine ⟨?_, h.evictions, h.history.append now e d⟩
  have hentries := h.entries
  simp only [size, Buffer.append, record, note, List.length_append, List.length_singleton]
    at hentries ⊢
  omega

/-- The pairs that a request has made of packets that were entries of their own. -/
def codedBy (r : Request) (o : Outcome Answer) : Nat := if r.isCompact && o.1.isOk then 1 else 0

theorem codedBy_of_not_compact {r : Request} (hr : r.isCompact = false) (o : Outcome Answer) :
    codedBy r o = 0 := by
  simp [codedBy, hr]

theorem codedBy_of_error (r : Request) (f : Fault) (b : Buffer) : codedBy r (.error f, b) = 0 := by
  simp [codedBy, Except.isOk, Except.toBool]

theorem Booked.performed (h : Booked recording coded b) {r : Request} {o : Outcome Answer}
    (hr : Performed now b r o) : Booked recording (coded + codedBy r o) o.2 := by
  have hs := h.sweep now
  have hentries := hs.entries
  cases hr with
  | refused r f =>
    rw [codedBy_of_error]
    exact hs
  | looked hr =>
    rw [codedBy_of_not_compact hr]
    exact hs
  | placed hr hroom e d =>
    rw [codedBy_of_not_compact hr]
    exact (hs.makeRoom hroom).append now e d
  | compacted x y hp hq hc =>
    refine ⟨?_, hs.evictions, hs.history.congr rfl rfl⟩
    have hlen := length_eraseSingle_pair hp hq hc
    simp only [size, note, List.length_append, List.length_singleton, codedBy, Request.isCompact,
      Except.isOk, Except.toBool, Bool.and_self, if_true] at hlen hentries ⊢
    omega
  | removed he =>
    refine ⟨?_, hs.evictions, hs.history.congr rfl rfl⟩
    have hlen := length_replaceFirst_none (entryOf?_isSome he)
    rw [codedBy_of_not_compact rfl]
    simp only [size, note] at hentries ⊢
    omega
  | halved =>
    refine ⟨?_, hs.evictions, hs.history.congr rfl rfl⟩
    rw [codedBy_of_not_compact rfl]
    simp only [size, note, length_replaceFirst_some] at hentries ⊢
    omega
  | changed hr =>
    refine ⟨?_, hs.evictions, hs.history.congr rfl rfl⟩
    rw [codedBy_of_not_compact hr]
    simp only [size, length_updateFirst] at hentries ⊢
    omega

/-- The pairs that a run makes of packets that were entries of their own. -/
def compactions : Buffer → List (Time × Request) → Nat
  | _, [] => 0
  | b, (now, r) :: rest => codedBy r (b.perform now r) + compactions (b.perform now r).2 rest

theorem Booked.run (rs : List (Time × Request)) : ∀ {coded : Nat} {b : Buffer},
    Booked recording coded b → Booked recording (coded + b.compactions rs) (b.run rs) := by
  induction rs with
  | nil =>
    intro coded b h
    exact h
  | cons r rest ih =>
    intro coded b h
    have hnext := ih (h.performed (performed_perform r.1 b r.2))
    rwa [Nat.add_assoc] at hnext

theorem booked_new (capacity : Nat) (lifetime : TimeSpan) (eviction : EvictionPolicy)
    (recording : Bool) : Booked recording 0 (Buffer.new capacity lifetime eviction recording) := by
  refine ⟨rfl, rfl, ?_, ?_⟩
  · cases recording <;> rfl
  · intro h hh kind
    cases recording with
    | false => cases hh
    | true =>
      cases hh
      cases kind <;> rfl

/-- The books of every buffer agree, whatever was asked of it and at whatever times. -/
theorem booked_run (capacity : Nat) (lifetime : TimeSpan) (eviction : EvictionPolicy)
    (recording : Bool) (rs : List (Time × Request)) :
    let start := Buffer.new capacity lifetime eviction recording
    Booked recording (start.compactions rs) (start.run rs) := by
  intro start
  simpa using (booked_new capacity lifetime eviction recording).run rs

end Buffer

end OppNet
