import OppNet.Proofs.Buffer.Expiry

/-!
# OppNet.Proofs.Buffer.Laziness

When expiry is registered makes no difference. A buffer that has been looked at, and swept for it,
goes on as it would have otherwise.

* `Agree b b'`: two buffers that differ at most in when and in which words expiry was logged.
* `Agree.perform`: requests answer alike on such buffers, and leave such buffers.
* `agree_sweep_sweep`: an earlier sweep is lost in a later one.
* `looking_changes_nothing`: both together.
-/

namespace OppNet

/-! ### An earlier expiry and a later one -/

theorem Entry.surviving?_surviving? {s t : Time} {lifetime : TimeSpan} {e : Entry}
    (h : ∀ p ∈ e.livePackets, p.isExpired s lifetime = true → p.isExpired t lifetime = true) :
    (e.surviving? s lifetime).bind (Entry.surviving? t lifetime) = e.surviving? t lifetime := by
  cases e with
  | single p =>
    have hp := h p (by simp)
    cases hs : p.isExpired s lifetime with
    | false => simp [surviving?, expire, hs]
    | true => simp [surviving?, expire, hs, hp hs]
  | coded c =>
    cases hc : c.survivor with
    | some left =>
      have hl := h (c.half left) (by simp [livePackets, CodedPair.livePackets_of_survivor hc])
      cases hs : (c.half left).isExpired s lifetime with
      | false => simp [surviving?, expire, hc, hs]
      | true => simp [surviving?, expire, hc, hs, hl hs]
    | none =>
      have hf := h c.first (by simp [livePackets, CodedPair.livePackets_of_intact hc])
      have hl := h c.second (by simp [livePackets, CodedPair.livePackets_of_intact hc])
      cases hsf : c.first.isExpired s lifetime <;> cases hsl : c.second.isExpired s lifetime
      · simp [surviving?, expire, hc, hsf, hsl]
      · cases htf : c.first.isExpired t lifetime <;>
          simp [surviving?, expire, hc, hsf, hsl, htf, hl hsl, CodedPair.half]
      · cases htl : c.second.isExpired t lifetime <;>
          simp [surviving?, expire, hc, hsf, hsl, htl, hf hsf, CodedPair.half]
      · simp [surviving?, expire, hc, hsf, hsl, hf hsf, hl hsl]

/-! ### Logs without the registration of expiry -/

/-- The record, without the time if it is one of an expiry. -/
def Record.undated (r : Record) : Record :=
  match r.kind with
  | .expired => { r with time := Time.start }
  | .inserted | .dropped => r

def History.undated (h : History) : List Record := h.backwards.map Record.undated

def Buffer.Deed.isExpiry : Deed → Bool
  | .halfExpired _ | .expired _ => true
  | .dropped _ _ | .inserted _ _ _ _ | .insertedCoded _ _ | .encoded _ _ | .removed _
  | .removedHalf _ => false

namespace Buffer

variable {now : Time} {b b' : Buffer}

def lastingNotes (b : Buffer) : List Note := b.notes.filter fun n => !n.deed.isExpiry

/-- The same buffer, apart from when expiry was recorded and how it was noted. -/
structure Agree (b b' : Buffer) : Prop where
  capacity : b.capacity = b'.capacity
  lifetime : b.lifetime = b'.lifetime
  eviction : b.eviction = b'.eviction
  entries : b.entries = b'.entries
  counters : b.counters = b'.counters
  evictions : b.evictions = b'.evictions
  history : b.history.map History.undated = b'.history.map History.undated
  notes : b.lastingNotes = b'.lastingNotes

def expiryRecord : Record := ⟨Time.start, some TimeSpan.zero, .expired⟩

theorem undated_foldl_settle (xs : List Expiry) (b : Buffer) :
    (xs.foldl (settle now) b).history.map History.undated =
      (b.history.map History.undated).map
        (List.replicate (xs.countP Expiry.isGone) expiryRecord ++ ·) := by
  induction xs generalizing b with
  | nil => cases h : b.history <;> simp [h]
  | cons x rest ih =>
    rw [List.foldl_cons, ih, List.countP_cons]
    cases x with
    | fresh => simp [settle, Expiry.isGone]
    | half lost left => simp [settle, note, Expiry.isGone]
    | gone lost =>
      cases hh : b.history with
      | none => simp [settle, note, record, hh]
      | some h =>
        simp [settle, note, record, hh, Expiry.isGone, History.undated, History.push,
          Record.undated, expiryRecord, List.replicate_succ']

/-- A sweep records one expiry for each entry that it counts. -/
theorem undated_sweep (now : Time) (b : Buffer) :
    (b.sweep now).history.map History.undated = (b.history.map History.undated).map
      (List.replicate ((b.sweep now).counters.expired - b.counters.expired) expiryRecord ++ ·) := by
  rw [sweep_eq]
  simp only [expired_foldl_settle, undated_foldl_settle, Nat.add_sub_cancel_left]

theorem lastingNotes_sweep (now : Time) (b : Buffer) :
    (b.sweep now).lastingNotes = b.lastingNotes :=
  sweep_keeps (fun _ _ => rfl) (fun b x => by cases x <;> rfl) b

/-- Two sweeps leave what the later one leaves alone, if what has expired stays expired. -/
theorem agree_sweep_sweep {s t : Time}
    (h : ∀ p ∈ b.livePackets, p.isExpired s b.lifetime = true → p.isExpired t b.lifetime = true) :
    Agree ((b.sweep s).sweep t) (b.sweep t) := by
  have hentries : ((b.sweep s).sweep t).entries = (b.sweep t).entries := by
    rw [entries_sweep, entries_sweep, entries_sweep, lifetime_sweep, List.filterMap_filterMap]
    refine List.filterMap_congr fun e he => ?_
    exact Entry.surviving?_surviving? fun p hp => h p (List.mem_flatMap.mpr ⟨e, he, hp⟩)
  have hfirst := size_sweep s b
  have hsecond := size_sweep t (b.sweep s)
  have halone := size_sweep t b
  have hsize : ((b.sweep s).sweep t).size = (b.sweep t).size := congrArg List.length hentries
  have hexpired : ((b.sweep s).sweep t).counters.expired = (b.sweep t).counters.expired := by omega
  refine ⟨by simp, by simp, by simp, hentries, ?_, by simp, ?_, by simp [lastingNotes_sweep]⟩
  · rw [counters_sweep, counters_sweep s b, counters_sweep t b, hexpired]
  · have hle := expired_le_sweep s b
    have hle' := expired_le_sweep t (b.sweep s)
    have hsum : (b.sweep t).counters.expired - b.counters.expired =
        ((b.sweep s).sweep t).counters.expired - (b.sweep s).counters.expired +
          ((b.sweep s).counters.expired - b.counters.expired) := by omega
    rw [undated_sweep, undated_sweep s, undated_sweep t b, hsum, Option.map_map,
      ← List.replicate_append_replicate]
    exact congrArg (Option.map · _) (funext fun rs => (List.append_assoc _ _ _).symm)

theorem makeRoom_of_free (h : b.isFull = false) (now : Time) : b.makeRoom now = .ok b := by
  simp [makeRoom, h]

theorem makeRoom_of_full {victim : Entry} {rest : List Entry} (h : b.isFull = true)
    (hv : b.eviction.evict b.entries = .ok (victim, rest)) (now : Time) :
    b.makeRoom now = .ok (({ b with
      entries := rest
      evictions := b.evictions.add victim
      counters := { b.counters with dropped := b.counters.dropped + 1 } }.record now
        (b.remainingSince now victim.created) .dropped).note now
          (.dropped victim.liveIds victim.isRelayed)) := by
  simp only [makeRoom, h, if_true, hv]

/-- Two outcomes with one answer, and with buffers that agree. -/
structure Alike {α : Type} (o o' : α × Buffer) : Prop where
  answer : o.1 = o'.1
  buffer : Agree o.2 o'.2

namespace Agree

/-- Buffers that agree are one buffer with two pairs of logs. -/
theorem exists_logs (h : Agree b b') : ∃ history notes,
    b' = { b with history := history, notes := notes } :=
  ⟨b'.history, b'.notes, by rw [h.capacity, h.lifetime, h.eviction, h.entries, h.counters,
    h.evictions]⟩

section

variable (h : Agree b b')
include h

theorem sweep (now : Time) : Agree (b.sweep now) (b'.sweep now) := by
  have hcounters : (b.sweep now).counters = (b'.sweep now).counters := by
    rw [counters_sweep, counters_sweep now b', expired_sweep, expired_sweep, h.counters, h.lifetime,
      h.entries]
  refine ⟨by simp [h.capacity], by simp [h.lifetime], by simp [h.eviction],
    by simp [h.entries, h.lifetime], hcounters, by simp [h.evictions], ?_, ?_⟩
  · rw [undated_sweep, undated_sweep, h.history, hcounters, h.counters]
  · rw [lastingNotes_sweep, lastingNotes_sweep, h.notes]

theorem note (now : Time) (d : Deed) : Agree (b.note now d) (b'.note now d) := by
  refine ⟨h.capacity, h.lifetime, h.eviction, h.entries, h.counters, h.evictions, h.history, ?_⟩
  have hnotes := h.notes
  unfold lastingNotes at hnotes ⊢
  simp only [Buffer.note, List.filter_cons, hnotes]

theorem record (now : Time) (remaining : Option TimeSpan) (kind : RecordKind) :
    Agree (b.record now remaining kind) (b'.record now remaining kind) := by
  refine ⟨h.capacity, h.lifetime, h.eviction, h.entries, h.counters, h.evictions, ?_, h.notes⟩
  have hpush : ∀ o : Option History,
      (o.map (History.push ⟨now, remaining, kind⟩)).map History.undated =
        (o.map History.undated).map (Record.undated ⟨now, remaining, kind⟩ :: ·) := by
    intro o
    cases o <;> rfl
  simp only [Buffer.record, hpush, h.history]

/-- What is done to the entries and the totals of one buffer is done to those of the other. -/
theorem replace (es : List Entry) (c : Counters) (t : EvictionTally) :
    Agree { b with entries := es, counters := c, evictions := t }
      { b' with entries := es, counters := c, evictions := t } :=
  ⟨h.capacity, h.lifetime, h.eviction, rfl, rfl, rfl, h.history, h.notes⟩

/-! ### Operations -/

theorem append (now : Time) (e : Entry) (d : Deed) :
    Agree (b.append now e d) (b'.append now e d) := by
  obtain ⟨history, notes, rfl⟩ := h.exists_logs
  exact ((h.replace _ _ _).record _ _ _).note _ _

theorem makeRoom (now : Time) : ∃ room room', b.makeRoom now = .ok room ∧
    b'.makeRoom now = .ok room' ∧ Agree room room' := by
  obtain ⟨history, notes, rfl⟩ := h.exists_logs
  let b' := { b with history := history, notes := notes }
  cases hfull : b.isFull with
  | false => exact ⟨b, b', makeRoom_of_free hfull now, makeRoom_of_free (b := b') hfull now, h⟩
  | true =>
    obtain ⟨victim, rest, hv⟩ := b.eviction.evict_of_ne_nil (entries_ne_nil_of_isFull hfull)
    exact ⟨_, _, makeRoom_of_full hfull hv now, makeRoom_of_full (b := b') hfull hv now,
      ((h.replace _ _ _).record _ _ _).note _ _⟩

theorem place (now : Time) (e : Entry) (d : Deed) : Alike (b.place now e d) (b'.place now e d) := by
  obtain ⟨room, room', hr, hr', hroom⟩ := h.makeRoom now
  simp only [Buffer.place, hr, hr']
  exact ⟨rfl, hroom.append now e d⟩

theorem holds_eq (id : PacketId) : b.holds id = b'.holds id := by
  simp only [holds, h.entries]

theorem insert (now : Time) (p : Packet) : Alike (b.insert now p) (b'.insert now p) := by
  have hs := h.sweep now
  simp only [Buffer.insert, hs.holds_eq]
  split
  · exact ⟨rfl, hs⟩
  · exact hs.place now _ _

theorem insertCoded (now : Time) (p q : Packet) :
    Alike (b.insertCoded now p q) (b'.insertCoded now p q) := by
  have hs := h.sweep now
  simp only [Buffer.insertCoded, hs.holds_eq, hs.entries]
  split
  · exact ⟨rfl, hs⟩
  · split
    · exact ⟨rfl, hs⟩
    · split
      · exact ⟨rfl, hs⟩
      · exact hs.place now _ _

theorem compact (now : Time) (x y : PacketId) :
    Alike (b.compact now x y) (b'.compact now x y) := by
  have hs := h.sweep now
  unfold Buffer.compact
  generalize b.sweep now = swept, b'.sweep now = swept' at hs
  obtain ⟨history, notes, rfl⟩ := hs.exists_logs
  simp only [findSingle?]
  split
  · exact ⟨rfl, hs⟩
  · exact ⟨rfl, hs⟩
  · split
    · exact ⟨rfl, hs⟩
    · exact ⟨rfl, (hs.replace _ _ _).note _ _⟩

theorem remove (now : Time) (id : PacketId) : Alike (b.remove now id) (b'.remove now id) := by
  have hs := h.sweep now
  unfold Buffer.remove
  generalize b.sweep now = swept, b'.sweep now = swept' at hs
  obtain ⟨history, notes, rfl⟩ := hs.exists_logs
  simp only [entryOf?]
  split
  · exact ⟨rfl, hs⟩
  · split
    · exact ⟨rfl, (hs.replace _ _ _).note _ _⟩
    · exact ⟨rfl, (hs.replace _ _ _).note _ _⟩

theorem modify {α : Type} (now : Time) (id : PacketId) (f : Packet → Except Fault (α × Packet)) :
    Alike (b.modify now id f) (b'.modify now id f) := by
  have hs := h.sweep now
  unfold Buffer.modify
  generalize b.sweep now = swept, b'.sweep now = swept' at hs
  obtain ⟨history, notes, rfl⟩ := hs.exists_logs
  simp only [find?]
  split
  · exact ⟨rfl, hs⟩
  · split
    · exact ⟨rfl, hs⟩
    · exact ⟨rfl, hs.replace _ _ _⟩

theorem answer_eq (now : Time) (q : Query) : b.answer now q = b'.answer now q := by
  obtain ⟨history, notes, rfl⟩ := h.exists_logs
  cases q <;> rfl

end

end Agree

theorem Alike.map {α : Type} {o o' : Outcome α} (h : Alike o o') (f : α → Answer) :
    Alike (Outcome.map f o) (Outcome.map f o') := by
  obtain ⟨ha, hb⟩ := h
  refine ⟨?_, hb⟩
  simp only [Outcome.map, ha]

theorem Agree.perform (h : Agree b b') (now : Time) (r : Request) :
    Alike (b.perform now r) (b'.perform now r) := by
  cases r with
  | insert p => exact (h.insert now p).map _
  | insertCoded p q => exact (h.insertCoded now p q).map _
  | compact x y => exact (h.compact now x y).map _
  | remove id =>
    have hremove := h.remove now id
    exact ⟨by simp only [Buffer.perform, hremove.answer], hremove.buffer⟩
  | removeExpired =>
    have hs := h.sweep now
    exact ⟨by simp only [Buffer.perform, removeExpired, hs.counters, h.counters], hs⟩
  | setReplicas id | splitReplicas id | updateThreshold id | markForwarded id | addForwarder id
  | addPreviousHop id => exact (h.modify now id _).map _
  | ask q =>
    have hs := h.sweep now
    exact ⟨hs.answer_eq now q, hs⟩

theorem Agree.run (rs : List (Time × Request)) : ∀ {b b' : Buffer}, Agree b b' →
    Agree (b.run rs) (b'.run rs) := by
  induction rs with
  | nil =>
    intro b b' h
    exact h
  | cons r rest ih =>
    intro b b' h
    exact ih (h.perform r.1 r.2).buffer

/-- The requests that ask, and the one that does nothing but expire. -/
def Request.isLook : Request → Bool
  | .ask _ | .removeExpired => true
  | _ => false

theorem perform_of_isLook {r : Request} (h : r.isLook = true) (now : Time) (b : Buffer) :
    (b.perform now r).2 = b.sweep now := by
  cases r <;> first | rfl | cases h

/--
Looking at a buffer changes nothing. Where everything that has expired at `s` has expired at `t`, a
look at `s` leaves the answer at `t` and all that comes after it as they would have been, except for
the count of what a request to expire finds left to do.
-/
theorem looking_changes_nothing {b : Buffer} {s t : Time}
    (hst : ∀ p ∈ b.livePackets, p.isExpired s b.lifetime = true → p.isExpired t b.lifetime = true)
    {look : Request} (hlook : look.isLook = true) (r : Request) :
    (r ≠ .removeExpired → ((b.perform s look).2.perform t r).1 = (b.perform t r).1) ∧
    Agree ((b.perform s look).2.perform t r).2 (b.perform t r).2 ∧
    ∀ rest, Agree (((b.perform s look).2.perform t r).2.run rest) ((b.perform t r).2.run rest) := by
  rw [perform_of_isLook hlook]
  have hswept := agree_sweep_sweep hst
  have hafter : Agree ((b.sweep s).perform t r).2 (b.perform t r).2 ∧
      (r ≠ .removeExpired → ((b.sweep s).perform t r).1 = (b.perform t r).1) := by
    by_cases hr : r = .removeExpired
    · subst hr
      exact ⟨hswept, fun hne => absurd rfl hne⟩
    · have halike := hswept.perform t r
      rw [perform_sweep hr, perform_sweep hr] at halike
      exact ⟨halike.buffer, fun _ => halike.answer⟩
  exact ⟨hafter.2, hafter.1, fun rest => hafter.1.run rest⟩

/-- A look in between the moments when the two halves of a pair expire. -/
theorem half_expired_when_looked_at :
    let b := (Buffer.new 1 ⟨10.0⟩ ⟨.front, false⟩ true).run
      [(⟨4.0⟩, .insertCoded (.generate ⟨1⟩ ⟨0⟩ ⟨1⟩ ⟨1.0⟩) (.generate ⟨2⟩ ⟨1⟩ ⟨0⟩ ⟨4.0⟩))]
    let looked := (b.perform ⟨12.0⟩ (.ask .size)).2
    let r := Request.insert (.generate ⟨3⟩ ⟨0⟩ ⟨1⟩ ⟨20.0⟩)
    looked.hasExtra ⟨1⟩ = true ∧ b.hasExtra ⟨1⟩ = false ∧
      (looked.perform ⟨20.0⟩ r).1 = (b.perform ⟨20.0⟩ r).1 ∧
      Agree (looked.perform ⟨20.0⟩ r).2 (b.perform ⟨20.0⟩ r).2 := by
  intro b looked r
  have hst : ∀ p ∈ b.livePackets, p.isExpired ⟨12.0⟩ b.lifetime = true →
      p.isExpired ⟨20.0⟩ b.lifetime = true := by decide +kernel
  have hlook : (Request.ask .size).isLook = true := rfl
  obtain ⟨hanswer, hagree, _⟩ := looking_changes_nothing hst hlook r
  exact ⟨by decide +kernel, by decide +kernel, hanswer (by decide), hagree⟩

end Buffer

end OppNet
