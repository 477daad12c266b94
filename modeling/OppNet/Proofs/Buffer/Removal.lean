import OppNet.Proofs.Buffer.Coherence
import OppNet.Proofs.Buffer.Contents
import OppNet.Proofs.Buffer.Remaining

/-!
# OppNet.Proofs.Buffer.Removal

Deleting a packet takes away that packet and nothing else.

* `Entry.strip? id e`: the entry without the packet, which it need not hold. Which of two packets
  goes first makes no difference (`Entry.strip?_comm`).
* `remove_eq`: a removal strips every entry of the swept buffer, and counts the entries that go.
* `Removal`, `Interchange`: what one removal does, and that two of them can trade places.
* `remove_deletes_one`: both, for every buffer that requests can build.
-/

namespace OppNet

namespace CodedPair

variable {c : CodedPair} {id : PacketId}

theorem sideOf?_ne {s : Side} (hc : c.Crossed) (h : c.sideOf? id = none) : (c.half s).id ≠ id := by
  rintro rfl
  rw [sideOf?_half hc] at h
  cases h

/-- The pair without one of its halves. -/
def lose (s : Side) (c : CodedPair) : CodedPair := { c with survivor := some s.other }

@[simp] theorem half_lose (s t : Side) (c : CodedPair) : (c.lose s).half t = c.half t := by
  cases t <;> rfl

@[simp] theorem livePackets_lose (s : Side) (c : CodedPair) :
    (c.lose s).livePackets = [c.half s.other] := by
  cases s <;> rfl

end CodedPair

namespace Entry

variable {c : CodedPair} {e : Entry} {id : PacketId}

/-- What deleting the packet leaves of the entry, if the entry holds it. -/
def strip? (id : PacketId) (e : Entry) : Option Entry :=
  if e.holds id then Buffer.without? id e else some e

theorem strip?_of_not_holds (h : e.holds id = false) : e.strip? id = some e := by
  rw [strip?, if_neg (by simp [h])]

theorem strip?_of_holds (h : e.holds id = true) : e.strip? id = Buffer.without? id e := by
  rw [strip?, if_pos h]

theorem strip?_single (id : PacketId) (p : Packet) :
    (single p).strip? id = if p.id = id then none else some (single p) := by
  by_cases h : p.id = id <;> simp [strip?, holds, h, Buffer.without?]

theorem strip?_survivor {left : Side} (hc : c.Crossed) (hs : c.survivor = some left)
    (id : PacketId) :
    (coded c).strip? id = if (c.half left).id = id then none else some (coded c) := by
  by_cases h : (c.half left).id = id
  · have hlive : c.liveSide? id = some left := by
      rw [← h]
      exact CodedPair.liveSide?_half hc (by simp [CodedPair.isLive, hs])
    rw [if_pos h, strip?_of_holds (by simp [holds, find?, hlive])]
    simp [Buffer.without?, CodedPair.deleteHalf?, hs]
  · rw [if_neg h, strip?_of_not_holds]
    refine Bool.eq_false_iff.mpr fun hheld => h ?_
    have hid := (mem_liveIds_iff_holds (e := coded c) hc).mpr hheld
    rw [liveIds_coded, CodedPair.livePackets_of_survivor hs] at hid
    exact (List.mem_singleton.mp hid).symm

theorem strip?_of_sideOf? (h : c.sideOf? id = none) : (coded c).strip? id = some (coded c) :=
  strip?_of_not_holds (by simp [holds, find?, CodedPair.liveSide?, h])

theorem strip?_half (hc : c.Crossed) (hs : c.survivor = none) (s : Side) :
    (coded c).strip? (c.half s).id = some (coded (c.lose s)) := by
  have hlive := CodedPair.liveSide?_half hc (s := s) (by simp [CodedPair.isLive, hs])
  rw [strip?_of_holds (by simp [holds, find?, hlive])]
  simp [Buffer.without?, CodedPair.deleteHalf?, hs, CodedPair.sideOf?_half hc, CodedPair.lose]

theorem strip?_lose_other (hc : c.Crossed) {s t : Side} (h : s ≠ t) :
    (coded (c.lose s)).strip? (c.half t).id = none := by
  obtain rfl : t = s.other := by
    cases s <;> cases t <;> simp_all [Side.other]
  rw [strip?_survivor (c := c.lose s) hc rfl, CodedPair.half_lose, if_pos rfl]

theorem livePackets_strip? (he : e.Crossed) (id : PacketId) :
    ((e.strip? id).map livePackets).getD [] = e.livePackets.filter fun p => p.id ≠ id := by
  cases e with
  | single p =>
    rw [strip?_single]
    by_cases h : p.id = id <;> simp [h]
  | coded c =>
    cases hs : c.survivor with
    | some left =>
      rw [strip?_survivor he hs, livePackets, CodedPair.livePackets_of_survivor hs]
      by_cases h : (c.half left).id = id <;>
        simp [h, livePackets, CodedPair.livePackets_of_survivor hs]
    | none =>
      rw [livePackets, CodedPair.livePackets_of_intact hs]
      cases hside : c.sideOf? id with
      | none =>
        have hfirst : c.first.id ≠ id := CodedPair.sideOf?_ne (s := .first) he hside
        have hsecond : c.second.id ≠ id := CodedPair.sideOf?_ne (s := .second) he hside
        rw [strip?_of_sideOf? hside]
        simp [livePackets, CodedPair.livePackets_of_intact hs, hfirst, hsecond]
      | some s =>
        obtain rfl := CodedPair.sideOf?_id hside
        rw [strip?_half he hs]
        cases s with
        | first => simp [livePackets, CodedPair.half, Side.other, he.1.symm]
        | second => simp [livePackets, CodedPair.half, Side.other, he.1]

theorem partOf_of_strip? {e' : Entry} (h : e.strip? id = some e') : e'.PartOf e := by
  unfold strip? at h
  split at h
  · cases e with
    | single p => cases h
    | coded c =>
      obtain ⟨c', hc', rfl⟩ := Option.map_eq_some_iff.mp h
      exact partOf_of_deleteHalf? hc'
  · cases h
    exact .refl e

theorem mem_livePackets_of_strip? {e' : Entry} {p : Packet} (h : e.strip? id = some e')
    (hp : p ∈ e'.livePackets) : p ∈ e.livePackets := by
  unfold strip? at h
  split at h
  · exact mem_livePackets_of_without? h hp
  · cases h
    exact hp

/-! ### Two packets -/

/-- Nothing is left to delete from an entry that goes with one packet. -/
theorem strip?_comm_of_whole {only : PacketId}
    (h : ∀ id, e.strip? id = if only = id then none else some e) (x y : PacketId) :
    (e.strip? x).bind (strip? y) = (e.strip? y).bind (strip? x) := by
  by_cases hx : only = x
  · by_cases hy : only = y
    · rw [← hx, ← hy]
    · rw [h y, if_neg hy, Option.bind_some, h x, if_pos hx, Option.bind_none]
  · rw [h x, if_neg hx, Option.bind_some]
    by_cases hy : only = y
    · rw [h y, if_pos hy, Option.bind_none]
    · rw [h y, if_neg hy, Option.bind_some, h x, if_neg hx]

/-- A pair that has lost one of its packets goes with the other. -/
theorem strip?_comm_of_intact (hc : c.Crossed) (hs : c.survivor = none) (x y : PacketId) :
    ((coded c).strip? x).bind (strip? y) = ((coded c).strip? y).bind (strip? x) := by
  cases hx : c.sideOf? x with
  | none =>
    rw [strip?_of_sideOf? hx, Option.bind_some]
    cases hy : c.sideOf? y with
    | none => rw [strip?_of_sideOf? hy, Option.bind_some, strip?_of_sideOf? hx]
    | some t =>
      obtain rfl := CodedPair.sideOf?_id hy
      rw [strip?_half hc hs, Option.bind_some, strip?_of_sideOf? (by exact hx)]
  | some s =>
    obtain rfl := CodedPair.sideOf?_id hx
    cases hy : c.sideOf? y with
    | none =>
      rw [strip?_half hc hs, Option.bind_some, strip?_of_sideOf? hy, Option.bind_some,
        strip?_half hc hs, strip?_of_sideOf? (by exact hy)]
    | some t =>
      obtain rfl := CodedPair.sideOf?_id hy
      by_cases heq : s = t
      · rw [heq]
      · rw [strip?_half hc hs, strip?_half hc hs, Option.bind_some, Option.bind_some,
          strip?_lose_other hc heq, strip?_lose_other hc (Ne.symm heq)]

theorem strip?_comm (he : e.Crossed) (x y : PacketId) :
    (e.strip? x).bind (strip? y) = (e.strip? y).bind (strip? x) := by
  cases e with
  | single p => exact strip?_comm_of_whole (fun id => strip?_single id p) x y
  | coded c =>
    cases hs : c.survivor with
    | some left => exact strip?_comm_of_whole (strip?_survivor he hs) x y
    | none => exact strip?_comm_of_intact he hs x y

end Entry

namespace Buffer

variable {now : Time} {b : Buffer} {id : PacketId}

/-! ### Stripping all entries -/

/-- Every entry without the packet; an entry that goes is counted. -/
def strip (id : PacketId) (b : Buffer) : Buffer :=
  let left := b.entries.filterMap (Entry.strip? id)
  { b with
    entries := left
    counters := { b.counters with removed := b.counters.removed + (b.size - left.length) } }

theorem counters_strip (id : PacketId) (b : Buffer) : (b.strip id).counters =
    { b.counters with removed := b.counters.removed + (b.size - (b.strip id).size) } := rfl

theorem filterMap_strip?_of_absent {es : List Entry} (h : ∀ e ∈ es, e.holds id = false) :
    es.filterMap (Entry.strip? id) = es := by
  induction es with
  | nil => rfl
  | cons e rest ih =>
    rw [List.filterMap_cons, Entry.strip?_of_not_holds (h e (by simp)),
      ih fun x hx => h x (by simp [hx])]

/-- Only the first entry that holds the packet holds it. -/
theorem replaceFirst_eq_filterMap {es : List Entry} (hes : Integrity es) {e : Entry}
    (h : es.find? (Entry.holds id) = some e) :
    replaceFirst id (without? id e) es = es.filterMap (Entry.strip? id) := by
  induction es with
  | nil => cases h
  | cons x rest ih =>
    have hrest : Integrity rest := hes.of_remains (.of_sublist (List.sublist_cons_self x rest))
    rw [replaceFirst, List.filterMap_cons]
    cases hx : x.holds id with
    | true =>
      obtain rfl : x = e := by
        rw [List.find?_cons_of_pos hx] at h
        exact Option.some_inj.mp h
      -- Two entries hold different packets, so a later one has nothing to lose.
      have habsent : ∀ y ∈ rest, y.holds id = false := by
        intro y hy
        refine Bool.eq_false_iff.mpr fun hheld => ?_
        have hapart := List.disjoint_of_nodup_append
          (List.flatMap_cons (f := Entry.liveIds) ▸ hes.distinct)
        refine hapart ((Entry.mem_liveIds_iff_holds (hes.crossed_entry (by simp))).mpr hx) ?_
        refine List.mem_flatMap.mpr ⟨y, hy, ?_⟩
        exact (Entry.mem_liveIds_iff_holds (hes.crossed_entry (by simp [hy]))).mpr hheld
      rw [if_pos rfl, Entry.strip?_of_holds hx, filterMap_strip?_of_absent habsent]
      cases without? id x <;> rfl
    | false =>
      rw [if_neg (by simp), Entry.strip?_of_not_holds hx]
      rw [List.find?_cons_of_neg (by simp [hx])] at h
      rw [ih hrest h]

theorem strip_of_absent (h : b.holds id = false) : b.strip id = b := by
  have hsame : b.entries.filterMap (Entry.strip? id) = b.entries :=
    filterMap_strip?_of_absent (by simpa [holds] using h)
  simp only [strip, hsame, size, Nat.sub_self, Nat.add_zero]

/-- A removal tells whether the packet was live, and strips the entries of it. -/
theorem remove_eq (hb : Integrity b.entries) (now : Time) (id : PacketId) : ∃ notes,
    b.remove now id =
      ((b.sweep now).holds id, { (b.sweep now).strip id with notes := notes }) := by
  have hs := integrity_sweep hb now
  have hheld := isSome_entryOf? (b.sweep now) id
  rcases remove_cases now id b with ⟨hn, he⟩ | ⟨e, hfind, hw, he⟩ | ⟨e, e', hfind, hw, he⟩
  · rw [hn] at hheld
    refine ⟨(b.sweep now).notes, ?_⟩
    rw [he, ← hheld, strip_of_absent hheld.symm]
    rfl
  · have hleft := replaceFirst_eq_filterMap hs hfind
    have hlen := length_replaceFirst_none (entryOf?_isSome hfind)
    rw [hw] at hleft
    rw [hfind] at hheld
    refine ⟨⟨now, .removed id⟩ :: (b.sweep now).notes, ?_⟩
    rw [he, ← hheld, strip, ← hleft, size, ← hlen, Nat.add_sub_cancel_left]
    rfl
  · have hleft := replaceFirst_eq_filterMap hs hfind
    rw [hw] at hleft
    rw [hfind] at hheld
    refine ⟨⟨now, .removedHalf id⟩ :: (b.sweep now).notes, ?_⟩
    rw [he, ← hheld, strip, ← hleft, length_replaceFirst_some, size, Nat.sub_self]
    rfl

/-! ### Two removals -/

theorem strip_strip (x y : PacketId) (b : Buffer) :
    let left := b.entries.filterMap fun e => (e.strip? x).bind (Entry.strip? y)
    (b.strip x).strip y = { b with
      entries := left
      counters := { b.counters with removed := b.counters.removed + (b.size - left.length) } } := by
  intro left
  have hboth : (b.entries.filterMap (Entry.strip? x)).filterMap (Entry.strip? y) = left :=
    List.filterMap_filterMap
  have hfirst : (b.entries.filterMap (Entry.strip? x)).length ≤ b.size :=
    List.length_filterMap_le _ _
  have hsecond : left.length ≤ (b.entries.filterMap (Entry.strip? x)).length :=
    hboth ▸ List.length_filterMap_le _ _
  have hcount : b.size - (b.entries.filterMap (Entry.strip? x)).length +
      ((b.entries.filterMap (Entry.strip? x)).length - left.length) = b.size - left.length := by
    omega
  simp only [strip, size, hboth, Nat.add_assoc] at hcount ⊢
  rw [hcount]

theorem strip_comm (h : ∀ e ∈ b.entries, e.Crossed) (x y : PacketId) :
    (b.strip x).strip y = (b.strip y).strip x := by
  have hleft : b.entries.filterMap (fun e => (e.strip? x).bind (Entry.strip? y)) =
      b.entries.filterMap fun e => (e.strip? y).bind (Entry.strip? x) :=
    List.filterMap_congr fun e he => Entry.strip?_comm (h e he) x y
  rw [strip_strip, strip_strip, hleft]

theorem integrity_strip (hb : Integrity b.entries) (id : PacketId) :
    Integrity (b.strip id).entries :=
  hb.of_remains (.filterMap (fun _ _ => Entry.partOf_of_strip?) b.entries)

theorem livePackets_strip (h : ∀ e ∈ b.entries, e.Crossed) (id : PacketId) :
    (b.strip id).livePackets = b.livePackets.filter fun p => p.id ≠ id :=
  flatMap_livePackets_filterMap fun e he => Entry.livePackets_strip? (h e he) id

theorem holds_strip (hb : Integrity b.entries) (x y : PacketId) :
    (b.strip x).holds y = (b.holds y && y != x) := by
  have hleft : (b.strip x).liveIds = b.liveIds.filter fun id => id ≠ x := by
    rw [liveIds_eq_map, livePackets_strip fun _ => hb.crossed_entry, liveIds_eq_map,
      List.filter_map]
    rfl
  rw [Bool.eq_iff_iff, (integrity_strip hb x).holds_iff, Bool.and_eq_true, hb.holds_iff, hleft,
    List.mem_filter, decide_eq_true_eq, bne_iff_ne]

theorem sweep_strip (now : Time) (id : PacketId) (b : Buffer) (notes : List Note) :
    ({ (b.sweep now).strip id with notes := notes } : Buffer).sweep now =
      { (b.sweep now).strip id with notes := notes } := by
  refine sweep_of_fresh fun e' he' => Entry.expire_of_unexpired fun p hp => ?_
  obtain ⟨e, he, hstrip⟩ := List.mem_filterMap.mp he'
  change p.isExpired now (b.sweep now).lifetime = false
  rw [lifetime_sweep]
  exact unexpired_of_mem_sweep
    (List.mem_flatMap.mpr ⟨e, he, Entry.mem_livePackets_of_strip? hstrip hp⟩)

theorem remove_remove_eq (hb : Integrity b.entries) (now : Time) (x y : PacketId) : ∃ notes,
    (b.remove now x).2.remove now y =
      (((b.sweep now).strip x).holds y,
        { ((b.sweep now).strip x).strip y with notes := notes }) := by
  obtain ⟨notes, hx⟩ := remove_eq hb now x
  have hb' : Integrity (b.remove now x).2.entries := integrity_perform hb now (.remove x)
  obtain ⟨notes', hy⟩ := remove_eq hb' now y
  refine ⟨notes', ?_⟩
  rw [hy, hx, sweep_strip]
  rfl

/-! ### Whole entries and halves -/

/-- The packets are the two halves of one intact pair. -/
def Halves (x y : PacketId) (es : List Entry) : Prop :=
  ∃ c s, Entry.coded c ∈ es ∧ c.survivor = none ∧ (c.half s).id = x ∧ (c.half s.other).id = y

theorem without?_eq_some {e e' : Entry} (h : without? id e = some e') :
    ∃ c s, e = .coded c ∧ c.survivor = none ∧ (c.half s).id = id := by
  cases e with
  | single p => cases h
  | coded c =>
    obtain ⟨c', hc', -⟩ := Option.map_eq_some_iff.mp h
    cases hs : c.survivor with
    | some left => simp [CodedPair.deleteHalf?, hs] at hc'
    | none =>
      simp only [CodedPair.deleteHalf?, hs] at hc'
      obtain ⟨s, hside, -⟩ := Option.map_eq_some_iff.mp hc'
      exact ⟨c, s, rfl, hs, CodedPair.sideOf?_id hside⟩

section

variable (hb : Integrity b.entries) {x y : PacketId}
include hb

theorem size_strip_of_whole (hx : x ∈ b.liveIds) (h : ∀ y, ¬ Halves x y b.entries) :
    (b.strip x).size + 1 = b.size := by
  have hfound := (isSome_entryOf? b x).trans (hb.holds_iff.mpr hx)
  obtain ⟨e, he⟩ := Option.isSome_iff_exists.mp hfound
  have hleft := replaceFirst_eq_filterMap hb he
  cases hw : without? x e with
  | none =>
    rw [hw] at hleft
    rw [size, strip, ← hleft]
    exact length_replaceFirst_none (entryOf?_isSome he)
  | some e' =>
    obtain ⟨c, s, rfl, hs, hid⟩ := without?_eq_some hw
    exact absurd ⟨c, s, List.mem_of_find?_eq_some he, hs, hid, rfl⟩ (h _)

theorem Halves.exists_lose (h : Halves x y b.entries) : ∃ (c : CodedPair) (s : Side),
    (c.half s).id = x ∧ (c.half s.other).id = y ∧
      Entry.coded (c.lose s) ∈ (b.strip x).entries ∧ (b.strip x).size = b.size := by
  obtain ⟨c, s, hmem, hs, rfl, rfl⟩ := h
  have hstrip := Entry.strip?_half (hb.crossed c hmem) hs s
  have hlive : (c.half s).id ∈ (Entry.coded c).liveIds :=
    List.mem_map_of_mem (CodedPair.half_mem_livePackets (by simp [CodedPair.isLive, hs]))
  have hheld := (Entry.mem_liveIds_iff_holds (hb.crossed_entry hmem)).mp hlive
  have hleft := replaceFirst_eq_filterMap hb ((entryOf?_eq_some_iff hb).mpr ⟨hmem, hlive⟩)
  rw [← Entry.strip?_of_holds hheld, hstrip] at hleft
  refine ⟨c, s, rfl, rfl, List.mem_filterMap.mpr ⟨_, hmem, hstrip⟩, ?_⟩
  rw [size, strip, ← hleft]
  exact length_replaceFirst_some b.entries

theorem Halves.size_strip (h : Halves x y b.entries) : (b.strip x).size = b.size := by
  obtain ⟨c, s, -, -, -, hsize⟩ := h.exists_lose hb
  exact hsize

theorem Halves.hasExtra_strip (h : Halves x y b.entries) : (b.strip x).hasExtra x = true := by
  obtain ⟨c, s, hx, -, hmem, -⟩ := h.exists_lose hb
  refine List.any_eq_true.mpr ⟨_, hmem, ?_⟩
  have hback : s.other.other = s := by cases s <;> rfl
  simp [Entry.hasExtra, CodedPair.extra?, CodedPair.lose, ← hx, hback, CodedPair.half]

theorem Halves.mem_liveIds_strip (h : Halves x y b.entries) : y ∈ (b.strip x).liveIds := by
  obtain ⟨c, s, -, hy, hmem, -⟩ := h.exists_lose hb
  exact List.mem_flatMap.mpr ⟨_, hmem, by simp [hy]⟩

/-- Once the one half is gone, the other one is not half of an intact pair any more. -/
theorem Halves.not_halves_strip (h : Halves x y b.entries) (z : PacketId) :
    ¬ Halves y z (b.strip x).entries := by
  rintro ⟨d, t, hd, hintact, ht, -⟩
  obtain ⟨c, s, -, hy, hmem, -⟩ := h.exists_lose hb
  -- The intact pair would be the entry that holds the packet, and that one has lost a half.
  have hstrip := integrity_strip hb x
  have hlost : (b.strip x).entryOf? y = some (.coded (c.lose s)) :=
    (entryOf?_eq_some_iff hstrip).mpr ⟨hmem, by simp [hy]⟩
  have hlive : y ∈ (Entry.coded d).liveIds := by
    rw [← ht]
    exact List.mem_map_of_mem (CodedPair.half_mem_livePackets (by simp [CodedPair.isLive, hintact]))
  have heq := hlost.symm.trans ((entryOf?_eq_some_iff hstrip).mpr ⟨hd, hlive⟩)
  simp only [Option.some.injEq, Entry.coded.injEq] at heq
  rw [← heq] at hintact
  cases hintact

end

/-! ### All of it -/

/-- What a removal of the packet does to the buffer that a sweep leaves. -/
structure Removal (now : Time) (id : PacketId) (b : Buffer) : Prop where
  answer : (b.remove now id).1 = true ↔ id ∈ (b.sweep now).liveIds
  live : (b.remove now id).2.livePackets = (b.sweep now).livePackets.filter fun p => p.id ≠ id
  /-- A removal that finds nothing is a sweep. -/
  absent : id ∉ (b.sweep now).liveIds → b.remove now id = (false, b.sweep now)
  /-- A packet that is not half of an intact pair goes with its entry. -/
  whole : id ∈ (b.sweep now).liveIds → (∀ y, ¬ Halves id y (b.sweep now).entries) →
    (b.remove now id).2.size + 1 = (b.sweep now).size ∧
      (b.remove now id).2.counters = { (b.sweep now).counters with
        removed := (b.sweep now).counters.removed + 1 }
  /-- Of an intact pair the other half is left, and takes the place of both. -/
  half : ∀ y, Halves id y (b.sweep now).entries →
    (b.remove now id).2.size = (b.sweep now).size ∧
      (b.remove now id).2.counters = (b.sweep now).counters ∧
      y ∈ (b.remove now id).2.liveIds ∧ (b.remove now id).2.hasExtra id = true
  again : ∀ later, ((b.remove now id).2.remove later id).1 = false
  /-- Nothing else changes. -/
  rest : ∃ es counters notes, (b.remove now id).2 = { b.sweep now with
    entries := es, counters := counters, notes := notes }

/-- Two removals at one time, in either order. -/
structure Interchange (now : Time) (x y : PacketId) (b : Buffer) : Prop where
  /-- They leave the same buffer, with the same entries and counters; only the notes differ. -/
  same : ∃ notes, ((b.remove now x).2.remove now y).2 =
    { ((b.remove now y).2.remove now x).2 with notes := notes }
  answers : ((b.remove now x).2.remove now y).1 = ((b.remove now y).1 && y != x)
  /-- Together the halves of an intact pair take one place. -/
  pair : Halves x y (b.sweep now).entries →
    ((b.remove now x).2.remove now y).2.size + 1 = (b.sweep now).size

section

variable (hb : Integrity b.entries)
include hb

theorem livePackets_remove (now : Time) (id : PacketId) :
    (b.remove now id).2.livePackets = (b.sweep now).livePackets.filter fun p => p.id ≠ id := by
  obtain ⟨notes, he⟩ := remove_eq hb now id
  rw [he]
  exact livePackets_strip (fun _ => (integrity_sweep hb now).crossed_entry) id

theorem remove_again (now : Time) (id : PacketId) (later : Time) :
    ((b.remove now id).2.remove later id).1 = false := by
  have hb' : Integrity (b.remove now id).2.entries := integrity_perform hb now (.remove id)
  obtain ⟨notes, he⟩ := remove_eq hb' later id
  rw [he]
  refine Bool.eq_false_iff.mpr fun hheld => ?_
  have hid := (integrity_sweep hb' later).holds_iff.mp hheld
  rw [liveIds_eq_map] at hid
  obtain ⟨p, hp, hpid⟩ := List.mem_map.mp hid
  have hp' := mem_of_mem_livePackets_sweep hp
  rw [livePackets_remove hb, List.mem_filter] at hp'
  simp [hpid] at hp'

theorem removal_of_integrity (now : Time) (id : PacketId) : Removal now id b := by
  have hs := integrity_sweep hb now
  have hlive := livePackets_remove hb now id
  have hagain := remove_again hb now id
  obtain ⟨notes, he⟩ := remove_eq hb now id
  refine ⟨?_, hlive, fun habsent => ?_, ?_, ?_, hagain, _, _, _, congrArg Prod.snd he⟩
  · rw [he]
    exact hs.holds_iff
  · simp only [remove, entryOf?_of_absent habsent]
  · intro hid hwhole
    have hsize := size_strip_of_whole hs hid hwhole
    rw [he]
    refine ⟨hsize, ?_⟩
    change ((b.sweep now).strip id).counters = _
    rw [counters_strip, ← hsize, Nat.add_sub_cancel_left]
  · intro y hhalf
    rw [he]
    refine ⟨hhalf.size_strip hs, ?_, hhalf.mem_liveIds_strip hs, hhalf.hasExtra_strip hs⟩
    change ((b.sweep now).strip id).counters = _
    rw [counters_strip, hhalf.size_strip hs, Nat.sub_self, Nat.add_zero]

theorem interchange_of_integrity (now : Time) (x y : PacketId) : Interchange now x y b := by
  have hs := integrity_sweep hb now
  obtain ⟨notes, he⟩ := remove_remove_eq hb now x y
  obtain ⟨notes', he'⟩ := remove_remove_eq hb now y x
  refine ⟨⟨notes, ?_⟩, ?_, ?_⟩
  · rw [he, he', strip_comm fun _ => hs.crossed_entry]
  · obtain ⟨_, hy⟩ := remove_eq hb now y
    rw [he, hy]
    exact holds_strip hs x y
  · intro hhalves
    rw [he]
    have hsize := size_strip_of_whole (integrity_strip hs x) (hhalves.mem_liveIds_strip hs)
      (hhalves.not_halves_strip hs)
    rw [hhalves.size_strip hs] at hsize
    exact hsize

end

/--
A removal takes away one packet of a buffer that requests can build, and of two removals either
can come first.
-/
theorem remove_deletes_one (capacity : Nat) (lifetime : TimeSpan) (eviction : EvictionPolicy)
    (recording : Bool) (rs : List (Time × Request)) (now : Time) :
    let b := (Buffer.new capacity lifetime eviction recording).run rs
    (∀ id, Removal now id b) ∧ ∀ x y, Interchange now x y b := by
  intro b
  have hb : Integrity b.entries := integrity_run capacity lifetime eviction recording rs
  exact ⟨removal_of_integrity hb now, interchange_of_integrity hb now⟩

end Buffer

end OppNet
