import OppNet.Proofs.Buffer.Integrity

/-!
# OppNet.Proofs.Buffer.Custody

What the operations that a simulation uses do to a buffer, without the details of the entries: which
packets are live afterwards, and what was counted.

* `Kept`: nothing came in and nothing was taken out. Expiry and changes of one packet do this.
* `Gained`: one packet came in, whatever was evicted for it.
* `Lost`: one packet was taken out.
* `insert_outcome`, `remove_outcome`, `kept_modify`: which operation does which.

All of it is about buffers without coded pairs (`Uncoded`), which a simulation never makes.
-/

namespace OppNet

/-- What decides whether a packet has expired, with its number. -/
def Packet.stamp (p : Packet) : PacketId × Time := (p.id, p.created)

theorem Packet.isExpired_of_stamp {p q : Packet} (h : p.stamp = q.stamp) (now : Time)
    (lifetime : TimeSpan) : p.isExpired now lifetime = q.isExpired now lifetime := by
  have hc : p.created = q.created := congrArg Prod.snd h
  unfold isExpired age
  rw [hc]

theorem Entry.stamps_of_update? {e e' : Entry} {id : PacketId} {f : Packet → Packet}
    (hf : ∀ p, e.find? id = some p → (f p).stamp = p.stamp) (h : e.update? id f = some e') :
    e'.livePackets.map Packet.stamp = e.livePackets.map Packet.stamp := by
  cases e with
  | single p =>
    simp only [update?] at h
    split at h
    · rename_i hid
      cases h
      simp [hf p (by simp [hid])]
    · cases h
  | coded c =>
    obtain ⟨s, hs, rfl⟩ := Option.map_eq_some_iff.mp h
    have hst := hf (c.half s) (by simp [find?, hs])
    have hlive := (CodedPair.liveSide?_eq_some hs).2
    cases hsv : c.survivor with
    | none =>
      cases s <;>
        simpa [livePackets, CodedPair.livePackets, CodedPair.setHalf, CodedPair.half, hsv] using hst
    | some left =>
      obtain rfl : left = s := by simpa [CodedPair.isLive, hsv] using hlive
      cases left <;>
        simpa [livePackets, CodedPair.livePackets, CodedPair.setHalf, CodedPair.half, hsv] using hst

namespace Buffer

variable {now : Time}

def Uncoded (b : Buffer) : Prop := ∀ e ∈ b.entries, e.isCoded = false

theorem Uncoded.crossed {b : Buffer} (h : b.Uncoded) {e : Entry} (he : e ∈ b.entries) :
    e.Crossed := by
  cases e with
  | single p => trivial
  | coded c => cases h _ he

theorem Uncoded.length_liveIds {b : Buffer} (h : b.Uncoded) : b.liveIds.length = b.size := by
  have hone : ∀ e ∈ b.entries, e.liveIds.length = 1 := by
    intro e he
    cases e with
    | single p => rfl
    | coded c => cases h _ he
  rw [liveIds, List.length_flatMap, List.map_congr_left hone, List.map_const',
    List.sum_replicate_nat, Nat.mul_one]
  rfl

theorem mem_liveIds {b : Buffer} {id : PacketId} :
    id ∈ b.liveIds ↔ ∃ p ∈ b.livePackets, p.id = id := by
  simp only [liveIds, livePackets, Entry.liveIds, List.mem_flatMap, List.mem_map]
  constructor
  · rintro ⟨e, he, p, hp, hid⟩
    exact ⟨p, ⟨e, he, hp⟩, hid⟩
  · rintro ⟨p, ⟨e, he, hp⟩, hid⟩
    exact ⟨e, he, p, hp, hid⟩

theorem Uncoded.holds_iff {b : Buffer} (h : b.Uncoded) {id : PacketId} :
    b.holds id = true ↔ id ∈ b.liveIds :=
  holds_iff_mem_liveIds fun _ he => h.crossed he

theorem holds_eq_isSome (b : Buffer) (id : PacketId) : b.holds id = (b.find? id).isSome := by
  unfold holds find?
  induction b.entries with
  | nil => rfl
  | cons e rest ih =>
    rw [List.any_cons, ih, List.findSome?_cons, Entry.holds]
    cases e.find? id <;> rfl

theorem mem_liveIds_of_find? {b : Buffer} {id : PacketId} {p : Packet}
    (h : b.find? id = some p) : p.id = id ∧ id ∈ b.liveIds := by
  obtain ⟨e, he, hp⟩ := List.exists_of_findSome?_eq_some h
  exact ⟨Entry.id_of_find? hp, List.mem_flatMap.mpr ⟨e, he, Entry.mem_liveIds_of_find? hp⟩⟩

theorem mem_livePackets_of_find? {b : Buffer} {id : PacketId} {p : Packet}
    (h : b.find? id = some p) : p ∈ b.livePackets := by
  obtain ⟨e, he, hp⟩ := List.exists_of_findSome?_eq_some h
  exact List.mem_flatMap.mpr ⟨e, he, Entry.mem_livePackets_of_find? hp⟩

theorem mem_of_mem_livePackets_sweep {b : Buffer} {p : Packet}
    (h : p ∈ (b.sweep now).livePackets) : p ∈ b.livePackets := by
  rw [livePackets_sweep] at h
  exact (List.mem_filter.mp h).1

/-- Entries that are in the buffer or were counted on their way out of it. -/
def account (b : Buffer) : Nat := b.size + b.counters.dropped + b.counters.expired

/-- Nothing came in and nothing was taken out; what has expired by `now` may be gone. -/
structure Kept (now : Time) (b b' : Buffer) : Prop where
  live : ∀ id ∈ b'.liveIds, id ∈ b.liveIds
  /-- The same packets are left at `now`. -/
  living : (b'.sweep now).liveIds = (b.sweep now).liveIds
  uncoded : b.Uncoded → b'.Uncoded
  capacity : b'.capacity = b.capacity
  lifetime : b'.lifetime = b.lifetime
  inserted : b'.counters.inserted = b.counters.inserted
  removed : b'.counters.removed = b.counters.removed
  account : b'.account = b.account

/-- One packet came in, and others may have been lost to expiry or eviction. -/
structure Gained (id : PacketId) (b b' : Buffer) : Prop where
  live : ∀ x ∈ b'.liveIds, x = id ∨ x ∈ b.liveIds
  has : id ∈ b'.liveIds
  uncoded : b.Uncoded → b'.Uncoded
  capacity : b'.capacity = b.capacity
  lifetime : b'.lifetime = b.lifetime
  inserted : b'.counters.inserted = b.counters.inserted + 1
  removed : b'.counters.removed = b.counters.removed
  account : b'.account = b.account + 1

/-- One packet was taken out, and others may have expired. -/
structure Lost (b b' : Buffer) : Prop where
  live : ∀ id ∈ b'.liveIds, id ∈ b.liveIds
  uncoded : b.Uncoded → b'.Uncoded
  capacity : b'.capacity = b.capacity
  lifetime : b'.lifetime = b.lifetime
  inserted : b'.counters.inserted = b.counters.inserted
  removed : b'.counters.removed = b.counters.removed + 1
  account : b'.account + 1 = b.account

namespace Kept

variable {b b' b'' : Buffer}

theorem refl (now : Time) (b : Buffer) : Kept now b b :=
  ⟨fun _ h => h, rfl, id, rfl, rfl, rfl, rfl, rfl⟩

theorem trans (h : Kept now b b') (h' : Kept now b' b'') : Kept now b b'' :=
  ⟨fun id hid => h.live id (h'.live id hid), h'.living.trans h.living,
    fun hu => h'.uncoded (h.uncoded hu), h'.capacity.trans h.capacity,
    h'.lifetime.trans h.lifetime, h'.inserted.trans h.inserted, h'.removed.trans h.removed,
    h'.account.trans h.account⟩

theorem gained (h : Kept now b b') {id : PacketId} (h' : Gained id b' b'') : Gained id b b'' :=
  ⟨fun x hx => (h'.live x hx).imp_right (h.live x), h'.has, fun hu => h'.uncoded (h.uncoded hu),
    h'.capacity.trans h.capacity, h'.lifetime.trans h.lifetime,
    h'.inserted.trans (by rw [h.inserted]), h'.removed.trans h.removed,
    h'.account.trans (by rw [h.account])⟩

theorem lost (h : Kept now b b') (h' : Lost b' b'') : Lost b b'' :=
  ⟨fun id hid => h.live id (h'.live id hid), fun hu => h'.uncoded (h.uncoded hu),
    h'.capacity.trans h.capacity, h'.lifetime.trans h.lifetime, h'.inserted.trans h.inserted,
    h'.removed.trans (by rw [h.removed]), h'.account.trans h.account⟩

end Kept

/-! ### Expiry and changes of one packet -/

theorem uncoded_of_remains {b b' : Buffer} (h : Remains b'.entries b.entries) (hu : b.Uncoded) :
    b'.Uncoded := by
  intro e he
  obtain ⟨f, hf, hp⟩ := h.exists_partOf he
  rw [hp.isCoded_eq]
  exact hu f hf

theorem kept_sweep (now : Time) (b : Buffer) : Kept now b (b.sweep now) where
  live := (Remains.sweep now b).liveIds_sublist.subset
  living := by rw [sweep_sweep]
  uncoded := uncoded_of_remains (.sweep now b)
  capacity := capacity_sweep now b
  lifetime := lifetime_sweep now b
  inserted := inserted_sweep now b
  removed := removed_sweep now b
  account := by
    have := size_sweep now b
    simp only [account, dropped_sweep]
    omega

theorem Uncoded.sweep {b : Buffer} (h : b.Uncoded) (now : Time) : (b.sweep now).Uncoded :=
  (kept_sweep now b).uncoded h

/-- Where no packet came in or went out, the same places are free at `now`. -/
theorem Kept.availableSpace?_sweep {b b' : Buffer} (h : Kept now b b') (hu : b.Uncoded) :
    (b'.sweep now).availableSpace? = (b.sweep now).availableSpace? := by
  have hsize : (b'.sweep now).size = (b.sweep now).size := by
    rw [← ((h.uncoded hu).sweep now).length_liveIds, ← (hu.sweep now).length_liveIds, h.living]
  rw [availableSpace?, availableSpace?, hsize, capacity_sweep, capacity_sweep, h.capacity]

/-- The packets live at `now` only depend on stamps. -/
theorem liveIds_sweep_congr {b b' : Buffer} (hl : b'.lifetime = b.lifetime)
    (h : b'.livePackets.map Packet.stamp = b.livePackets.map Packet.stamp) :
    (b'.sweep now).liveIds = (b.sweep now).liveIds := by
  have key : ∀ b : Buffer, (b.sweep now).liveIds = (b.livePackets.filter fun p =>
      !p.isExpired now b.lifetime).map fun p => p.stamp.1 := by
    intro b
    rw [← livePackets_sweep]
    simp only [liveIds, livePackets, List.map_flatMap]
    rfl
  rw [key, key, hl]
  generalize b'.livePackets = xs at h
  generalize b.livePackets = ys at h
  induction xs generalizing ys with
  | nil =>
    obtain rfl : ys = [] := List.map_eq_nil_iff.mp h.symm
    rfl
  | cons x rest ih =>
    cases ys with
    | nil => cases h
    | cons y rest' =>
      rw [List.map_cons, List.map_cons, List.cons.injEq] at h
      have hr := ih rest' h.2
      rw [List.filter_cons, List.filter_cons, Packet.isExpired_of_stamp h.1]
      split
      · rw [List.map_cons, List.map_cons, h.1, hr]
      · exact hr

theorem find?_sweep_congr {b b' : Buffer} {id : PacketId} (hl : b'.lifetime = b.lifetime)
    (he : b'.entries = b.entries) : (b'.sweep now).find? id = (b.sweep now).find? id := by
  rw [find?, find?, entries_sweep, entries_sweep, hl, he]

theorem stamps_updateFirst {id : PacketId} {f : Packet → Packet} {es : List Entry}
    (hf : ∀ p, es.findSome? (Entry.find? id) = some p → (f p).stamp = p.stamp) :
    ((updateFirst id f es).flatMap Entry.livePackets).map Packet.stamp =
      (es.flatMap Entry.livePackets).map Packet.stamp := by
  induction es with
  | nil => rfl
  | cons e rest ih =>
    rw [updateFirst]
    cases hu : e.update? id f with
    | some e' =>
      have he := Entry.stamps_of_update? (fun p hp => hf p (by simp [hp])) hu
      simp only [List.flatMap_cons, List.map_append, he]
    | none =>
      have hrest := ih fun p hp => hf p (by simp [Entry.find?_of_update?_eq_none hu, hp])
      simp only [List.flatMap_cons, List.map_append, hrest]

/-- A change that keeps number and creation time leaves nothing for a second sweep. -/
theorem sweep_updateFirst {b : Buffer} {id : PacketId} {f : Packet → Packet}
    (hf : ∀ p, (b.sweep now).find? id = some p → (f p).stamp = p.stamp) :
    ({ b.sweep now with entries := updateFirst id f (b.sweep now).entries } : Buffer).sweep now =
      { b.sweep now with entries := updateFirst id f (b.sweep now).entries } := by
  refine sweep_of_fresh fun e he => Entry.expire_of_unexpired fun p hp => ?_
  have hmem : p.stamp ∈ ((updateFirst id f (b.sweep now).entries).flatMap
      Entry.livePackets).map Packet.stamp :=
    List.mem_map_of_mem (List.mem_flatMap.mpr ⟨e, he, hp⟩)
  rw [stamps_updateFirst hf, List.mem_map] at hmem
  obtain ⟨q, hq, hstamp⟩ := hmem
  change q ∈ (b.sweep now).livePackets at hq
  rw [livePackets_sweep, List.mem_filter] at hq
  rw [Packet.isExpired_of_stamp hstamp.symm]
  simpa using hq.2

theorem kept_updateFirst {b : Buffer} {id : PacketId} {f : Packet → Packet}
    (hf : ∀ p, (b.sweep now).find? id = some p → (f p).route = p.route ∧ (f p).stamp = p.stamp) :
    Kept now (b.sweep now)
      { b.sweep now with entries := updateFirst id f (b.sweep now).entries } where
  live := (Remains.updateFirst fun p hp => (hf p hp).1).liveIds_sublist.subset
  living := liveIds_sweep_congr rfl (stamps_updateFirst fun p hp => (hf p hp).2)
  uncoded := uncoded_of_remains (Remains.updateFirst fun p hp => (hf p hp).1)
  capacity := rfl
  lifetime := rfl
  inserted := rfl
  removed := rfl
  account := by simp only [account, size, length_updateFirst]

theorem kept_modify {α : Type} {b : Buffer} {id : PacketId} {f : Packet → Except Fault (α × Packet)}
    (hf : ∀ p a p', f p = .ok (a, p') → p'.route = p.route ∧ p'.stamp = p.stamp) :
    Kept now b (b.modify now id f).2 := by
  have hs := kept_sweep now b
  rcases modify_cases now id f b with ⟨_, he⟩ | ⟨_, _, _, _, he⟩ | ⟨p, a, p', hp, hfp, he⟩
  · rw [he]; exact hs
  · rw [he]; exact hs
  · rw [he]
    refine hs.trans (kept_updateFirst fun q hq => ?_)
    obtain rfl : p = q := Option.some_inj.mp (hp.symm.trans hq)
    exact hf p a p' hfp

theorem find?_modify {α : Type} {b : Buffer} {id : PacketId} {p p' : Packet} {a : α}
    {f : Packet → Except Fault (α × Packet)} (hp : (b.sweep now).find? id = some p)
    (hf : f p = .ok (a, p')) (hst : p'.stamp = p.stamp) :
    (b.modify now id f).1 = .ok a ∧ ((b.modify now id f).2.sweep now).find? id = some p' := by
  have hfind : (b.sweep now).entries.findSome? (Entry.find? id) = some p := hp
  have hid : p'.id = id := (congrArg Prod.fst hst).trans (mem_liveIds_of_find? hp).1
  rw [modify_of_found hp hf]
  refine ⟨rfl, ?_⟩
  rw [sweep_updateFirst fun q hq => by rw [Option.some_inj.mp (hp.symm.trans hq)] at hst; exact hst]
  change (updateFirst id (fun _ => p') (b.sweep now).entries).findSome? (Entry.find? id) = some p'
  rw [find?_updateFirst (fun _ _ => hid), if_pos rfl, hfind]
  rfl

/-! ### Inserting and removing -/

theorem mem_liveIds_of_holds {b : Buffer} {id : PacketId} (h : b.holds id = true) :
    id ∈ b.liveIds := by
  obtain ⟨e, he, hid⟩ := List.any_eq_true.mp h
  obtain ⟨p, hp⟩ := Entry.holds_iff.mp hid
  exact List.mem_flatMap.mpr ⟨e, he, Entry.mem_liveIds_of_find? hp⟩

theorem gained_append {b room : Buffer} {p : Packet} {d : Deed} (h : MadeRoom b room) :
    Gained p.id b (room.append now (.single p) d) := by
  have hlive : (room.append now (.single p) d).liveIds = room.liveIds ++ [p.id] := by
    simp only [liveIds, entries_append, List.flatMap_append, List.flatMap_singleton,
      Entry.liveIds_single]
  have hsub : ∀ x ∈ room.liveIds, x ∈ b.liveIds :=
    (Remains.of_sublist h.sublist).liveIds_sublist.subset
  have hsize := h.size
  have hexpired := h.expired
  have hinserted := h.inserted
  refine ⟨?_, ?_, ?_, h.capacity, h.lifetime, ?_, h.removed, ?_⟩
  · intro x hx
    rw [hlive, List.mem_append, List.mem_singleton] at hx
    exact hx.symm.imp_right (hsub x)
  · rw [hlive]
    simp
  · intro hu e he
    rw [entries_append, List.mem_append, List.mem_singleton] at he
    rcases he with he | rfl
    · exact hu e (h.sublist.subset he)
    · rfl
  · change room.counters.inserted + 1 = _
    omega
  · change (room.entries ++ [Entry.single p]).length + room.counters.dropped +
      room.counters.expired = b.size + b.counters.dropped + b.counters.expired + 1
    rw [List.length_append, List.length_singleton]
    simp only [size] at hsize ⊢
    omega

theorem insert_outcome (now : Time) (p : Packet) (b : Buffer) :
    (p.id ∈ b.liveIds ∧ (b.insert now p).1 = .error (.duplicatePacket p.id) ∧
      Kept now b (b.insert now p).2) ∨
    ((b.insert now p).1 = .ok () ∧ Gained p.id b (b.insert now p).2) := by
  have hs := kept_sweep now b
  rcases insert_cases now p b with ⟨hheld, he⟩ | ⟨_, room, hroom, he⟩
  · rw [he]
    exact .inl ⟨hs.live _ (mem_liveIds_of_holds hheld), rfl, hs⟩
  · rw [he]
    exact .inr ⟨rfl, hs.gained (gained_append (p := { p with inserted := now }) hroom)⟩

theorem length_replaceFirst_none {id : PacketId} {es : List Entry}
    (h : (es.find? (Entry.holds id)).isSome = true) :
    (replaceFirst id none es).length + 1 = es.length := by
  induction es with
  | nil => cases h
  | cons e rest ih =>
    rw [replaceFirst]
    cases he : e.holds id with
    | true => simp
    | false =>
      rw [if_neg (by simp), List.length_cons, List.length_cons, ih]
      rwa [List.find?_cons_of_neg (by simp [he])] at h

theorem remove_outcome {b : Buffer} (hu : b.Uncoded) {id : PacketId}
    (h : id ∈ (b.sweep now).liveIds) : Lost b (b.remove now id).2 := by
  have hs := kept_sweep now b
  have hheld := (hs.uncoded hu).holds_iff.mpr h
  have hsome : ((b.sweep now).entryOf? id).isSome = true := by
    rwa [entryOf?, List.find?_isSome, ← List.any_eq_true]
  rcases remove_cases now id b with ⟨hn, _⟩ | ⟨_, _, _, he⟩ | ⟨e, e', hfind, hw, _⟩
  · rw [hn] at hsome
    cases hsome
  · have hrem : Remains (replaceFirst id none (b.sweep now).entries) (b.sweep now).entries :=
      .replaceFirst fun _ _ _ hn => by cases hn
    have hlen := length_replaceFirst_none hsome
    rw [he]
    refine hs.lost ⟨hrem.liveIds_sublist.subset, uncoded_of_remains hrem, rfl, rfl, rfl, rfl, ?_⟩
    change (replaceFirst id none (b.sweep now).entries).length + _ + _ + 1 =
      (b.sweep now).entries.length + _ + _
    simp only [note]
    omega
  · have hcoded := hs.uncoded hu e (List.mem_of_find?_eq_some hfind)
    cases e with
    | single p => cases hw
    | coded c => cases hcoded

end Buffer

end OppNet
