import OppNet.Proofs.Buffer.Custody

/-!
# OppNet.Proofs.Buffer.Request

What holds of every request, and from there of every sequence of them.

* `Performed`: the courses that a request can take. Later proofs go through these cases and not
  through the requests.
* `refused_eq_sweep`: a refused request has done nothing but the sweep.
* `Placed`: what an entry does to the swept buffer that it comes into. `bounded_run`: a buffer with
  a capacity never outgrows it, and gives up one entry where it has to and none elsewhere.
-/

namespace OppNet.Buffer

variable {now : Time} {b : Buffer}

def Request.isCompact : Request → Bool
  | .compact _ _ => true
  | _ => false

/-- The courses that a request can take, each with its answer and the buffer afterwards. -/
inductive Performed (now : Time) (b : Buffer) : Request → Outcome Answer → Prop
  | refused (r : Request) (f : Fault) : Performed now b r (.error f, b.sweep now)
  | looked {r : Request} (hr : r.isCompact = false) (a : Answer) :
    Performed now b r (.ok a, b.sweep now)
  | placed {r : Request} (hr : r.isCompact = false) {room : Buffer}
    (hroom : MadeRoom (b.sweep now) room) (e : Entry) (d : Deed) :
    Performed now b r (.ok .done, room.append now e d)
  | compacted (x y : PacketId) {p q : Packet} {thresholds : List Float} {replicas : Nat}
    {c : CodedPair} (hp : (b.sweep now).findSingle? x = some p)
    (hq : (b.sweep now).findSingle? y = some q)
    (hc : CodedPair.combine (p.mergedWith thresholds replicas) (q.mergedWith thresholds replicas) =
      .ok c) :
    Performed now b (.compact x y) (.ok .done, { b.sweep now with
      entries := eraseSingle y (eraseSingle x (b.sweep now).entries) ++ [Entry.coded c] }.note now
        (.encoded x y))
  | removed {id : PacketId} {e : Entry} (he : (b.sweep now).entryOf? id = some e)
    (hw : without? id e = none) :
    Performed now b (.remove id) (.ok (.flag true), { b.sweep now with
      entries := replaceFirst id none (b.sweep now).entries
      counters := { (b.sweep now).counters with
        removed := (b.sweep now).counters.removed + 1 } }.note now (.removed id))
  | halved {id : PacketId} {e e' : Entry} (he : (b.sweep now).entryOf? id = some e)
    (hw : without? id e = some e') :
    Performed now b (.remove id) (.ok (.flag true), { b.sweep now with
      entries := replaceFirst id (some e') (b.sweep now).entries }.note now (.removedHalf id))
  | changed {r : Request} (hr : r.isCompact = false) {id : PacketId} {p : Packet}
    (hp : (b.sweep now).find? id = some p) (p' : Packet) (a : Answer) :
    Performed now b r (.ok a, { b.sweep now with
      entries := updateFirst id (fun _ => p') (b.sweep now).entries })

theorem performed_modify {α : Type} {r : Request} (hr : r.isCompact = false) (id : PacketId)
    (f : Packet → Except Fault (α × Packet)) (g : α → Answer) :
    Performed now b r (Outcome.map g (b.modify now id f)) := by
  rcases modify_cases now id f b with ⟨_, he⟩ | ⟨_, _, _, _, he⟩ | ⟨_, _, p', hp, _, he⟩
  · rw [he]; exact .refused r _
  · rw [he]; exact .refused r _
  · rw [he]; exact .changed hr hp p' _

theorem performed_perform (now : Time) (b : Buffer) (r : Request) :
    Performed now b r (b.perform now r) := by
  cases r with
  | insert p =>
    rcases insert_cases now p b with ⟨_, he⟩ | ⟨_, _, hroom, he⟩
    · simp only [perform, he]; exact .refused _ _
    · simp only [perform, he]; exact .placed rfl hroom _ _
  | insertCoded p q =>
    rcases insertCoded_cases now p q b with ⟨_, _, he⟩ | ⟨_, _, _, _, _, _, hroom, he⟩
    · simp only [perform, he]; exact .refused _ _
    · simp only [perform, he]; exact .placed rfl hroom _ _
  | compact x y =>
    rcases compact_cases now x y b with ⟨_, he⟩ | ⟨_, _, _, hp, hq, hc, he⟩
    · simp only [perform, he]; exact .refused _ _
    · simp only [perform, he]; exact .compacted x y hp hq hc
  | remove id =>
    rcases remove_cases now id b with ⟨_, he⟩ | ⟨_, hfind, hw, he⟩ | ⟨_, _, hfind, hw, he⟩
    · simp only [perform, he]; exact .looked rfl _
    · simp only [perform, he]; exact .removed hfind hw
    · simp only [perform, he]; exact .halved hfind hw
  | removeExpired => exact .looked rfl _
  | setReplicas id n => exact performed_modify rfl id _ _
  | splitReplicas id give => exact performed_modify rfl id _ _
  | updateThreshold id metric value => exact performed_modify rfl id _ _
  | markForwarded id => exact performed_modify rfl id _ _
  | addForwarder id n => exact performed_modify rfl id _ _
  | addPreviousHop id n => exact performed_modify rfl id _ _
  | ask q =>
    simp only [perform]
    cases (b.sweep now).answer now q with
    | ok a => exact .looked rfl a
    | error f => exact .refused _ f

theorem run_induction {P : Buffer → Prop}
    (h : ∀ b now r o, P b → Performed now b r o → P o.2) (rs : List (Time × Request)) :
    ∀ b : Buffer, P b → P (b.run rs) := by
  induction rs with
  | nil =>
    intro b hb
    exact hb
  | cons r rest ih =>
    intro b hb
    exact ih _ (h b r.1 r.2 _ hb (performed_perform r.1 b r.2))

/-- A refused request leaves entries, totals, evictions, history and notes as the sweep does. -/
theorem refused_eq_sweep {r : Request} {f : Fault} (h : (b.perform now r).1 = .error f) :
    (b.perform now r).2 = b.sweep now := by
  have hr := performed_perform now b r
  generalize b.perform now r = o at h hr
  cases hr with
  | refused => rfl
  | looked => cases h
  | placed => cases h
  | compacted => cases h
  | removed => cases h
  | halved => cases h
  | changed => cases h

/-- The refusal of a packet that is there already, while an older one expires. -/
theorem duplicate_refused :
    let b := (Buffer.new 2 ⟨10.0⟩ ⟨.front, false⟩ true).run
      [(⟨0.0⟩, .insert (.generate ⟨0⟩ ⟨0⟩ ⟨1⟩ ⟨0.0⟩)),
        (⟨5.0⟩, .insert (.generate ⟨1⟩ ⟨0⟩ ⟨1⟩ ⟨5.0⟩))]
    let again : Request := .insert (.generate ⟨1⟩ ⟨0⟩ ⟨1⟩ ⟨5.0⟩)
    (b.perform ⟨12.0⟩ again).1 = .error (.duplicatePacket ⟨1⟩) ∧
      (b.perform ⟨12.0⟩ again).2 = b.sweep ⟨12.0⟩ ∧ (b.sweep ⟨12.0⟩).size = 1 := by
  intro b again
  have h : (b.perform ⟨12.0⟩ again).1 = .error (.duplicatePacket ⟨1⟩) := by decide +kernel
  exact ⟨h, refused_eq_sweep h, by decide +kernel⟩

/-! ### Sizes -/

theorem size_sweep_le (now : Time) (b : Buffer) : (b.sweep now).size ≤ b.size := by
  rw [size, entries_sweep]
  exact List.length_filterMap_le _ _

theorem length_replaceFirst_some {id : PacketId} {e : Entry} (es : List Entry) :
    (replaceFirst id (some e) es).length = es.length := by
  induction es with
  | nil => rfl
  | cons x rest ih =>
    rw [replaceFirst]
    split
    · simp
    · simp [ih]

theorem length_eraseSingle {p : Packet} {es : List Entry} (h : Entry.single p ∈ es) :
    (eraseSingle p.id es).length + 1 = es.length := by
  have hlen := List.length_eraseP_of_mem (p := fun e => (Entry.single? p.id e).isSome) h
    (by simp [Entry.single?])
  have hpos := List.length_pos_of_mem h
  rw [eraseSingle]
  omega

theorem length_eraseSingle_pair {swept : Buffer} {x y : PacketId} {p q : Packet} {c : CodedPair}
    {thresholds : List Float} {replicas : Nat} (hp : swept.findSingle? x = some p)
    (hq : swept.findSingle? y = some q)
    (hc : CodedPair.combine (p.mergedWith thresholds replicas) (q.mergedWith thresholds replicas) =
      .ok c) : (eraseSingle y (eraseSingle x swept.entries)).length + 2 = swept.size := by
  obtain ⟨rfl, hpmem⟩ := findSingle?_eq_some hp
  obtain ⟨rfl, hqmem⟩ := findSingle?_eq_some hq
  have hne : q.id ≠ p.id := by
    obtain ⟨rfl, hcross⟩ := CodedPair.combine_ok hc
    exact hcross.1.symm
  have hfirst := length_eraseSingle hpmem
  have hsecond := length_eraseSingle (mem_eraseSingle_of_ne hne hqmem)
  rw [size]
  omega

theorem entryOf?_isSome {id : PacketId} {e : Entry} (h : b.entryOf? id = some e) :
    (b.entries.find? (Entry.holds id)).isSome = true := by
  rw [entryOf?] at h
  rw [h]
  rfl

/-! ### Capacity -/

theorem isFull_iff (hpos : 0 < b.capacity) : b.isFull = true ↔ b.capacity ≤ b.size := by
  simp [isFull, hpos]

theorem isFull_iff_availableSpace? (hpos : 0 < b.capacity) :
    b.isFull = true ↔ b.availableSpace? = some 0 := by
  have hne : b.capacity ≠ 0 := by omega
  simp [isFull_iff hpos, availableSpace?, hne, Nat.sub_eq_zero_iff_le]

theorem capacity_perform (now : Time) (b : Buffer) (r : Request) :
    (b.perform now r).2.capacity = b.capacity := by
  have hr := performed_perform now b r
  have hs := capacity_sweep now b
  generalize b.perform now r = o at hr ⊢
  cases hr with
  | refused => exact hs
  | looked => exact hs
  | placed _ hroom => exact hroom.capacity.trans hs
  | compacted => exact hs
  | removed => exact hs
  | halved => exact hs
  | changed => exact hs

/-- A buffer of that capacity that is not overfull. -/
structure Fits (k : Nat) (b : Buffer) : Prop where
  capacity_eq : b.capacity = k
  size_le : b.size ≤ k

section Fits

variable {capacity : Nat}

theorem Fits.sweep (h : Fits capacity b) (now : Time) : Fits capacity (b.sweep now) :=
  ⟨(capacity_sweep now b).trans h.capacity_eq, Nat.le_trans (size_sweep_le now b) h.size_le⟩

theorem MadeRoom.size_lt {room : Buffer} (hr : MadeRoom b room) (hpos : 0 < capacity)
    (h : Fits capacity b) : room.size < capacity := by
  have hcap := h.capacity_eq
  cases hfull : b.isFull with
  | true =>
    obtain ⟨i, victim, hgave⟩ := hr.evicted hfull
    have hsize := hr.size
    rw [hgave.dropped] at hsize
    have := h.size_le
    omega
  | false =>
    have hnot : ¬ b.capacity ≤ b.size := by
      rw [← isFull_iff (by omega), hfull]
      simp
    rw [hr.kept hfull]
    omega

theorem Fits.append {room : Buffer} (h : Fits capacity b) (hpos : 0 < capacity)
    (hr : MadeRoom b room) (now : Time) (e : Entry) (d : Deed) :
    Fits capacity (room.append now e d) := by
  refine ⟨hr.capacity.trans h.capacity_eq, ?_⟩
  have hlt := hr.size_lt hpos h
  rw [size] at hlt ⊢
  simp only [entries_append, List.length_append, List.length_singleton]
  omega

theorem Fits.performed (h : Fits capacity b) (hpos : 0 < capacity) {r : Request}
    {o : Outcome Answer} (hr : Performed now b r o) : Fits capacity o.2 := by
  have hs := h.sweep now
  have hle := hs.size_le
  cases hr with
  | refused => exact hs
  | looked => exact hs
  | placed _ hroom e d => exact hs.append hpos hroom now e d
  | compacted x y hp hq hc =>
    refine ⟨hs.capacity_eq, ?_⟩
    have hlen := length_eraseSingle_pair hp hq hc
    simp only [Buffer.size, entries_note, List.length_append, List.length_singleton] at hlen hle ⊢
    omega
  | removed he =>
    refine ⟨hs.capacity_eq, ?_⟩
    have hlen := length_replaceFirst_none (entryOf?_isSome he)
    simp only [Buffer.size, entries_note] at hle ⊢
    omega
  | halved =>
    refine ⟨hs.capacity_eq, ?_⟩
    simp only [Buffer.size, entries_note, length_replaceFirst_some] at hle ⊢
    exact hle
  | changed =>
    refine ⟨hs.capacity_eq, ?_⟩
    simp only [Buffer.size, length_updateFirst] at hle ⊢
    exact hle

theorem fits_run (hpos : 0 < capacity) (lifetime : TimeSpan) (eviction : EvictionPolicy)
    (recording : Bool) (rs : List (Time × Request)) :
    Fits capacity ((Buffer.new capacity lifetime eviction recording).run rs) :=
  run_induction (fun _ _ _ _ h hr => h.performed hpos hr) rs _ ⟨rfl, Nat.zero_le _⟩

end Fits

/-! ### Evictions -/

/--
A swept buffer after an entry came in: the entry is the last one, and before it the policy's choice
went if the buffer was full, and nothing else did.
-/
structure Placed (swept : Buffer) (e : Entry) (after : Buffer) : Prop where
  full : swept.isFull = true → ∃ i victim,
    swept.eviction.victimIndex? swept.entries = some i ∧ swept.entries[i]? = some victim ∧
    after.entries = swept.entries.eraseIdx i ++ [e] ∧
    after.counters.dropped = swept.counters.dropped + 1 ∧
    after.evictions = swept.evictions.add victim
  free : swept.isFull = false → after.entries = swept.entries ++ [e] ∧
    after.counters.dropped = swept.counters.dropped ∧ after.evictions = swept.evictions

theorem placed_append {room : Buffer} (hr : MadeRoom b room) (now : Time) (e : Entry) (d : Deed) :
    Placed b e (room.append now e d) := by
  constructor
  · intro hfull
    obtain ⟨i, victim, hgave⟩ := hr.evicted hfull
    refine ⟨i, victim, hgave.choice, hgave.found, ?_, hgave.dropped, hgave.evictions⟩
    rw [entries_append, hgave.entries]
  · intro hfree
    rw [hr.kept hfree]
    exact ⟨rfl, rfl, rfl⟩

theorem insert_placed (now : Time) (p : Packet) (b : Buffer) :
    ((b.insert now p).1 = .ok () ∧
      Placed (b.sweep now) (.single { p with inserted := now }) (b.insert now p).2) ∨
    (b.insert now p).1 = .error (.duplicatePacket p.id) := by
  rcases insert_cases now p b with ⟨_, he⟩ | ⟨_, room, hr, he⟩
  · rw [he]; exact .inr rfl
  · rw [he]; exact .inl ⟨rfl, placed_append hr now _ _⟩

/-- Two packets come in as one entry, or do not fit together, or one of them is there already. -/
theorem insertCoded_placed (now : Time) (p q : Packet) (b : Buffer) :
    ((b.insertCoded now p q).1 = .ok () ∧
      Placed (b.sweep now)
        (.coded ⟨{ p with inserted := now }, { q with inserted := now }, none⟩)
        (b.insertCoded now p q).2) ∨
    ∃ f ∈ codedRefusals p q, (b.insertCoded now p q).1 = .error f := by
  rcases insertCoded_cases now p q b with ⟨f, hf, he⟩ | ⟨c, room, hc, _, _, _, hr, he⟩
  · rw [he]; exact .inr ⟨f, hf, rfl⟩
  · obtain ⟨rfl, _⟩ := CodedPair.combine_ok hc
    rw [he]
    exact .inl ⟨rfl, placed_append hr now _ _⟩

/--
A buffer with a capacity holds no more entries than that after any requests. It is never asked to
evict from nothing, evicts one entry for a new one where it is full and none elsewhere, refuses an
entry only for what is wrong with the entry, and is full exactly if no space is available.
-/
theorem bounded_run {capacity : Nat} (hpos : 0 < capacity) (lifetime : TimeSpan)
    (eviction : EvictionPolicy) (recording : Bool) (rs : List (Time × Request)) (now : Time) :
    let b := (Buffer.new capacity lifetime eviction recording).run rs
    b.size ≤ capacity ∧
    ((b.sweep now).isFull = true → (b.sweep now).entries ≠ []) ∧
    (∀ p, ((b.insert now p).1 = .ok () ∧
        Placed (b.sweep now) (.single { p with inserted := now }) (b.insert now p).2) ∨
      (b.insert now p).1 = .error (.duplicatePacket p.id)) ∧
    (∀ p q, ((b.insertCoded now p q).1 = .ok () ∧
        Placed (b.sweep now)
          (.coded ⟨{ p with inserted := now }, { q with inserted := now }, none⟩)
          (b.insertCoded now p q).2) ∨
      ∃ f ∈ codedRefusals p q, (b.insertCoded now p q).1 = .error f) ∧
    ((b.perform now (.ask .isFull)).1 = .ok (.flag true) ↔
      (b.perform now (.ask .availableSpace)).1 = .ok (.countOrNone (some 0))) := by
  intro b
  have hfits := fits_run hpos lifetime eviction recording rs
  have hswept : 0 < (b.sweep now).capacity := by
    rw [(hfits.sweep now).capacity_eq]
    exact hpos
  refine ⟨hfits.size_le, entries_ne_nil_of_isFull, fun p => insert_placed now p b,
    fun p q => insertCoded_placed now p q b, ?_⟩
  simpa [perform, answer] using isFull_iff_availableSpace? hswept

/-- A buffer with one place, which a second packet takes from the first one. -/
theorem one_place_bounded :
    let b := (Buffer.new 1 ⟨0.0⟩ ⟨.front, true⟩ false).run
      [(⟨1.0⟩, .insert (.generate ⟨0⟩ ⟨0⟩ ⟨1⟩ ⟨1.0⟩))]
    let p := Packet.generate ⟨1⟩ ⟨0⟩ ⟨1⟩ ⟨2.0⟩
    b.size ≤ 1 ∧ (b.sweep ⟨2.0⟩).isFull = true ∧
      Placed (b.sweep ⟨2.0⟩) (.single p) (b.insert ⟨2.0⟩ p).2 := by
  intro b p
  obtain ⟨hsize, _, hinsert, _, _⟩ := bounded_run Nat.one_pos ⟨0.0⟩ ⟨.front, true⟩
    false [(⟨1.0⟩, .insert (.generate ⟨0⟩ ⟨0⟩ ⟨1⟩ ⟨1.0⟩))] ⟨2.0⟩
  refine ⟨hsize, by decide +kernel, ?_⟩
  rcases hinsert p with ⟨_, hplaced⟩ | hdup
  · exact hplaced
  · have hnew : (b.insert ⟨2.0⟩ p).1 = .ok () := by decide +kernel
    rw [hnew] at hdup
    cases hdup

end OppNet.Buffer
