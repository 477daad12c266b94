import OppNet.Buffer.Update
import OppNet.Proofs.Buffer.Sweep
import OppNet.Proofs.Eviction

/-!
# OppNet.Proofs.Buffer.Update

What each operation on a buffer can do, one lemma an operation. Later proofs use these case lemmas
and do not unfold the operations.

* `insert_cases`, `insertCoded_cases`, `compact_cases`, `remove_cases`, `modify_cases`: every
  outcome with its condition. A refused operation returns the swept buffer.
* `MadeRoom b room`: what `makeRoom` does; it never fails, since a full buffer is not empty.
  `GaveUp` is the eviction of one entry that a full buffer goes through.
* `find?_updateFirst`: a change of one packet is seen under its number and nowhere else.
  `updateFirst_updateFirst`: two changes of one packet are one change.
-/

namespace OppNet

/-- A change that keeps the numbers moves no number to another side. -/
theorem CodedPair.liveSide?_setHalf {c : CodedPair} {s : Side} {p : Packet}
    (h : p.id = (c.half s).id) (x : PacketId) : (c.setHalf s p).liveSide? x = c.liveSide? x := by
  have hside : (c.setHalf s p).sideOf? x = c.sideOf? x := by
    cases s with
    | first =>
      change p.id = c.first.id at h
      unfold CodedPair.sideOf? CodedPair.setHalf
      simp only
      rw [h]
    | second =>
      change p.id = c.second.id at h
      unfold CodedPair.sideOf? CodedPair.setHalf
      simp only
      rw [h]
  have hlive : (c.setHalf s p).isLive = c.isLive := by
    cases s <;> rfl
  unfold CodedPair.liveSide?
  rw [hside, hlive]

namespace Entry

/-- An entry answers with the changed packet under its number, and as before under any other. -/
theorem find?_of_update? {e e' : Entry} {id : PacketId} {f : Packet → Packet}
    (hf : ∀ p, e.find? id = some p → (f p).id = id) (h : e.update? id f = some e')
    (x : PacketId) : e'.find? x = if x = id then (e.find? id).map f else e.find? x := by
  cases e with
  | single p =>
    simp only [update?] at h
    split at h
    · rename_i hid
      cases h
      have hfp : (f p).id = id := hf p (by simp [hid])
      by_cases hx : x = id
      · simp [hx, hfp, hid]
      · simp [hx, hfp, hid, Ne.symm hx]
    · cases h
  | coded c =>
    obtain ⟨s, hs, rfl⟩ := Option.map_eq_some_iff.mp h
    have hid : (f (c.half s)).id = (c.half s).id := by
      rw [hf (c.half s) (by simp [find?, hs]), (CodedPair.liveSide?_eq_some hs).1]
    simp only [find?, CodedPair.liveSide?_setHalf hid]
    by_cases hx : x = id
    · subst hx
      rw [if_pos rfl, hs]
      cases s <;> rfl
    · rw [if_neg hx]
      cases ht : c.liveSide? x with
      | none => rfl
      | some t =>
        have hne : t ≠ s := by
          rintro rfl
          have hid := (CodedPair.liveSide?_eq_some ht).1
          exact hx (hid.symm.trans (CodedPair.liveSide?_eq_some hs).1)
        cases s <;> cases t <;> first | rfl | exact absurd rfl hne

theorem update?_of_update? {e e' : Entry} {id : PacketId} (f : Packet → Packet)
    {g : Packet → Packet} (hg : ∀ p, e.find? id = some p → (g p).id = id)
    (h : e.update? id g = some e') : e'.update? id f = e.update? id fun p => f (g p) := by
  cases e with
  | single p =>
    simp only [update?] at h
    split at h
    · rename_i hid
      cases h
      have hgp : (g p).id = id := hg p (by simp [hid])
      simp [update?, hid, hgp]
    · cases h
  | coded c =>
    obtain ⟨s, hs, rfl⟩ := Option.map_eq_some_iff.mp h
    have hid : (g (c.half s)).id = (c.half s).id := by
      rw [hg (c.half s) (by simp [find?, hs]), (CodedPair.liveSide?_eq_some hs).1]
    simp only [update?, CodedPair.liveSide?_setHalf hid, hs]
    cases s <;> rfl

theorem update?_eq_none {e : Entry} {id : PacketId} (f : Packet → Packet)
    (h : e.find? id = none) : e.update? id f = none := by
  have hs := update?_isSome e id f
  rw [h] at hs
  exact Option.isNone_iff_eq_none.mp (Option.isSome_eq_false_iff.mp hs)

theorem find?_of_update?_eq_none {e : Entry} {id : PacketId} {f : Packet → Packet}
    (h : e.update? id f = none) : e.find? id = none := by
  have hs := update?_isSome e id f
  rw [h] at hs
  exact Option.isSome_eq_false_iff.mp hs.symm |> Option.isNone_iff_eq_none.mp

end Entry

namespace Buffer

variable {now : Time}

@[simp] theorem entries_note (d : Deed) (b : Buffer) : (b.note now d).entries = b.entries := rfl

@[simp] theorem entries_append (e : Entry) (d : Deed) (b : Buffer) :
    (b.append now e d).entries = b.entries ++ [e] := rfl

/-! ### Making room -/

/-- The entry at index `i` was the policy's choice, and was given up and booked as dropped. -/
structure GaveUp (i : Nat) (victim : Entry) (b room : Buffer) : Prop where
  choice : b.eviction.victimIndex? b.entries = some i
  found : b.entries[i]? = some victim
  entries : room.entries = b.entries.eraseIdx i
  dropped : room.counters.dropped = b.counters.dropped + 1
  evictions : room.evictions = b.evictions.add victim
  history : ∃ r : Record, r.kind = .dropped ∧ room.history = b.history.map (History.push r)

/-- One entry was evicted from a full buffer; a buffer that is not full is as it was. -/
structure MadeRoom (b room : Buffer) : Prop where
  sublist : room.entries.Sublist b.entries
  capacity : room.capacity = b.capacity
  lifetime : room.lifetime = b.lifetime
  eviction : room.eviction = b.eviction
  inserted : room.counters.inserted = b.counters.inserted
  expired : room.counters.expired = b.counters.expired
  removed : room.counters.removed = b.counters.removed
  size : room.size + room.counters.dropped = b.size + b.counters.dropped
  evicted : b.isFull = true → ∃ i victim, GaveUp i victim b room
  kept : b.isFull = false → room = b

theorem makeRoom_eq_ok {b room : Buffer} (h : b.makeRoom now = .ok room) : MadeRoom b room := by
  unfold makeRoom at h
  split at h
  · rename_i hfull
    split at h
    · cases h
    · rename_i victim rest hv
      cases h
      have hlen := EvictionPolicy.length_evict hv
      refine ⟨EvictionPolicy.evict_sublist hv, rfl, rfl, rfl, rfl, rfl, rfl, ?_, ?_, ?_⟩
      · simp only [Buffer.size, note, record]; omega
      · intro _
        obtain ⟨i, hi, hvictim, hrest⟩ := EvictionPolicy.evict_eq_ok hv
        exact ⟨i, victim, hi, hvictim, hrest, rfl, rfl, _, rfl, rfl⟩
      · intro hnot; rw [hfull] at hnot; cases hnot
  · rename_i hfree
    cases h
    exact ⟨.refl _, rfl, rfl, rfl, rfl, rfl, rfl, rfl, fun hfull => absurd hfull hfree,
      fun _ => rfl⟩

theorem entries_ne_nil_of_isFull {b : Buffer} (h : b.isFull = true) : b.entries ≠ [] := by
  intro hn
  simp only [isFull, size, hn, Bool.and_eq_true, decide_eq_true_eq, List.length_nil] at h
  omega

/-- Room can always be made: a full buffer has an entry to give up. -/
theorem exists_makeRoom (now : Time) (b : Buffer) : ∃ room, b.makeRoom now = .ok room := by
  unfold makeRoom
  split
  · rename_i hfull
    obtain ⟨victim, rest, hv⟩ := b.eviction.evict_of_ne_nil (entries_ne_nil_of_isFull hfull)
    exact ⟨_, by rw [hv]⟩
  · exact ⟨b, rfl⟩

theorem place_eq (now : Time) (e : Entry) (d : Deed) (b : Buffer) :
    ∃ room, MadeRoom b room ∧ b.place now e d = (.ok (), room.append now e d) := by
  obtain ⟨room, h⟩ := exists_makeRoom now b
  exact ⟨room, makeRoom_eq_ok h, by rw [place, h]⟩

/-! ### Every outcome of every operation -/

theorem insert_cases (now : Time) (p : Packet) (b : Buffer) :
    ((b.sweep now).holds p.id = true ∧
      b.insert now p = (.error (.duplicatePacket p.id), b.sweep now)) ∨
    ((b.sweep now).holds p.id = false ∧ ∃ room, MadeRoom (b.sweep now) room ∧
      b.insert now p = (.ok (), room.append now (.single { p with inserted := now })
        (.inserted p.id p.source p.destination p.hops))) := by
  unfold insert
  cases h : (b.sweep now).holds p.id with
  | true => exact .inl ⟨rfl, by simp only [h, if_true]⟩
  | false =>
    obtain ⟨room, hr, he⟩ := place_eq now (.single { p with inserted := now })
      (.inserted p.id p.source p.destination p.hops) (b.sweep now)
    exact .inr ⟨rfl, room, hr, by simpa only [h, Bool.false_eq_true, if_false] using he⟩

/-- Why two packets that arrive as one payload can be refused. -/
def codedRefusals (p q : Packet) : List Fault :=
  [.invalidEncoding p.id q.id, .duplicateEncoding p.id q.id, .duplicatePacket p.id,
    .duplicatePacket q.id]

theorem insertCoded_cases (now : Time) (p q : Packet) (b : Buffer) :
    (∃ f ∈ codedRefusals p q, b.insertCoded now p q = (.error f, b.sweep now)) ∨
    (∃ c room, CodedPair.combine { p with inserted := now } { q with inserted := now } = .ok c ∧
      (∀ e ∈ (b.sweep now).entries, e.combines p.id q.id = false) ∧
      (b.sweep now).holds p.id = false ∧ (b.sweep now).holds q.id = false ∧
      MadeRoom (b.sweep now) room ∧
      b.insertCoded now p q = (.ok (), room.append now (.coded c) (.insertedCoded p.id q.id))) := by
  unfold insertCoded
  cases hc : CodedPair.combine { p with inserted := now } { q with inserted := now } with
  | error f =>
    have hf := CodedPair.combine_error hc
    exact .inl ⟨f, by simp [codedRefusals, hf], rfl⟩
  | ok c =>
    simp only
    split
    · exact .inl ⟨_, by simp [codedRefusals], rfl⟩
    · rename_i hnew
      cases hf : [p.id, q.id].find? ((b.sweep now).holds ·) with
      | some id =>
        refine .inl ⟨_, ?_, rfl⟩
        have hmem := List.mem_of_find?_eq_some hf
        simp only [List.mem_cons, List.not_mem_nil, or_false] at hmem
        rcases hmem with rfl | rfl <;> simp [codedRefusals]
      | none =>
        obtain ⟨room, hr, he⟩ := place_eq now (.coded c) (.insertedCoded p.id q.id) (b.sweep now)
        simp only [List.find?_eq_none, List.mem_cons, List.not_mem_nil, or_false,
          forall_eq_or_imp, forall_eq, Bool.not_eq_true] at hf
        simp only [List.any_eq_true, not_exists, not_and, Bool.not_eq_true] at hnew
        exact .inr ⟨c, room, rfl, hnew, hf.1, hf.2, hr, he⟩

theorem compact_cases (now : Time) (x y : PacketId) (b : Buffer) :
    (∃ f, b.compact now x y = (.error f, b.sweep now)) ∨
    (∃ p q c, (b.sweep now).findSingle? x = some p ∧ (b.sweep now).findSingle? y = some q ∧
      CodedPair.combine
        (p.mergedWith (Packet.mergeThresholds p.thresholds q.thresholds)
          (max p.replicas q.replicas))
        (q.mergedWith (Packet.mergeThresholds p.thresholds q.thresholds)
          (max p.replicas q.replicas)) = .ok c ∧
      b.compact now x y =
        (.ok (), { b.sweep now with
          entries := eraseSingle y (eraseSingle x (b.sweep now).entries) ++
            [Entry.coded c] }.note now (.encoded x y))) := by
  unfold compact
  cases hx : (b.sweep now).findSingle? x with
  | none => exact .inl ⟨.packetNotFound x, by simp only [hx]⟩
  | some p =>
    cases hy : (b.sweep now).findSingle? y with
    | none => exact .inl ⟨.packetNotFound y, by simp only [hx, hy]⟩
    | some q =>
      cases hc : CodedPair.combine
          (p.mergedWith (Packet.mergeThresholds p.thresholds q.thresholds)
            (max p.replicas q.replicas))
          (q.mergedWith (Packet.mergeThresholds p.thresholds q.thresholds)
            (max p.replicas q.replicas)) with
      | error f => exact .inl ⟨f, by simp only [hx, hy, hc]⟩
      | ok c => exact .inr ⟨p, q, c, rfl, rfl, hc, by simp only [hx, hy, hc]⟩

theorem remove_cases (now : Time) (id : PacketId) (b : Buffer) :
    ((b.sweep now).entryOf? id = none ∧ b.remove now id = (false, b.sweep now)) ∨
    (∃ e, (b.sweep now).entryOf? id = some e ∧ without? id e = none ∧
      b.remove now id =
        (true, { b.sweep now with
          entries := replaceFirst id none (b.sweep now).entries
          counters := { (b.sweep now).counters with
            removed := (b.sweep now).counters.removed + 1 } }.note now (.removed id))) ∨
    (∃ e e', (b.sweep now).entryOf? id = some e ∧ without? id e = some e' ∧
      b.remove now id =
        (true, { b.sweep now with
          entries := replaceFirst id (some e') (b.sweep now).entries }.note now
            (.removedHalf id))) := by
  unfold remove
  cases he : (b.sweep now).entryOf? id with
  | none => exact .inl ⟨rfl, by simp only [he]⟩
  | some e =>
    cases hw : without? id e with
    | none => exact .inr (.inl ⟨e, rfl, hw, by simp only [he, hw]⟩)
    | some e' => exact .inr (.inr ⟨e, e', rfl, hw, by simp only [he, hw]⟩)

theorem modify_cases {α : Type} (now : Time) (id : PacketId)
    (f : Packet → Except Fault (α × Packet)) (b : Buffer) :
    ((b.sweep now).find? id = none ∧
      b.modify now id f = (.error (.packetNotFound id), b.sweep now)) ∨
    (∃ p g, (b.sweep now).find? id = some p ∧ f p = .error g ∧
      b.modify now id f = (.error g, b.sweep now)) ∨
    (∃ p a p', (b.sweep now).find? id = some p ∧ f p = .ok (a, p') ∧
      b.modify now id f = (.ok a, { b.sweep now with
        entries := updateFirst id (fun _ => p') (b.sweep now).entries })) := by
  unfold modify
  cases hp : (b.sweep now).find? id with
  | none => exact .inl ⟨rfl, by simp only [hp]⟩
  | some p =>
    cases hf : f p with
    | error g => exact .inr (.inl ⟨p, g, rfl, hf, by simp only [hp, hf]⟩)
    | ok r => exact .inr (.inr ⟨p, r.1, r.2, rfl, hf, by simp only [hp, hf]⟩)

theorem modify_of_found {α : Type} {b : Buffer} {id : PacketId} {p p' : Packet} {a : α}
    {f : Packet → Except Fault (α × Packet)} (hp : (b.sweep now).find? id = some p)
    (hf : f p = .ok (a, p')) : b.modify now id f = (.ok a, { b.sweep now with
      entries := updateFirst id (fun _ => p') (b.sweep now).entries }) := by
  unfold modify
  simp only [hp, hf]

theorem modify_eq_sweep {α : Type} {now : Time} {id : PacketId}
    {f : Packet → Except Fault (α × Packet)} {b : Buffer} {fault : Fault}
    (h : (b.modify now id f).1 = .error fault) : (b.modify now id f).2 = b.sweep now := by
  rcases modify_cases now id f b with ⟨_, he⟩ | ⟨_, _, _, _, he⟩ | ⟨_, _, _, _, _, he⟩
  · rw [he]
  · rw [he]
  · rw [he] at h
    cases h

/-! ### Changing one packet -/

theorem length_updateFirst (id : PacketId) (f : Packet → Packet) (es : List Entry) :
    (updateFirst id f es).length = es.length := by
  induction es with
  | nil => rfl
  | cons e rest ih =>
    rw [updateFirst]
    split
    · rfl
    · simp [ih]

theorem find?_updateFirst {id : PacketId} {f : Packet → Packet} {es : List Entry}
    (hf : ∀ p, es.findSome? (Entry.find? id) = some p → (f p).id = id) (x : PacketId) :
    (updateFirst id f es).findSome? (Entry.find? x) =
      if x = id then (es.findSome? (Entry.find? id)).map f
      else es.findSome? (Entry.find? x) := by
  induction es with
  | nil => split <;> rfl
  | cons e rest ih =>
    rw [updateFirst]
    cases hu : e.update? id f with
    | some e' =>
      have hs : (e.find? id).isSome = true := by rw [← Entry.update?_isSome e id f, hu]; rfl
      obtain ⟨p, hp⟩ := Option.isSome_iff_exists.mp hs
      have he := Entry.find?_of_update? (fun q hq => hf q (by simp [hq])) hu x
      by_cases hx : x = id
      · rw [if_pos hx, hp, Option.map_some] at he
        simp only [List.findSome?_cons, he, hp, if_pos hx, Option.map_some]
      · rw [if_neg hx] at he
        simp only [List.findSome?_cons, he, if_neg hx]
    | none =>
      have hn := Entry.find?_of_update?_eq_none hu
      have hrest := ih fun p hp => hf p (by simp [hn, hp])
      by_cases hx : x = id
      · subst hx
        simpa only [List.findSome?_cons, hn, if_true] using hrest
      · simp only [List.findSome?_cons, hrest, hx, if_false]

theorem updateFirst_updateFirst {id : PacketId} {f g : Packet → Packet} {es : List Entry}
    (hg : ∀ p, es.findSome? (Entry.find? id) = some p → (g p).id = id) :
    updateFirst id f (updateFirst id g es) = updateFirst id (fun p => f (g p)) es := by
  induction es with
  | nil => rfl
  | cons e rest ih =>
    simp only [updateFirst]
    cases hu : e.update? id g with
    | some e' =>
      have htwice := Entry.update?_of_update? f (fun p hp => hg p (by simp [hp])) hu
      cases hu' : e.update? id fun p => f (g p) with
      | none =>
        rw [Entry.update?_eq_none g (Entry.find?_of_update?_eq_none hu')] at hu
        cases hu
      | some e'' =>
        rw [hu'] at htwice
        simp only [updateFirst, htwice]
    | none =>
      have hnone := Entry.find?_of_update?_eq_none hu
      simp only [updateFirst, Entry.update?_eq_none _ hnone,
        ih fun p hp => hg p (by simp [hnone, hp])]

end Buffer

end OppNet
