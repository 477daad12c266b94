import OppNet.Proofs.Buffer.Custody

/-!
# OppNet.Proofs.Buffer.Contents

Where the live packets of a buffer come from: each one was there before the operation as it is now,
or is what the operation was given, or is a packet that the operation changed.
-/

namespace OppNet

namespace Entry

variable {e e' : Entry} {id : PacketId} {p : Packet}

theorem mem_livePackets_of_update? {f : Packet → Packet} (h : e.update? id f = some e')
    (hp : p ∈ e'.livePackets) : p ∈ e.livePackets ∨ ∃ q, e.find? id = some q ∧ p = f q := by
  cases e with
  | single q =>
    simp only [update?] at h
    split at h
    · rename_i hid
      cases h
      exact .inr ⟨q, by simp [hid], List.mem_singleton.mp hp⟩
    · cases h
  | coded c =>
    obtain ⟨s, hs, rfl⟩ := Option.map_eq_some_iff.mp h
    obtain ⟨t, hlive, rfl⟩ := CodedPair.mem_livePackets.mp hp
    by_cases hts : t = s
    · subst hts
      refine .inr ⟨c.half t, by simp [find?, hs], ?_⟩
      cases t <;> rfl
    · have hhalf : (c.setHalf s (f (c.half s))).half t = c.half t := by
        cases s <;> cases t <;> first | rfl | exact absurd rfl hts
      have hlive' : c.isLive t = true := by
        cases s <;> exact hlive
      rw [hhalf]
      exact .inl (CodedPair.half_mem_livePackets hlive')

/-- What is left of a pair is one of its halves. -/
theorem mem_livePackets_of_without? (h : Buffer.without? id e = some e') (hp : p ∈ e'.livePackets) :
    p ∈ e.livePackets := by
  cases e with
  | single q => cases h
  | coded c =>
    obtain ⟨c', hc', rfl⟩ := Option.map_eq_some_iff.mp h
    cases hs : c.survivor with
    | some left => simp [CodedPair.deleteHalf?, hs] at hc'
    | none =>
      simp only [CodedPair.deleteHalf?, hs] at hc'
      obtain ⟨s, _, rfl⟩ := Option.map_eq_some_iff.mp hc'
      obtain rfl := List.mem_singleton.mp hp
      exact CodedPair.half_mem_livePackets (by simp [CodedPair.isLive, hs])

end Entry

namespace Buffer

variable {now : Time} {b : Buffer} {id : PacketId} {p : Packet}

theorem mem_livePackets_updateFirst {f : Packet → Packet} {es : List Entry}
    (hp : p ∈ (updateFirst id f es).flatMap Entry.livePackets) :
    p ∈ es.flatMap Entry.livePackets ∨
      ∃ q, es.findSome? (Entry.find? id) = some q ∧ p = f q := by
  induction es with
  | nil => exact .inl hp
  | cons e rest ih =>
    rw [updateFirst] at hp
    cases hu : e.update? id f with
    | some e' =>
      simp only [hu, List.flatMap_cons, List.mem_append] at hp ⊢
      rcases hp with hp | hp
      · rcases Entry.mem_livePackets_of_update? hu hp with hp | ⟨q, hq, rfl⟩
        · exact .inl (.inl hp)
        · exact .inr ⟨q, by simp [hq], rfl⟩
      · exact .inl (.inr hp)
    | none =>
      simp only [hu, List.flatMap_cons, List.mem_append] at hp ⊢
      rcases hp with hp | hp
      · exact .inl (.inl hp)
      · rcases ih hp with hp | ⟨q, hq, rfl⟩
        · exact .inl (.inr hp)
        · exact .inr ⟨q, by simp [Entry.find?_of_update?_eq_none hu, hq], rfl⟩

theorem mem_livePackets_replaceFirst {o : Option Entry} {es : List Entry}
    (hp : p ∈ (replaceFirst id o es).flatMap Entry.livePackets) :
    p ∈ es.flatMap Entry.livePackets ∨ ∃ e, o = some e ∧ p ∈ e.livePackets := by
  induction es with
  | nil => exact .inl hp
  | cons e rest ih =>
    rw [replaceFirst] at hp
    split at hp
    · rw [List.flatMap_append, List.mem_append] at hp
      rcases hp with hp | hp
      · cases o with
        | none => cases hp
        | some e' => exact .inr ⟨e', rfl, by simpa using hp⟩
      · exact .inl (by simp [hp])
    · rw [List.flatMap_cons, List.mem_append] at hp ⊢
      rcases hp with hp | hp
      · exact .inl (.inl hp)
      · exact (ih hp).imp_left .inr

/-- What an entry brought in is in it, and anything else was there before. -/
theorem mem_livePackets_append {room : Buffer} {e : Entry} {d : Deed}
    (hroom : MadeRoom (b.sweep now) room) (hp : p ∈ (room.append now e d).livePackets) :
    p ∈ b.livePackets ∨ p ∈ e.livePackets := by
  rw [livePackets, entries_append, List.flatMap_append, List.mem_append] at hp
  rcases hp with hp | hp
  · obtain ⟨e', he', hpe⟩ := List.mem_flatMap.mp hp
    exact .inl (mem_of_mem_livePackets_sweep
      (List.mem_flatMap.mpr ⟨e', hroom.sublist.subset he', hpe⟩))
  · rw [List.flatMap_singleton] at hp
    exact .inr hp

theorem mem_livePackets_insert {q : Packet} (hp : p ∈ (b.insert now q).2.livePackets) :
    p ∈ b.livePackets ∨ (b.sweep now).holds q.id = false ∧ p = { q with inserted := now } := by
  rcases insert_cases now q b with ⟨_, he⟩ | ⟨hnew, room, hroom, he⟩
  · rw [he] at hp
    exact .inl (mem_of_mem_livePackets_sweep hp)
  · rw [he] at hp
    exact (mem_livePackets_append hroom hp).imp_right fun h => ⟨hnew, List.mem_singleton.mp h⟩

theorem mem_livePackets_insertCoded {q q' : Packet}
    (hp : p ∈ (b.insertCoded now q q').2.livePackets) :
    p ∈ b.livePackets ∨ ∃ r ∈ [q, q'], (b.sweep now).holds r.id = false ∧
      p = { r with inserted := now } := by
  rcases insertCoded_cases now q q' b with ⟨_, _, he⟩ | ⟨c, room, hc, _, hq, hq', hroom, he⟩
  · rw [he] at hp
    exact .inl (mem_of_mem_livePackets_sweep hp)
  · obtain ⟨rfl, _⟩ := CodedPair.combine_ok hc
    rw [he] at hp
    refine (mem_livePackets_append hroom hp).imp_right fun hpair => ?_
    rcases List.mem_cons.mp hpair with rfl | hpair
    · exact ⟨q, List.mem_cons_self, hq, rfl⟩
    · exact ⟨q', List.mem_cons_of_mem q (List.mem_singleton_self q'), hq',
        List.mem_singleton.mp hpair⟩

/-- Of two packets that are combined both get the merged thresholds, and no others do. -/
theorem mem_livePackets_compact (hb : Integrity b.entries) {x y : PacketId}
    (hp : p ∈ (b.compact now x y).2.livePackets) :
    p ∈ (b.sweep now).livePackets ∧ ((b.compact now x y).1 = .ok () → p.id ≠ x ∧ p.id ≠ y) ∨
      (b.compact now x y).1 = .ok () ∧ (p.id = x ∨ p.id = y) ∧
        ∃ q ∈ (b.sweep now).livePackets, ∃ q' ∈ (b.sweep now).livePackets, q.id = x ∧ q'.id = y ∧
          p.thresholds = Packet.mergeThresholds q.thresholds q'.thresholds := by
  rcases compact_cases now x y b with ⟨f, he⟩ | ⟨q, q', c, hq, hq', hc, he⟩
  · rw [he] at hp ⊢
    exact .inl ⟨hp, nofun⟩
  · obtain ⟨rfl, hqmem⟩ := findSingle?_eq_some hq
    obtain ⟨rfl, hqmem'⟩ := findSingle?_eq_some hq'
    obtain ⟨rfl, hcross⟩ := CodedPair.combine_ok hc
    rw [he] at hp ⊢
    rw [livePackets, entries_note, List.flatMap_append, List.mem_append] at hp
    rcases hp with hp | hp
    · obtain ⟨e, hmem, hpe⟩ := List.mem_flatMap.mp hp
      obtain ⟨hgone, hgone'⟩ := not_mem_liveIds_eraseSingle_pair
        (integrity_sweep hb now).distinct hqmem hqmem' hcross.1.symm
      have hlive : p.id ∈ (eraseSingle q'.id (eraseSingle q.id (b.sweep now).entries)).flatMap
          Entry.liveIds :=
        List.mem_flatMap.mpr ⟨e, hmem, List.mem_map_of_mem hpe⟩
      have hkept : e ∈ (b.sweep now).entries :=
        List.mem_of_mem_eraseP (List.mem_of_mem_eraseP hmem)
      exact .inl ⟨List.mem_flatMap.mpr ⟨e, hkept, hpe⟩, fun _ =>
        ⟨fun hid => hgone (hid ▸ hlive), fun hid => hgone' (hid ▸ hlive)⟩⟩
    · rw [List.flatMap_singleton] at hp
      have hsource : q ∈ (b.sweep now).livePackets :=
        List.mem_flatMap.mpr ⟨_, hqmem, List.mem_singleton_self q⟩
      have hsource' : q' ∈ (b.sweep now).livePackets :=
        List.mem_flatMap.mpr ⟨_, hqmem', List.mem_singleton_self q'⟩
      rcases List.mem_cons.mp hp with rfl | hp
      · exact .inr ⟨rfl, .inl rfl, q, hsource, q', hsource', rfl, rfl, rfl⟩
      · obtain rfl := List.mem_singleton.mp hp
        exact .inr ⟨rfl, .inr rfl, q, hsource, q', hsource', rfl, rfl, rfl⟩

theorem mem_livePackets_modify {α : Type} {f : Packet → Except Fault (α × Packet)}
    (hp : p ∈ (b.modify now id f).2.livePackets) :
    p ∈ b.livePackets ∨ ∃ q ∈ b.livePackets, q.id = id ∧ ∃ a, f q = .ok (a, p) := by
  rcases modify_cases now id f b with ⟨_, he⟩ | ⟨_, _, _, _, he⟩ | ⟨q, a, q', hq, hf, he⟩
  · rw [he] at hp
    exact .inl (mem_of_mem_livePackets_sweep hp)
  · rw [he] at hp
    exact .inl (mem_of_mem_livePackets_sweep hp)
  · rw [he] at hp
    rcases mem_livePackets_updateFirst hp with hp | ⟨_, _, rfl⟩
    · exact .inl (mem_of_mem_livePackets_sweep hp)
    · exact .inr ⟨q, mem_of_mem_livePackets_sweep (mem_livePackets_of_find? hq),
        (mem_liveIds_of_find? hq).1, a, hf⟩

/-- A packet that is changed twice at one time, with its notes taken in between, is changed once. -/
theorem mem_livePackets_modify_modify {f g : Packet → Packet} {notes : List Note}
    (hf : ∀ q, (f q).stamp = q.stamp) (hok : (b.modify now id fun q => .ok ((), f q)).1 = .ok ())
    (hp : p ∈ (({ (b.modify now id fun q => .ok ((), f q)).2 with notes := notes } : Buffer).modify
      now id fun q => .ok ((), g q)).2.livePackets) :
    p ∈ b.livePackets ∨ ∃ q ∈ b.livePackets, p = g (f q) := by
  rcases modify_cases now id (fun q => .ok ((), f q)) b with
    ⟨_, he⟩ | ⟨_, _, _, hrefused, _⟩ | ⟨q, _, _, hq, hfq, he⟩
  · rw [he] at hok
    cases hok
  · cases hrefused
  · cases hfq
    have hid : (f q).id = id :=
      (congrArg Prod.fst (hf q)).trans (mem_liveIds_of_find? hq).1
    rw [he] at hp
    -- What was changed is fresh, so the second change finds it where the first one has put it.
    have hfresh : (({ b.sweep now with
        entries := updateFirst id (fun _ => f q) (b.sweep now).entries,
        notes := notes } : Buffer).sweep now).entries =
        updateFirst id (fun _ => f q) (b.sweep now).entries := by
      rw [entries_sweep, ← entries_sweep now { b.sweep now with
        entries := updateFirst id (fun _ => f q) (b.sweep now).entries }, sweep_updateFirst]
      intro q' hq'
      rw [← Option.some_inj.mp (hq.symm.trans hq')]
      exact hf q
    rcases modify_cases now id (fun q => .ok ((), g q)) { b.sweep now with
        entries := updateFirst id (fun _ => f q) (b.sweep now).entries, notes := notes } with
      ⟨hnone, _⟩ | ⟨_, _, _, hrefused, _⟩ | ⟨q₁, _, _, hq₁, hg, he₁⟩
    · rw [find?, hfresh, find?_updateFirst (fun _ _ => hid), if_pos rfl, ← find?, hq] at hnone
      cases hnone
    · cases hrefused
    · cases hg
      rw [find?, hfresh, find?_updateFirst (fun _ _ => hid), if_pos rfl, ← find?, hq] at hq₁
      cases hq₁
      rw [he₁, livePackets, hfresh, updateFirst_updateFirst fun _ _ => hid] at hp
      rcases mem_livePackets_updateFirst hp with hp | ⟨_, _, rfl⟩
      · exact .inl (mem_of_mem_livePackets_sweep hp)
      · exact .inr ⟨q, mem_of_mem_livePackets_sweep (mem_livePackets_of_find? hq), rfl⟩

theorem mem_livePackets_remove (hp : p ∈ (b.remove now id).2.livePackets) :
    p ∈ b.livePackets := by
  refine mem_of_mem_livePackets_sweep (?_ : p ∈ (b.sweep now).livePackets)
  rcases remove_cases now id b with ⟨_, he⟩ | ⟨e, _, _, he⟩ | ⟨e, e', hfind, hw, he⟩
  · rw [he] at hp
    exact hp
  · rw [he] at hp
    rcases mem_livePackets_replaceFirst hp with hp | ⟨_, ho, _⟩
    · exact hp
    · cases ho
  · rw [he] at hp
    rcases mem_livePackets_replaceFirst hp with hp | ⟨_, ho, hp⟩
    · exact hp
    · cases ho
      exact List.mem_flatMap.mpr
        ⟨e, List.mem_of_find?_eq_some hfind, Entry.mem_livePackets_of_without? hw hp⟩

end Buffer

end OppNet
