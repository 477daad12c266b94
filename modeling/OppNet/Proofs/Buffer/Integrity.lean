import OppNet.Buffer.Request
import OppNet.Proofs.Buffer.Update
import Mathlib.Data.List.Forall2

/-!
# OppNet.Proofs.Buffer.Integrity

What holds of the entries of a buffer after any sequence of requests, refused ones included.

* `Integrity es`: no packet is live twice, every coded pair is two packets crossing each other with
  one of them live, and no two pairs combine the same two packets.
* `Remains es' es`: the entries `es'` are what is left of some of the entries `es`, in order.
  Integrity survives every such loss (`Integrity.of_remains`), so an operation needs an argument of
  its own only for an entry that it adds (`Integrity.concat`).
* `integrity_run`: integrity of every buffer that requests can build.
-/

namespace OppNet.Buffer

/-- The entries of a buffer fit together. -/
structure Integrity (es : List Entry) : Prop where
  /-- No packet is live in two entries, nor twice in one. -/
  distinct : (es.flatMap Entry.liveIds).Nodup
  /-- The halves of a pair are two packets that cross each other. -/
  crossed : ∀ c, Entry.coded c ∈ es → c.first.id ≠ c.second.id ∧
    c.first.source = c.second.destination ∧ c.second.source = c.first.destination
  /-- Of every pair a packet is live. -/
  inhabited : ∀ c, Entry.coded c ∈ es → ∃ p ∈ c.livePackets, p = c.first ∨ p = c.second
  /-- No two pairs combine the same two packets. -/
  unique : es.Pairwise fun e f => ∀ x y, e.combines x y = true → f.combines x y = false

/-- Some of the entries, in order, each with at most a half lost. -/
abbrev Remains (es' es : List Entry) : Prop := List.SublistForall₂ Entry.PartOf es' es

instance : Std.Refl Entry.PartOf := ⟨Entry.PartOf.refl⟩

namespace Remains

theorem refl (es : List Entry) : Remains es es := Std.Refl.refl es

theorem of_sublist {es' es : List Entry} (h : es'.Sublist es) : Remains es' es :=
  h.sublistForall₂

theorem exists_partOf {es' es : List Entry} (h : Remains es' es) {e' : Entry} (he : e' ∈ es') :
    ∃ e ∈ es, e'.PartOf e := by
  induction h with
  | nil => cases he
  | cons hp _ ih =>
    rcases List.mem_cons.mp he with rfl | he
    · exact ⟨_, List.mem_cons_self, hp⟩
    · obtain ⟨e, hm, hp'⟩ := ih he
      exact ⟨e, List.mem_cons_of_mem _ hm, hp'⟩
  | cons_right _ ih =>
    obtain ⟨e, hm, hp⟩ := ih he
    exact ⟨e, List.mem_cons_of_mem _ hm, hp⟩

theorem liveIds_sublist {es' es : List Entry} (h : Remains es' es) :
    (es'.flatMap Entry.liveIds).Sublist (es.flatMap Entry.liveIds) := by
  induction h with
  | nil => exact List.nil_sublist _
  | cons hp _ ih =>
    rw [List.flatMap_cons, List.flatMap_cons]
    exact hp.liveIds_sublist.append ih
  | cons_right _ ih =>
    rw [List.flatMap_cons]
    exact ih.trans (List.sublist_append_right _ _)

/-- A loss keeps a relation between any two entries that only looks at what they combine. -/
theorem pairwise {es' es : List Entry} (h : Remains es' es)
    (hp : es.Pairwise fun e f => ∀ x y, e.combines x y = true → f.combines x y = false) :
    es'.Pairwise fun e f => ∀ x y, e.combines x y = true → f.combines x y = false := by
  induction h with
  | nil => exact .nil
  | cons hpart htail ih =>
    rw [List.pairwise_cons] at hp ⊢
    refine ⟨fun f' hf' x y hxy => ?_, ih hp.2⟩
    obtain ⟨f, hf, hpf⟩ := exists_partOf htail hf'
    rw [hpart.combines_eq] at hxy
    rw [hpf.combines_eq]
    exact hp.1 f hf x y hxy
  | cons_right _ ih => exact ih (List.pairwise_cons.mp hp).2

end Remains

/-- Where the halves of every pair can be told apart, `holds` says whether a packet is live. -/
theorem holds_iff_mem_liveIds {b : Buffer} (h : ∀ e ∈ b.entries, e.Crossed) {id : PacketId} :
    b.holds id = true ↔ id ∈ b.liveIds := by
  simp only [holds, liveIds, List.any_eq_true, List.mem_flatMap]
  constructor
  · rintro ⟨e, he, hid⟩
    exact ⟨e, he, (Entry.mem_liveIds_iff_holds (h e he)).mpr hid⟩
  · rintro ⟨e, he, hid⟩
    exact ⟨e, he, (Entry.mem_liveIds_iff_holds (h e he)).mp hid⟩

namespace Integrity

variable {es es' : List Entry}

theorem crossed_entry (h : Integrity es) {e : Entry} (he : e ∈ es) : e.Crossed := by
  cases e with
  | single p => trivial
  | coded c => exact h.crossed c he

theorem of_crossed (distinct : (es.flatMap Entry.liveIds).Nodup) (crossed : ∀ e ∈ es, e.Crossed)
    (unique : es.Pairwise fun e f => ∀ x y, e.combines x y = true → f.combines x y = false) :
    Integrity es where
  distinct := distinct
  crossed c hc := crossed _ hc
  inhabited c _ := by
    obtain ⟨p, hp⟩ := List.exists_mem_of_ne_nil _ c.livePackets_ne_nil
    obtain ⟨s, _, rfl⟩ := CodedPair.mem_livePackets.mp hp
    refine ⟨_, hp, ?_⟩
    cases s with
    | first => exact .inl rfl
    | second => exact .inr rfl
  unique := unique

theorem of_remains (h : Integrity es) (hr : Remains es' es) : Integrity es' := by
  refine of_crossed (h.distinct.sublist hr.liveIds_sublist) ?_ (hr.pairwise h.unique)
  intro e' he'
  obtain ⟨e, he, hp⟩ := hr.exists_partOf he'
  exact hp.crossed (h.crossed_entry he)

/-- A pair with both packets live combines nothing that an entry without them does. -/
theorem combines_eq_false {e f : Entry}
    (hall : ∀ x y, e.combines x y = true → x ∈ e.liveIds ∧ y ∈ e.liveIds)
    (hnew : ∀ x ∈ e.liveIds, x ∉ f.liveIds) {x y : PacketId} (hf : f.combines x y = true) :
    e.combines x y = false := by
  refine Bool.eq_false_iff.mpr fun he => ?_
  obtain ⟨hx, hy⟩ := hall x y he
  rcases Entry.combines_live hf with hl | hl
  · exact hnew x hx hl
  · exact hnew y hy hl

theorem concat (h : Integrity es) {e : Entry} (he : e.Crossed)
    (hall : ∀ x y, e.combines x y = true → x ∈ e.liveIds ∧ y ∈ e.liveIds)
    (hnew : ∀ x ∈ e.liveIds, x ∉ es.flatMap Entry.liveIds) : Integrity (es ++ [e]) := by
  refine of_crossed ?_ ?_ ?_
  · rw [List.flatMap_append, List.flatMap_singleton, List.nodup_append]
    refine ⟨h.distinct, e.liveIds_nodup he, ?_⟩
    intro x hx y hy hxy
    exact hnew y hy (hxy ▸ hx)
  · intro f hf
    rcases List.mem_append.mp hf with hf | hf
    · exact h.crossed_entry hf
    · rw [List.mem_singleton.mp hf]; exact he
  · rw [List.pairwise_append]
    refine ⟨h.unique, List.pairwise_singleton _ _, ?_⟩
    intro f hf g hg x y hxy
    rw [List.mem_singleton.mp hg]
    exact combines_eq_false hall
      (fun z hz hzf => hnew z hz (List.mem_flatMap.mpr ⟨f, hf, hzf⟩)) hxy

theorem concat_single (h : Integrity es) {p : Packet} (hnew : p.id ∉ es.flatMap Entry.liveIds) :
    Integrity (es ++ [.single p]) := by
  refine h.concat trivial (fun _ _ hc => by cases hc) ?_
  intro x hx
  rw [Entry.liveIds_single, List.mem_singleton] at hx
  rw [hx]
  exact hnew

theorem concat_coded (h : Integrity es) {p q : Packet} {c : CodedPair}
    (hc : CodedPair.combine p q = .ok c) (hp : p.id ∉ es.flatMap Entry.liveIds)
    (hq : q.id ∉ es.flatMap Entry.liveIds) : Integrity (es ++ [.coded c]) := by
  obtain ⟨rfl, hcross⟩ := CodedPair.combine_ok hc
  have hids : (Entry.coded ⟨p, q, none⟩).liveIds = [p.id, q.id] := rfl
  refine h.concat hcross ?_ ?_
  · intro x y hxy
    simp only [Entry.combines, CodedPair.combines, Bool.or_eq_true, Bool.and_eq_true,
      beq_iff_eq] at hxy
    rw [hids]
    rcases hxy with ⟨rfl, rfl⟩ | ⟨rfl, rfl⟩ <;> simp
  · intro x hx
    rw [hids, List.mem_cons, List.mem_singleton] at hx
    rcases hx with rfl | rfl
    · exact hp
    · exact hq

theorem not_mem_liveIds_of_holds {b : Buffer} (h : Integrity b.entries) {id : PacketId}
    (hnot : b.holds id = false) : id ∉ b.liveIds := by
  intro hl
  rw [(holds_iff_mem_liveIds fun _ he => h.crossed_entry he).mpr hl] at hnot
  cases hnot

end Integrity

/-! ### What the operations leave -/

namespace Remains

theorem filterMap {f : Entry → Option Entry} (hf : ∀ e e', f e = some e' → e'.PartOf e)
    (es : List Entry) : Remains (es.filterMap f) es := by
  induction es with
  | nil => exact .nil
  | cons e rest ih =>
    rw [List.filterMap_cons]
    cases he : f e with
    | none => exact .cons_right ih
    | some e' => exact .cons (hf e e' he) ih

theorem sweep (now : Time) (b : Buffer) : Remains (b.sweep now).entries b.entries := by
  rw [entries_sweep]
  exact filterMap (fun _ _ => Entry.partOf_of_surviving?) b.entries

theorem replaceFirst {id : PacketId} {o : Option Entry} {es : List Entry}
    (ho : ∀ e, es.find? (Entry.holds id) = some e → ∀ e', o = some e' → e'.PartOf e) :
    Remains (replaceFirst id o es) es := by
  induction es with
  | nil => exact .nil
  | cons e rest ih =>
    rw [Buffer.replaceFirst]
    cases he : e.holds id with
    | true =>
      rw [if_pos rfl]
      have hpart := ho e (List.find?_cons_of_pos he)
      cases o with
      | none => exact .cons_right (refl rest)
      | some e' => exact .cons (hpart e' rfl) (refl rest)
    | false =>
      rw [if_neg (by simp)]
      refine .cons (.refl e) (ih fun e' he' => ho e' ?_)
      rw [List.find?_cons_of_neg (by simp [he]), he']

theorem updateFirst {id : PacketId} {f : Packet → Packet} {es : List Entry}
    (hf : ∀ p, es.findSome? (Entry.find? id) = some p → (f p).route = p.route) :
    Remains (updateFirst id f es) es := by
  induction es with
  | nil => exact .nil
  | cons e rest ih =>
    rw [Buffer.updateFirst]
    cases hu : e.update? id f with
    | some e' =>
      exact .cons (Entry.partOf_of_update? (fun p hp => hf p (by simp [hp])) hu) (refl rest)
    | none =>
      refine .cons (.refl e) (ih fun p hp => hf p ?_)
      simp [Entry.find?_of_update?_eq_none hu, hp]

theorem eraseSingle (id : PacketId) (es : List Entry) : Remains (eraseSingle id es) es :=
  of_sublist List.eraseP_sublist

end Remains

/-! ### Where a packet of its own is found -/

theorem single?_eq_some {e : Entry} {id : PacketId} {p : Packet} (h : e.single? id = some p) :
    p.id = id ∧ e = .single p := by
  cases e with
  | single q =>
    simp only [Entry.single?] at h
    split at h
    · cases h; exact ⟨by assumption, rfl⟩
    · cases h
  | coded c => cases h

theorem findSingle?_eq_some {b : Buffer} {id : PacketId} {p : Packet}
    (h : b.findSingle? id = some p) : p.id = id ∧ Entry.single p ∈ b.entries := by
  obtain ⟨e, he, hs⟩ := List.exists_of_findSome?_eq_some h
  obtain ⟨hid, rfl⟩ := single?_eq_some hs
  exact ⟨hid, he⟩

theorem not_mem_liveIds_eraseSingle {es : List Entry} (h : (es.flatMap Entry.liveIds).Nodup)
    {p : Packet} (hp : Entry.single p ∈ es) :
    p.id ∉ (eraseSingle p.id es).flatMap Entry.liveIds := by
  obtain ⟨e, before, after, _, he, rfl, herase⟩ :=
    List.exists_of_eraseP (p := fun e => (Entry.single? p.id e).isSome) hp (by simp [Entry.single?])
  obtain ⟨q, hq⟩ := Option.isSome_iff_exists.mp he
  obtain ⟨hid, rfl⟩ := single?_eq_some hq
  rw [eraseSingle, herase, List.flatMap_append]
  rw [List.flatMap_append, List.flatMap_cons, Entry.liveIds_single, hid,
    List.singleton_append] at h
  exact (List.nodup_cons.mp (List.perm_middle.nodup_iff.mp h)).1

theorem mem_eraseSingle_of_ne {es : List Entry} {p : Packet} {id : PacketId} (hne : p.id ≠ id)
    (hp : Entry.single p ∈ es) : Entry.single p ∈ eraseSingle id es :=
  (List.mem_eraseP_of_neg (by simp [Entry.single?, hne])).mpr hp

theorem not_mem_liveIds_eraseSingle_pair {es : List Entry} (h : (es.flatMap Entry.liveIds).Nodup)
    {p q : Packet} (hp : Entry.single p ∈ es) (hq : Entry.single q ∈ es) (hne : q.id ≠ p.id) :
    p.id ∉ (eraseSingle q.id (eraseSingle p.id es)).flatMap Entry.liveIds ∧
      q.id ∉ (eraseSingle q.id (eraseSingle p.id es)).flatMap Entry.liveIds := by
  have hfirst := (Remains.eraseSingle p.id es).liveIds_sublist
  have hsecond := (Remains.eraseSingle q.id (Buffer.eraseSingle p.id es)).liveIds_sublist
  exact ⟨fun hl => not_mem_liveIds_eraseSingle h hp (hsecond.subset hl),
    not_mem_liveIds_eraseSingle (h.sublist hfirst) (mem_eraseSingle_of_ne hne hq)⟩

/-! ### Operations without a new entry -/

theorem remains_remove (now : Time) (id : PacketId) (b : Buffer) :
    Remains (b.remove now id).2.entries (b.sweep now).entries := by
  rcases remove_cases now id b with ⟨_, he⟩ | ⟨e, _, _, he⟩ | ⟨e, e', hfind, hw, he⟩
  · rw [he]
    exact .refl _
  · rw [he]
    exact .replaceFirst fun _ _ _ hn => by cases hn
  · rw [he]
    refine .replaceFirst fun f hf f' hf' => ?_
    obtain rfl : e = f := Option.some_inj.mp (hfind.symm.trans hf)
    cases hf'
    cases e with
    | single p => cases hw
    | coded c =>
      obtain ⟨c', hc', rfl⟩ := Option.map_eq_some_iff.mp hw
      exact Entry.partOf_of_deleteHalf? hc'

theorem remains_modify {α : Type} (now : Time) (id : PacketId)
    {f : Packet → Except Fault (α × Packet)}
    (hf : ∀ p a p', f p = .ok (a, p') → p'.route = p.route) (b : Buffer) :
    Remains (b.modify now id f).2.entries (b.sweep now).entries := by
  rcases modify_cases now id f b with ⟨_, he⟩ | ⟨_, _, _, _, he⟩ | ⟨p, a, p', hp, hfp, he⟩
  · rw [he]
    exact .refl _
  · rw [he]
    exact .refl _
  · rw [he]
    refine .updateFirst fun q hq => ?_
    obtain rfl : p = q := Option.some_inj.mp (hp.symm.trans hq)
    exact hf p a p' hfp

def Request.isAddition : Request → Bool
  | .insert _ | .insertCoded _ _ | .compact _ _ => true
  | _ => false

theorem remains_perform (now : Time) (b : Buffer) {r : Request} (hr : r.isAddition = false) :
    Remains (b.perform now r).2.entries (b.sweep now).entries := by
  cases r with
  | insert p => cases hr
  | insertCoded p q => cases hr
  | compact x y => cases hr
  | remove id => exact remains_remove now id b
  | removeExpired => exact .refl _
  | setReplicas id n => exact remains_modify now id (fun _ _ _ hf => by cases hf; rfl) b
  | splitReplicas id give =>
    refine remains_modify now id (fun p a p' hf => ?_) b
    split at hf
    · cases hf
    · cases hf
      rfl
  | updateThreshold id metric value =>
    refine remains_modify now id (fun p a p' hf => ?_) b
    cases hf
    unfold Packet.raiseThreshold
    simp only
    split <;> rfl
  | markForwarded id => exact remains_modify now id (fun _ _ _ hf => by cases hf; rfl) b
  | addForwarder id n => exact remains_modify now id (fun _ _ _ hf => by cases hf; rfl) b
  | addPreviousHop id n => exact remains_modify now id (fun _ _ _ hf => by cases hf; rfl) b
  | ask q => exact .refl _

/-! ### Integrity of every operation -/

section

variable {b : Buffer} (h : Integrity b.entries) (now : Time)
include h

theorem integrity_sweep : Integrity (b.sweep now).entries := h.of_remains (.sweep now b)

theorem integrity_insert (p : Packet) : Integrity (b.insert now p).2.entries := by
  have hs := integrity_sweep h now
  rcases insert_cases now p b with ⟨_, he⟩ | ⟨hnot, room, hr, he⟩
  · rw [he]; exact hs
  · rw [he, entries_append]
    have hroom := Remains.of_sublist hr.sublist
    exact (hs.of_remains hroom).concat_single fun hl =>
      hs.not_mem_liveIds_of_holds hnot (hroom.liveIds_sublist.subset hl)

theorem integrity_insertCoded (p q : Packet) : Integrity (b.insertCoded now p q).2.entries := by
  have hs := integrity_sweep h now
  rcases insertCoded_cases now p q b with ⟨f, _, he⟩ | ⟨c, room, hc, _, hp, hq, hr, he⟩
  · rw [he]; exact hs
  · rw [he, entries_append]
    have hroom := Remains.of_sublist hr.sublist
    have hnew : ∀ id, (b.sweep now).holds id = false → id ∉ room.entries.flatMap Entry.liveIds :=
      fun _ hnot hl => hs.not_mem_liveIds_of_holds hnot (hroom.liveIds_sublist.subset hl)
    exact (hs.of_remains hroom).concat_coded hc (hnew p.id hp) (hnew q.id hq)

/-- Nothing checks that the pair is new, and nothing has to: an older pair of the same packets
would have one of them live, next to its own entry. -/
theorem integrity_compact (x y : PacketId) : Integrity (b.compact now x y).2.entries := by
  have hs := integrity_sweep h now
  rcases compact_cases now x y b with ⟨f, he⟩ | ⟨p, q, c, hp, hq, hc, he⟩
  · rw [he]; exact hs
  · rw [he, entries_note]
    obtain ⟨rfl, hpmem⟩ := findSingle?_eq_some hp
    obtain ⟨rfl, hqmem⟩ := findSingle?_eq_some hq
    have hne : q.id ≠ p.id := by
      obtain ⟨rfl, hcross⟩ := CodedPair.combine_ok hc
      exact hcross.1.symm
    have hrest := Remains.eraseSingle q.id (eraseSingle p.id (b.sweep now).entries)
    obtain ⟨hpnew, hqnew⟩ := not_mem_liveIds_eraseSingle_pair hs.distinct hpmem hqmem hne
    exact ((hs.of_remains (.eraseSingle p.id _)).of_remains hrest).concat_coded hc hpnew hqnew

theorem integrity_perform (r : Request) : Integrity (b.perform now r).2.entries := by
  have hs := integrity_sweep h now
  cases r with
  | insert p => exact integrity_insert h now p
  | insertCoded p q => exact integrity_insertCoded h now p q
  | compact x y => exact integrity_compact h now x y
  | _ => exact hs.of_remains (remains_perform now b rfl)

end

theorem integrity_run_of (rs : List (Time × Request)) (b : Buffer) (h : Integrity b.entries) :
    Integrity (b.run rs).entries := by
  induction rs generalizing b with
  | nil => exact h
  | cons r rest ih => exact ih _ (integrity_perform h r.1 r.2)

/-- The entries of every buffer fit together, whatever was asked of it and at whatever times. -/
theorem integrity_run (capacity : Nat) (lifetime : TimeSpan) (eviction : EvictionPolicy)
    (recording : Bool) (rs : List (Time × Request)) :
    Integrity ((Buffer.new capacity lifetime eviction recording).run rs).entries := by
  refine integrity_run_of rs _ ⟨?_, ?_, ?_, ?_⟩ <;> simp [Buffer.new]

end OppNet.Buffer
