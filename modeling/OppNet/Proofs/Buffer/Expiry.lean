import OppNet.Proofs.Buffer.Request
import OppNet.Proofs.Buffer.Views
import Mathlib.Data.List.Nodup

/-!
# OppNet.Proofs.Buffer.Expiry

Expiry is exact: what has outlived its lifetime is gone for every operation, and nothing else is.

* `Entry.Outlived old e e'`: what has become of an entry that is left, where `old` says which
  packets have expired. `Swept now b b'`: what has become of a whole buffer.
* `swept_sweep`: the sweep does exactly that.
* `perform_sweep`: every request works on the swept buffer.
* `perform_of_absent`, `mem_liveIds_of_shown`: a packet that is gone is not found by the requests
  that need it, and no answer shows it. `absent_of_expired`: an expired one is gone.
-/

namespace OppNet

/-- What has become of an entry that is left, once the packets in `old` have expired. -/
inductive Entry.Outlived (old : Packet → Bool) : Entry → Entry → Prop where
  /-- Nothing in it has expired. -/
  | whole {e : Entry} (fresh : ∀ p ∈ e.livePackets, old p = false) : Outlived old e e
  /-- One half of an intact pair expired alone, and is now the extra of the other one. -/
  | halved {c c' : CodedPair} {s : Side} (intact : c.survivor = none)
      (lost : old (c.half s) = true) (left : old (c.half s.other) = false)
      (first : c'.first = c.first) (second : c'.second = c.second)
      (extra : c'.extra? = some (c.half s).id) (rest : c'.livePackets = [c.half s.other]) :
      Outlived old (.coded c) (.coded c')

namespace Entry

variable {now : Time} {lifetime : TimeSpan} {e e' : Entry}

/-- The side that has expired alone is lost, and the pair mimics the other one. -/
theorem outlived_of_lost {old : Packet → Bool} {c : CodedPair} (s : Side)
    (intact : c.survivor = none) (lost : old (c.half s) = true)
    (left : old (c.half s.other) = false) :
    Outlived old (coded c) (coded { c with survivor := some s.other }) := by
  refine .halved intact lost left rfl rfl ?_ rfl
  cases s <;> rfl

theorem outlived_of_surviving? (h : e.surviving? now lifetime = some e') :
    Outlived (Packet.isExpired now lifetime) e e' := by
  have hlive := livePackets_surviving? now lifetime e
  rw [h, Option.map_some, Option.getD_some] at hlive
  cases e with
  | single p =>
    cases hp : p.isExpired now lifetime with
    | true => simp [surviving?, expire, hp] at h
    | false =>
      simp only [surviving?, expire, hp, Bool.false_eq_true, if_false, Option.some.injEq] at h
      subst h
      exact .whole (by simpa using hp)
  | coded c =>
    cases hs : c.survivor with
    | some left =>
      cases hl : (c.half left).isExpired now lifetime with
      | true => simp [surviving?, expire, hs, hl] at h
      | false =>
        simp only [surviving?, expire, hs, hl, Bool.false_eq_true, if_false,
          Option.some.injEq] at h
        subst h
        exact .whole (by simpa [livePackets, CodedPair.livePackets_of_survivor hs] using hl)
    | none =>
      cases hf : c.first.isExpired now lifetime <;> cases hl : c.second.isExpired now lifetime <;>
        simp only [surviving?, expire, hs, hf, hl, Option.some.injEq, reduceCtorEq] at h
      · subst h
        exact .whole (by simpa [livePackets, CodedPair.livePackets_of_intact hs] using ⟨hf, hl⟩)
      · subst h
        exact outlived_of_lost .second hs hl hf
      · subst h
        exact outlived_of_lost .first hs hf hl

theorem isSome_surviving? (now : Time) (lifetime : TimeSpan) (e : Entry) :
    (e.surviving? now lifetime).isSome = e.livePackets.any fun p => !p.isExpired now lifetime := by
  have hlive := livePackets_surviving? now lifetime e
  cases h : e.surviving? now lifetime with
  | none =>
    rw [h, Option.map_none, Option.getD_none] at hlive
    rw [Option.isSome_none, eq_comm, List.any_eq_false]
    exact List.filter_eq_nil_iff.mp hlive.symm
  | some e' =>
    rw [h, Option.map_some, Option.getD_some] at hlive
    obtain ⟨p, hp⟩ := List.exists_mem_of_ne_nil _ e'.livePackets_ne_nil
    rw [hlive, List.mem_filter] at hp
    rw [Option.isSome_some, eq_comm]
    exact List.any_eq_true.mpr ⟨p, hp⟩

theorem isGone_expire (now : Time) (lifetime : TimeSpan) (e : Entry) :
    (e.expire now lifetime).isGone = e.livePackets.all (Packet.isExpired now lifetime) := by
  have h := isSome_surviving? now lifetime e
  rw [← List.not_all_eq_any_not] at h
  rw [Bool.eq_iff_iff, ← surviving?_eq_none, ← Option.not_isSome_iff_eq_none, h]
  simp

end Entry

theorem forall₂_filterMap {α β : Type} {R : α → β → Prop} {f : α → Option β} {keep : α → Bool}
    (hsome : ∀ x, (f x).isSome = keep x) (hR : ∀ x y, f x = some y → R x y) (xs : List α) :
    List.Forall₂ R (xs.filter keep) (xs.filterMap f) := by
  induction xs with
  | nil => exact .nil
  | cons x rest ih =>
    rw [List.filter_cons, List.filterMap_cons, ← hsome x]
    cases h : f x with
    | none => simpa using ih
    | some y => simpa using List.Forall₂.cons (hR x y h) ih

namespace Buffer

variable {now : Time} {b : Buffer} {id : PacketId}

/-- `b'` is `b` without what has expired at `now`, and the books say so. -/
structure Swept (now : Time) (b b' : Buffer) : Prop where
  live : b'.livePackets = b.livePackets.filter fun p => !p.isExpired now b.lifetime
  entries : List.Forall₂ (Entry.Outlived (Packet.isExpired now b.lifetime))
    (b.entries.filter fun e => e.livePackets.any fun p => !p.isExpired now b.lifetime) b'.entries
  counters : b'.counters = { b.counters with
    expired := b.counters.expired +
      b.entries.countP fun e => e.livePackets.all (Packet.isExpired now b.lifetime) }
  evictions : b'.evictions = b.evictions
  capacity : b'.capacity = b.capacity
  lifetime : b'.lifetime = b.lifetime
  eviction : b'.eviction = b.eviction

/-- The entries that a sweep counts are those of which nothing is left. -/
theorem expired_sweep (now : Time) (b : Buffer) : (b.sweep now).counters.expired =
    b.counters.expired +
      b.entries.countP fun e => e.livePackets.all (Packet.isExpired now b.lifetime) := by
  rw [sweep_eq]
  refine (expired_foldl_settle _ b).trans ?_
  rw [List.countP_map]
  refine congrArg _ (List.countP_congr fun e _ => ?_)
  rw [Function.comp_apply, Entry.isGone_expire]

theorem expired_le_sweep (now : Time) (b : Buffer) :
    b.counters.expired ≤ (b.sweep now).counters.expired := by
  rw [expired_sweep]
  exact Nat.le_add_right _ _

theorem counters_sweep (now : Time) (b : Buffer) :
    (b.sweep now).counters = { b.counters with expired := (b.sweep now).counters.expired } := by
  simp only [← inserted_sweep now b, ← dropped_sweep now b, ← removed_sweep now b]

theorem swept_sweep (now : Time) (b : Buffer) : Swept now b (b.sweep now) where
  live := livePackets_sweep now b
  entries := by
    rw [entries_sweep]
    exact forall₂_filterMap (Entry.isSome_surviving? now b.lifetime)
      (fun _ _ => Entry.outlived_of_surviving?) b.entries
  counters := by
    rw [← expired_sweep]
    exact counters_sweep now b
  evictions := evictions_sweep now b
  capacity := capacity_sweep now b
  lifetime := lifetime_sweep now b
  eviction := eviction_sweep now b

theorem sweep_of_isZero (h : b.lifetime.isZero = true) (now : Time) : b.sweep now = b :=
  sweep_of_fresh fun e _ => e.expire_of_isZero h

/-! ### Requests and the sweep -/

/-- Every request works on the swept buffer; only the count of what expires is that of the sweep. -/
theorem perform_sweep {r : Request} (hr : r ≠ .removeExpired) (now : Time) (b : Buffer) :
    (b.sweep now).perform now r = b.perform now r := by
  cases r with
  | removeExpired => exact absurd rfl hr
  | insert p => simp only [perform, insert, sweep_sweep]
  | insertCoded p q => simp only [perform, insertCoded, sweep_sweep]
  | compact x y => simp only [perform, compact, sweep_sweep]
  | remove id => simp only [perform, remove, sweep_sweep]
  | setReplicas id n => simp only [perform, setReplicas, modify, sweep_sweep]
  | splitReplicas id give => simp only [perform, splitReplicas, modify, sweep_sweep]
  | updateThreshold id metric value => simp only [perform, updateThreshold, modify, sweep_sweep]
  | markForwarded id => simp only [perform, markForwarded, modify, sweep_sweep]
  | addForwarder id n => simp only [perform, addForwarder, modify, sweep_sweep]
  | addPreviousHop id n => simp only [perform, addPreviousHop, modify, sweep_sweep]
  | ask q => simp only [perform, sweep_sweep]

/-- The packet that a question is about, as far as it is one about a live packet. -/
def Query.subject? : Query → Option PacketId
  | .exists id | .isCoded id | .partner id | .packet id | .destination id | .source id
  | .creationTime id | .hops id | .previousHop id | .remainingLifetime id | .replicas id
  | .threshold id _ | .wasForwarded id | .forwardedTo id _ | .previousHops id | .position id
  | .distanceFromEnd id => some id
  | .existsAsExtra _ | .positions | .candidatesFor _ | .allDestinations | .allNative
  | .packetsFor _ | .entries | .size | .isEmpty | .isFull | .availableSpace => none

/-- The packets that a request needs to be live. -/
def Request.needs : Request → List PacketId
  | .insert _ | .insertCoded _ _ | .removeExpired => []
  | .compact x y => [x, y]
  | .remove id | .setReplicas id _ | .splitReplicas id _ | .updateThreshold id _ _
  | .markForwarded id | .addForwarder id _ | .addPreviousHop id _ => [id]
  | .ask q => q.subject?.toList

/-- How a request says that a packet is not there. -/
def Request.notFound (id : PacketId) : Request → Except Fault Answer
  | .remove _ | .ask (.exists _) => .ok (.flag false)
  | _ => .error (.packetNotFound id)

/-- Whether an answer shows the packet as a live one. -/
def Answer.shows (id : PacketId) : Answer → Bool
  | .packetIdOrNone other => other == some id
  | .packet p => p.id == id
  | .packetIds ids => ids.contains id
  | .places slots => slots.any (·.1 == id)
  | .entries es => es.any (·.liveIds.contains id)
  | .done | .flag _ | .count _ | .countOrNone _ | .level _ | .time _ | .spanOrNone _ | .node _
  | .nodeOrNone _ | .nodes _ => false

/-! ### What has expired -/

section Absent

variable (h : id ∉ b.liveIds)
include h

theorem find?_of_absent : b.find? id = none := by
  cases hf : b.find? id with
  | none => rfl
  | some p => exact absurd (mem_liveIds_of_find? hf).2 h

theorem holds_of_absent {e : Entry} (he : e ∈ b.entries) : e.holds id = false := by
  refine Bool.eq_false_iff.mpr fun hheld => h ?_
  obtain ⟨p, hp⟩ := Entry.holds_iff.mp hheld
  exact List.mem_flatMap.mpr ⟨e, he, Entry.mem_liveIds_of_find? hp⟩

theorem entryOf?_of_absent : b.entryOf? id = none := by
  rw [entryOf?, List.find?_eq_none]
  intro e he
  simp [holds_of_absent h he]

theorem findSingle?_of_absent : b.findSingle? id = none := by
  cases hf : b.findSingle? id with
  | none => rfl
  | some p =>
    obtain ⟨rfl, hmem⟩ := findSingle?_eq_some hf
    exact absurd (List.mem_flatMap.mpr ⟨_, hmem, List.mem_singleton_self _⟩) h

theorem about_of_absent (f : Packet → Answer) : b.about id f = .error (.packetNotFound id) := by
  rw [about, find?_of_absent h]

theorem aboutEntry_of_absent (f : Entry → Nat → Answer) :
    b.aboutEntry id f = .error (.packetNotFound id) := by
  rw [aboutEntry, entryOf?_of_absent h]

theorem answer_of_absent {q : Query} (hq : q.subject? = some id) (now : Time) :
    b.answer now q = Request.notFound id (.ask q) := by
  have hholds : b.holds id = false :=
    List.any_eq_false.mpr fun e he => by simp [holds_of_absent h he]
  cases q <;> cases hq <;>
    simp [answer, Request.notFound, about_of_absent h, aboutEntry_of_absent h, hholds]

end Absent

theorem modify_of_absent {α : Type} (h : id ∉ (b.sweep now).liveIds)
    (f : Packet → Except Fault (α × Packet)) (g : α → Answer) :
    (Outcome.map g (b.modify now id f)).1 = .error (.packetNotFound id) := by
  rw [modify, find?_of_absent h]
  rfl

theorem perform_of_absent (h : id ∉ (b.sweep now).liveIds) {r : Request} (hr : id ∈ r.needs) :
    ∃ x ∈ r.needs, (b.perform now r).1 = r.notFound x := by
  cases r with
  | insert p => cases hr
  | insertCoded p q => cases hr
  | removeExpired => cases hr
  | compact x y =>
    simp only [perform, compact]
    cases hx : (b.sweep now).findSingle? x with
    | none => exact ⟨x, by simp [Request.needs], rfl⟩
    | some p =>
      have hne : id ≠ x := by
        rintro rfl
        rw [findSingle?_of_absent h] at hx
        cases hx
      have hy : id = y := by simpa [Request.needs, hne] using hr
      subst hy
      exact ⟨id, hr, by rw [findSingle?_of_absent h]; rfl⟩
  | remove x =>
    obtain rfl := List.mem_singleton.mp hr
    exact ⟨id, hr, by simp only [perform, remove, entryOf?_of_absent h]; rfl⟩
  | setReplicas x | splitReplicas x | updateThreshold x | markForwarded x | addForwarder x
  | addPreviousHop x =>
    obtain rfl := List.mem_singleton.mp hr
    exact ⟨id, hr, modify_of_absent h _ _⟩
  | ask q => exact ⟨id, hr, answer_of_absent h (Option.mem_toList.mp hr) now⟩

/-! ### What answers show -/

theorem mem_of_mem_lastPlaces {ids : List PacketId} {i : Nat} {slot : PacketId × Nat}
    (h : slot ∈ lastPlaces i ids) : slot.1 ∈ ids := by
  induction ids generalizing i with
  | nil => cases h
  | cons x rest ih =>
    rw [lastPlaces] at h
    split at h
    · exact List.mem_cons_of_mem x (ih h)
    · rcases List.mem_cons.mp h with rfl | h
      · exact List.mem_cons_self
      · exact List.mem_cons_of_mem x (ih h)

theorem mem_liveIds_of_partner? {c : CodedPair} {x : PacketId} (h : c.partner? x = some id) :
    id ∈ (Entry.coded c).liveIds := by
  unfold CodedPair.partner? at h
  cases hs : c.survivor with
  | some left => simp [hs] at h
  | none =>
    simp only [hs] at h
    obtain ⟨s, _, rfl⟩ := Option.map_eq_some_iff.mp h
    exact List.mem_map_of_mem (CodedPair.half_mem_livePackets (by simp [CodedPair.isLive, hs]))

theorem about_eq_ok {f : Packet → Answer} {a : Answer} (h : b.about id f = .ok a) :
    ∃ p, b.find? id = some p ∧ a = f p := by
  unfold about at h
  split at h
  · cases h
  · rename_i p hp
    cases h
    exact ⟨p, hp, rfl⟩

theorem aboutEntry_eq_ok {f : Entry → Nat → Answer} {a : Answer} (h : b.aboutEntry id f = .ok a) :
    ∃ e ∈ b.entries, ∃ i, a = f e i := by
  unfold aboutEntry at h
  split at h
  · rename_i e i he _
    cases h
    exact ⟨e, List.mem_of_find?_eq_some he, i, rfl⟩
  · cases h

theorem mem_liveIds_of_shown {q : Query} {a : Answer} (ha : b.answer now q = .ok a)
    (h : a.shows id = true) : id ∈ b.liveIds := by
  cases q with
  | «exists» | existsAsExtra | allDestinations | packetsFor | size | isEmpty | isFull
  | availableSpace =>
    cases ha
    cases h
  | destination | source | creationTime | hops | previousHop | remainingLifetime | replicas
  | threshold | wasForwarded | forwardedTo | previousHops =>
    obtain ⟨p, _, rfl⟩ := about_eq_ok ha
    cases h
  | isCoded | position | distanceFromEnd =>
    obtain ⟨e, _, i, rfl⟩ := aboutEntry_eq_ok ha
    cases h
  | partner x =>
    obtain ⟨e, he, i, rfl⟩ := aboutEntry_eq_ok ha
    cases e with
    | single p => cases h
    | coded c => exact List.mem_flatMap.mpr ⟨_, he, mem_liveIds_of_partner? (beq_iff_eq.mp h)⟩
  | packet x =>
    obtain ⟨p, hp, rfl⟩ := about_eq_ok ha
    obtain rfl : p.id = id := beq_iff_eq.mp h
    exact mem_liveIds.mpr ⟨p, mem_livePackets_of_find? hp, rfl⟩
  | positions =>
    cases ha
    obtain ⟨slot, hslot, hid⟩ := List.any_eq_true.mp h
    exact beq_iff_eq.mp hid ▸ mem_of_mem_lastPlaces hslot
  | candidatesFor destinations =>
    cases ha
    have hmem := mem_of_mem_eraseDupsBy (List.contains_iff_mem.mp h)
    obtain ⟨p, hp, rfl⟩ := List.mem_map.mp hmem
    exact mem_liveIds.mpr ⟨p, (List.mem_filter.mp hp).1, rfl⟩
  | allNative =>
    cases ha
    exact mem_of_mem_eraseDupsBy (List.contains_iff_mem.mp h)
  | entries =>
    cases ha
    obtain ⟨e, he, hid⟩ := List.any_eq_true.mp h
    exact List.mem_flatMap.mpr ⟨e, he, List.contains_iff_mem.mp hid⟩

/-! ### Every buffer that requests can build -/

theorem eq_of_live (hb : Integrity b.entries) {p q : Packet} (hp : p ∈ b.livePackets)
    (hq : q ∈ b.livePackets) (h : p.id = q.id) : p = q := by
  have hnodup : (b.livePackets.map (·.id)).Nodup := by
    rw [livePackets, List.map_flatMap]
    exact hb.distinct
  exact List.inj_on_of_nodup_map hnodup hp hq h

theorem find?_of_live (hb : Integrity b.entries) {p : Packet} (hp : p ∈ b.livePackets) :
    b.find? p.id = some p := by
  obtain ⟨e, he, hpe⟩ := List.mem_flatMap.mp hp
  have hfind := Entry.find?_of_mem_livePackets (hb.crossed_entry he) hpe
  cases hq : b.find? p.id with
  | none =>
    rw [find?, List.findSome?_eq_none_iff] at hq
    rw [hq e he] at hfind
    cases hfind
  | some q => rw [eq_of_live hb (mem_livePackets_of_find? hq) hp (mem_liveIds_of_find? hq).1]

/-- An expired packet is not live after the sweep, and no other one has its number. -/
theorem absent_of_expired (hb : Integrity b.entries) {p : Packet} (hp : p ∈ b.livePackets)
    (hold : p.isExpired now b.lifetime = true) : p.id ∉ (b.sweep now).liveIds := by
  intro hl
  obtain ⟨q, hq, hid⟩ := mem_liveIds.mp hl
  rw [livePackets_sweep, List.mem_filter] at hq
  rw [eq_of_live hb hq.1 hp hid, hold] at hq
  cases hq.2

theorem lifetime_run (b : Buffer) (rs : List (Time × Request)) :
    (b.run rs).lifetime = b.lifetime := by
  refine run_induction (P := fun b' => b'.lifetime = b.lifetime) ?_ rs b rfl
  intro b' now r o hb hr
  have hs := (lifetime_sweep now b').trans hb
  cases hr with
  | refused => exact hs
  | looked => exact hs
  | placed _ hroom => exact hroom.lifetime.trans hs
  | compacted => exact hs
  | removed => exact hs
  | halved => exact hs
  | changed => exact hs

/--
Expiry is exact. A sweep does what `Swept` says, and every request works on the swept buffer, which
is what a question leaves. An expired packet is not found by the requests that need it and shown by
no answer, an unexpired one is there as it was, and with a lifetime of zero a sweep changes nothing.
-/
theorem expiry_exact (capacity : Nat) (lifetime : TimeSpan) (eviction : EvictionPolicy)
    (recording : Bool) (rs : List (Time × Request)) (now : Time) :
    let b := (Buffer.new capacity lifetime eviction recording).run rs
    Swept now b (b.sweep now) ∧
    (∀ q, (b.perform now (.ask q)).2 = b.sweep now) ∧
    (∀ r, r ≠ .removeExpired → b.perform now r = (b.sweep now).perform now r) ∧
    (∀ p ∈ b.livePackets, p.isExpired now lifetime = true →
      (∀ r, p.id ∈ r.needs → ∃ x ∈ r.needs, (b.perform now r).1 = r.notFound x) ∧
      (∀ q a, (b.perform now (.ask q)).1 = .ok a → a.shows p.id = false)) ∧
    (∀ p ∈ b.livePackets, p.isExpired now lifetime = false →
      (b.perform now (.ask (.packet p.id))).1 = .ok (.packet p)) ∧
    (lifetime.isZero = true → b.sweep now = b) := by
  intro b
  have hb : Integrity b.entries := integrity_run capacity lifetime eviction recording rs
  have hl : b.lifetime = lifetime := lifetime_run _ rs
  rw [← hl]
  refine ⟨swept_sweep now b, fun _ => rfl, fun r hr => (perform_sweep hr now b).symm, ?_, ?_,
    fun hz => sweep_of_isZero hz now⟩
  · intro p hp hold
    have habsent := absent_of_expired hb hp hold
    refine ⟨fun r hr => perform_of_absent habsent hr, fun q a ha => ?_⟩
    exact Bool.eq_false_iff.mpr fun hshown => habsent (mem_liveIds_of_shown ha hshown)
  · intro p hp hfresh
    have hlive : p ∈ (b.sweep now).livePackets := by
      rw [livePackets_sweep, List.mem_filter]
      exact ⟨hp, by rw [hfresh]; rfl⟩
    simp only [perform, answer, about, find?_of_live (integrity_sweep hb now) hlive]

/-- A packet of its own expires, and of a pair one half. -/
theorem staggered_expiry :
    let b := (Buffer.new 3 ⟨10.0⟩ ⟨.front, false⟩ true).run
      [(⟨0.0⟩, .insert (.generate ⟨0⟩ ⟨0⟩ ⟨1⟩ ⟨0.0⟩)),
        (⟨8.0⟩, .insertCoded (.generate ⟨1⟩ ⟨0⟩ ⟨1⟩ ⟨1.0⟩) (.generate ⟨2⟩ ⟨1⟩ ⟨0⟩ ⟨8.0⟩))]
    let lost := { Packet.generate ⟨1⟩ ⟨0⟩ ⟨1⟩ ⟨1.0⟩ with inserted := ⟨8.0⟩ }
    let left := Packet.generate ⟨2⟩ ⟨1⟩ ⟨0⟩ ⟨8.0⟩
    Swept ⟨12.0⟩ b (b.sweep ⟨12.0⟩) ∧ (b.sweep ⟨12.0⟩).counters.expired = 1 ∧
      (b.sweep ⟨12.0⟩).hasExtra lost.id = true ∧
      (b.perform ⟨12.0⟩ (.ask (.hops lost.id))).1 = .error (.packetNotFound lost.id) ∧
      (b.perform ⟨12.0⟩ (.ask (.packet left.id))).1 = .ok (.packet left) := by
  intro b lost left
  obtain ⟨hswept, _, _, hold, hfresh, _⟩ := expiry_exact 3 ⟨10.0⟩ ⟨.front, false⟩ true
    [(⟨0.0⟩, .insert (.generate ⟨0⟩ ⟨0⟩ ⟨1⟩ ⟨0.0⟩)),
      (⟨8.0⟩, .insertCoded (.generate ⟨1⟩ ⟨0⟩ ⟨1⟩ ⟨1.0⟩) (.generate ⟨2⟩ ⟨1⟩ ⟨0⟩ ⟨8.0⟩))] ⟨12.0⟩
  obtain ⟨hneeds, _⟩ := hold lost (by decide +kernel) (by decide +kernel)
  obtain ⟨x, hx, hnot⟩ := hneeds (.ask (.hops lost.id)) (List.mem_singleton_self _)
  obtain rfl := List.mem_singleton.mp hx
  exact ⟨hswept, by decide +kernel, by decide +kernel, hnot,
    hfresh left (by decide +kernel) (by decide +kernel)⟩

end Buffer

end OppNet
