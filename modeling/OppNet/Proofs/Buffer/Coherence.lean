import Mathlib.Algebra.BigOperators.Group.List.Lemmas
import Mathlib.Algebra.GroupWithZero.Nat
import Mathlib.Data.List.Dedup
import Mathlib.Data.List.Pairwise
import OppNet.Proofs.Buffer.Expiry

/-!
# OppNet.Proofs.Buffer.Coherence

The answers of a buffer fit together, although each question goes through the entries in its own
way.

* `Coherent ask es ids places`: what fits together, in terms of the answers alone.
* `answered_iff`: whoever needs a live packet looks for the same one, whether among the entries or
  among the packets. `entryOf?_eq_some_iff`: there is one entry to be found.
* `positions_eq_zipIdx`, `candidatesFor_eq_filter`, `sum_packetsFor`: what the lists come to where
  no packet is live twice.
* `views_agree`: the answers of every buffer that requests can build.
-/

namespace OppNet

section Lists

variable {α : Type} [DecidableEq α]

theorem eraseDups_of_nodup {xs : List α} (h : xs.Nodup) : xs.eraseDups = xs := by
  induction xs with
  | nil => rfl
  | cons x rest ih =>
    rw [List.nodup_cons] at h
    have hkept : rest.filter (fun y => !y == x) = rest := by
      rw [List.filter_eq_self]
      intro y hy
      have hne : y ≠ x := fun heq => h.1 (heq ▸ hy)
      simp [hne]
    rw [List.eraseDups_cons, hkept, ih h.2]

theorem sum_count_eraseDups (xs : List α) :
    (xs.eraseDups.map fun x => xs.count x).sum = xs.length := by
  have hperm : xs.eraseDups.Perm xs.dedup := by
    rw [List.perm_ext_iff_of_nodup (nodup_eraseDups xs) xs.nodup_dedup]
    intro x
    rw [List.mem_eraseDups, List.mem_dedup]
  rw [(hperm.map _).sum_eq]
  exact List.sum_map_count_dedup_eq_length xs

end Lists

namespace Buffer

variable {now : Time} {b : Buffer} {id : PacketId}

/--
Answers that fit together: `es` are the entries, `ids` the live packets and `places` where they
are.
-/
structure Coherent (ask : Query → Except Fault Answer) (es : List Entry) (ids : List PacketId)
    (places : List (PacketId × Nat)) : Prop where
  entries : ask .entries = .ok (.entries es)
  allNative : ask .allNative = .ok (.packetIds ids)
  positions : ask .positions = .ok (.places places)
  /-- The live packets are listed once each, from the front of the buffer. -/
  listed : ids = es.flatMap Entry.liveIds
  distinct : ids.Nodup
  «exists» : ∀ id, ask (.exists id) = .ok (.flag (decide (id ∈ ids)))
  /-- The questions that need a live packet are answered for live packets and for no others. -/
  answered : ∀ q id, q.subject? = some id → q ≠ .exists id → (id ∈ ids ↔ ∃ a, ask q = .ok a)
  /-- Places go along the list, without a gap: they are a bijection. -/
  along : places = ids.zipIdx
  mem_places : ∀ id, id ∈ ids ↔ ∃ k, (id, k) ∈ places
  one_place : ∀ id ∈ ids, ∃! k, (id, k) ∈ places
  filled : ∀ k, k < ids.length ↔ ∃ id, (id, k) ∈ places
  one_packet : ∀ k < ids.length, ∃! id, (id, k) ∈ places
  /-- The halves of an intact pair are next to each other. -/
  neighbours : ∀ c, Entry.coded c ∈ es → c.survivor = none →
    ∃ k, (c.first.id, k) ∈ places ∧ (c.second.id, k + 1) ∈ places
  /-- The distances of an entry from both ends of the buffer add up. -/
  ends : ∀ id ∈ ids, ∃ front back, ask (.position id) = .ok (.count front) ∧
    ask (.distanceFromEnd id) = .ok (.count back) ∧ ask .size = .ok (.count (front + back + 1))
  partners : ∀ x y, ask (.partner x) = .ok (.packetIdOrNone (some y)) ↔
    ask (.partner y) = .ok (.packetIdOrNone (some x))
  candidates : ∀ ds, ask (.candidatesFor ds) = .ok (.packetIds (ids.filter fun id =>
    ds.any fun d => ask (.destination id) = .ok (.node d)))
  /-- Every live packet is counted under one of the destinations. -/
  counts : ∃ ds, ask .allDestinations = .ok (.nodes ds) ∧
    ∃ count : NodeId → Nat, (∀ d, ask (.packetsFor d) = .ok (.count (count d))) ∧
      (ds.map count).sum = ids.length

theorem liveIds_eq_map (b : Buffer) : b.liveIds = b.livePackets.map (·.id) := by
  rw [liveIds, livePackets, List.map_flatMap]
  rfl

theorem lastPlaces_of_nodup {ids : List PacketId} (h : ids.Nodup) (i : Nat) :
    lastPlaces i ids = ids.zipIdx i := by
  induction ids generalizing i with
  | nil => rfl
  | cons x rest ih =>
    rw [List.nodup_cons] at h
    rw [lastPlaces, if_neg (by simpa using h.1), ih h.2, List.zipIdx_cons]

theorem isSome_entryOf? (b : Buffer) (id : PacketId) : (b.entryOf? id).isSome = b.holds id := by
  rw [Bool.eq_iff_iff, entryOf?, List.find?_isSome, holds, List.any_eq_true]

theorem isSome_indexOf? (b : Buffer) (id : PacketId) : (b.indexOf? id).isSome = b.holds id := by
  rw [indexOf?, List.findIdx?_isSome, holds]

theorem about_isOk_iff (b : Buffer) (id : PacketId) (f : Packet → Answer) :
    b.holds id = true ↔ ∃ a, b.about id f = .ok a := by
  rw [holds_eq_isSome, about]
  cases b.find? id with
  | none => simp
  | some p => simp

theorem aboutEntry_isOk_iff (b : Buffer) (id : PacketId) (f : Entry → Nat → Answer) :
    b.holds id = true ↔ ∃ a, b.aboutEntry id f = .ok a := by
  have hentry := isSome_entryOf? b id
  have hindex := isSome_indexOf? b id
  rw [aboutEntry]
  cases he : b.entryOf? id with
  | none =>
    rw [he] at hentry
    simp [← hentry]
  | some e =>
    cases hi : b.indexOf? id with
    | none =>
      rw [hi] at hindex
      simp [← hindex]
    | some i =>
      rw [hi] at hindex
      simp [← hindex]

/-- Whoever needs a live packet looks for the same one. -/
theorem answered_iff {q : Query} (hq : q.subject? = some id) (hne : q ≠ .exists id) (now : Time) :
    b.holds id = true ↔ ∃ a, b.answer now q = .ok a := by
  cases q with
  | «exists» x =>
    obtain rfl := Option.some_inj.mp hq
    exact absurd rfl hne
  | isCoded x | partner x | position x | distanceFromEnd x =>
    obtain rfl := Option.some_inj.mp hq
    exact aboutEntry_isOk_iff b x _
  | packet x | destination x | source x | creationTime x | hops x | previousHop x
  | remainingLifetime x | replicas x | threshold x _ | wasForwarded x | forwardedTo x _
  | previousHops x =>
    obtain rfl := Option.some_inj.mp hq
    exact about_isOk_iff b x _
  | existsAsExtra | positions | candidatesFor | allDestinations | allNative | packetsFor | entries
  | size | isEmpty | isFull | availableSpace => cases hq

section

variable (hb : Integrity b.entries)
include hb

theorem Integrity.holds_iff : b.holds id = true ↔ id ∈ b.liveIds :=
  holds_iff_mem_liveIds fun _ he => hb.crossed_entry he

theorem entryOf?_eq_some_iff {e : Entry} :
    b.entryOf? id = some e ↔ e ∈ b.entries ∧ id ∈ e.liveIds := by
  constructor
  · intro h
    have he := List.mem_of_find?_eq_some h
    exact ⟨he, (Entry.mem_liveIds_iff_holds (hb.crossed_entry he)).mpr (List.find?_some h)⟩
  · rintro ⟨he, hid⟩
    have hheld := hb.holds_iff.mpr (List.mem_flatMap.mpr ⟨e, he, hid⟩)
    rw [← isSome_entryOf?] at hheld
    obtain ⟨e', h⟩ := Option.isSome_iff_exists.mp hheld
    have he' := List.mem_of_find?_eq_some h
    have hid' := (Entry.mem_liveIds_iff_holds (hb.crossed_entry he')).mpr (List.find?_some h)
    have hapart := (List.nodup_flatMap.mp hb.distinct).2
    have : Std.Symm (Function.onFun List.Disjoint Entry.liveIds) :=
      ⟨fun _ _ hd => List.Disjoint.symm hd⟩
    by_cases heq : e' = e
    · rw [h, heq]
    · exact absurd hid (hapart.forall he' he heq hid')

theorem positions_eq_zipIdx : b.positions = b.liveIds.zipIdx :=
  lastPlaces_of_nodup hb.distinct 0

theorem allNative_eq_liveIds : b.allNative = b.liveIds :=
  eraseDups_of_nodup hb.distinct

/-! ### Entries and their ends -/

theorem exists_ends (h : id ∈ b.liveIds) (now : Time) :
    ∃ front back, b.answer now (.position id) = .ok (.count front) ∧
      b.answer now (.distanceFromEnd id) = .ok (.count back) ∧ b.size = front + back + 1 := by
  have hheld := hb.holds_iff.mpr h
  have hentry := isSome_entryOf? b id
  have hindex := isSome_indexOf? b id
  rw [hheld] at hentry hindex
  obtain ⟨e, he⟩ := Option.isSome_iff_exists.mp hentry
  obtain ⟨i, hi⟩ := Option.isSome_iff_exists.mp hindex
  obtain ⟨hlt, -, -⟩ := List.findIdx?_eq_some_iff_getElem.mp hi
  refine ⟨i, b.size - 1 - i, ?_, ?_, ?_⟩
  · simp only [answer, aboutEntry, he, hi]
  · simp only [answer, aboutEntry, he, hi]
  · rw [size]
    omega

theorem exists_neighbours {c : CodedPair} (hc : Entry.coded c ∈ b.entries)
    (hs : c.survivor = none) :
    ∃ k, (c.first.id, k) ∈ b.positions ∧ (c.second.id, k + 1) ∈ b.positions := by
  obtain ⟨before, after, hsplit⟩ := List.append_of_mem hc
  have hids : b.liveIds = before.flatMap Entry.liveIds ++
      c.first.id :: c.second.id :: after.flatMap Entry.liveIds := by
    rw [liveIds, hsplit, List.flatMap_append, List.flatMap_cons, Entry.liveIds_coded,
      CodedPair.livePackets_of_intact hs]
    rfl
  refine ⟨(before.flatMap Entry.liveIds).length, ?_, ?_⟩
  · rw [positions_eq_zipIdx hb, List.mk_mem_zipIdx_iff_getElem?, hids]
    simp
  · rw [positions_eq_zipIdx hb, List.mk_mem_zipIdx_iff_getElem?, hids]
    simp

/-! ### Partners -/

/-- Who has a partner is half of an intact pair, and the partner is the other half. -/
theorem partner_iff {x y : PacketId} (now : Time) :
    b.answer now (.partner x) = .ok (.packetIdOrNone (some y)) ↔
      ∃ c s, Entry.coded c ∈ b.entries ∧ c.survivor = none ∧ (c.half s).id = x ∧
        (c.half s.other).id = y := by
  constructor
  · intro h
    simp only [answer, aboutEntry] at h
    split at h
    · rename_i e i he _
      cases e with
      | single p => cases h
      | coded c =>
        simp only [Except.ok.injEq, Answer.packetIdOrNone.injEq] at h
        unfold CodedPair.partner? at h
        split at h
        · rename_i hs
          obtain ⟨s, hside, rfl⟩ := Option.map_eq_some_iff.mp h
          have hmem := ((entryOf?_eq_some_iff hb).mp he).1
          exact ⟨c, s, hmem, hs, CodedPair.sideOf?_id hside, rfl⟩
        · cases h
    · cases h
  · rintro ⟨c, s, hmem, hs, rfl, rfl⟩
    have hlive : (c.half s).id ∈ (Entry.coded c).liveIds :=
      List.mem_map_of_mem (CodedPair.half_mem_livePackets (by simp [CodedPair.isLive, hs]))
    have he := (entryOf?_eq_some_iff hb).mpr ⟨hmem, hlive⟩
    have hindex := isSome_indexOf? b (c.half s).id
    rw [← isSome_entryOf?, he] at hindex
    obtain ⟨i, hi⟩ := Option.isSome_iff_exists.mp hindex
    simp only [answer, aboutEntry, he, hi, CodedPair.partner?, hs,
      CodedPair.sideOf?_half (hb.crossed c hmem), Option.map_some]

theorem partner_symm {x y : PacketId} (now : Time)
    (h : b.answer now (.partner x) = .ok (.packetIdOrNone (some y))) :
    b.answer now (.partner y) = .ok (.packetIdOrNone (some x)) := by
  obtain ⟨c, s, hmem, hs, hx, hy⟩ := (partner_iff hb now).mp h
  refine (partner_iff hb now).mpr ⟨c, s.other, hmem, hs, hy, ?_⟩
  cases s with
  | first => exact hx
  | second => exact hx

/-! ### Destinations -/

theorem answer_destination {p : Packet} (hp : p ∈ b.livePackets) (now : Time) :
    b.answer now (.destination p.id) = .ok (.node p.destination) := by
  simp only [answer, about, find?_of_live hb hp]

theorem candidatesFor_eq (ds : List NodeId) : b.candidatesFor ds =
    (b.livePackets.filter fun p => ds.contains p.destination).map (·.id) := by
  refine eraseDups_of_nodup (List.Nodup.sublist ?_ hb.distinct)
  rw [← liveIds, liveIds_eq_map]
  exact List.filter_sublist.map _

theorem candidatesFor_eq_filter (ds : List NodeId) (now : Time) :
    b.candidatesFor ds = b.liveIds.filter fun id =>
      ds.any fun d => b.answer now (.destination id) = .ok (.node d) := by
  rw [candidatesFor_eq hb, liveIds_eq_map, List.filter_map]
  refine congrArg _ (List.filter_congr fun p hp => ?_)
  rw [Function.comp_apply, answer_destination hb hp, Bool.eq_iff_iff, List.contains_iff_mem,
    List.any_eq_true]
  constructor
  · intro hd
    exact ⟨p.destination, hd, by simp⟩
  · rintro ⟨d, hd, heq⟩
    simp only [decide_eq_true_eq, Except.ok.injEq, Answer.node.injEq] at heq
    exact heq ▸ hd

theorem sum_packetsFor : (b.allDestinations.map b.packetsFor).sum = b.liveIds.length := by
  have hcount (d : NodeId) :
      b.packetsFor d = (b.livePackets.map (·.destination)).count d := by
    rw [packetsFor, candidatesFor_eq hb, List.length_map, List.count, List.countP_map,
      List.countP_eq_length_filter]
    refine congrArg _ (List.filter_congr fun p _ => ?_)
    rw [Function.comp_apply, Bool.eq_iff_iff, List.contains_iff_mem, List.mem_singleton, beq_iff_eq]
  rw [allDestinations, List.map_congr_left fun d _ => hcount d, sum_count_eraseDups,
    List.length_map, liveIds_eq_map, List.length_map]

/-- The answers of a buffer whose entries fit together fit together. -/
theorem coherent_answer (now : Time) :
    Coherent (b.answer now) b.entries b.liveIds b.positions where
  entries := rfl
  allNative := by rw [answer, allNative_eq_liveIds hb]
  positions := rfl
  listed := rfl
  distinct := hb.distinct
  «exists» id := by
    have hheld : b.holds id = decide (id ∈ b.liveIds) := by
      rw [Bool.eq_iff_iff, hb.holds_iff, decide_eq_true_iff]
    rw [answer, hheld]
  answered q id hq hne := by rw [← hb.holds_iff, answered_iff hq hne now]
  along := positions_eq_zipIdx hb
  mem_places id := by
    simp only [positions_eq_zipIdx hb, List.mk_mem_zipIdx_iff_getElem?]
    exact List.mem_iff_getElem?
  one_place id hid := by
    obtain ⟨k, hk⟩ := List.mem_iff_getElem?.mp hid
    simp only [positions_eq_zipIdx hb, List.mk_mem_zipIdx_iff_getElem?]
    refine ⟨k, hk, fun k' hk' => ?_⟩
    obtain ⟨hlt, -⟩ := List.getElem?_eq_some_iff.mp hk'
    exact (List.getElem?_inj hlt hb.distinct).mp (hk'.trans hk.symm)
  filled k := by
    simp only [positions_eq_zipIdx hb, List.mk_mem_zipIdx_iff_getElem?]
    rw [← Option.isSome_iff_exists, isSome_getElem?]
  one_packet k hk := by
    simp only [positions_eq_zipIdx hb, List.mk_mem_zipIdx_iff_getElem?,
      List.getElem?_eq_getElem hk]
    exact ⟨_, rfl, fun id hid => (Option.some_inj.mp hid).symm⟩
  neighbours c hc hs := exists_neighbours hb hc hs
  ends id hid := by
    obtain ⟨front, back, hfront, hback, hsize⟩ := exists_ends hb hid now
    exact ⟨front, back, hfront, hback, by rw [answer, hsize]⟩
  partners x y := ⟨partner_symm hb now, partner_symm hb now⟩
  candidates ds := by rw [answer, candidatesFor_eq_filter hb ds now]
  counts := ⟨_, rfl, b.packetsFor, fun _ => rfl, sum_packetsFor hb⟩

end

/-- The answers of every buffer that requests can build fit together, at whatever time it is
asked. -/
theorem views_agree (capacity : Nat) (lifetime : TimeSpan) (eviction : EvictionPolicy)
    (recording : Bool) (rs : List (Time × Request)) (now : Time) :
    let b := (Buffer.new capacity lifetime eviction recording).run rs
    ∃ es ids places, Coherent (fun q => (b.perform now (.ask q)).1) es ids places := by
  intro b
  have hb : Integrity b.entries := integrity_run capacity lifetime eviction recording rs
  exact ⟨_, _, _, coherent_answer (integrity_sweep hb now) now⟩

end Buffer

end OppNet
