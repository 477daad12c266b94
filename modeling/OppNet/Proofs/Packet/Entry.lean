import OppNet.Packet.Entry

/-!
# OppNet.Proofs.Packet.Entry

What an entry answers for, and what can be left of one.

* `mem_liveIds_of_find?`, `mem_liveIds_iff_holds`: `find?` and `holds` against the list of live
  packets. The converse direction needs the two halves of a pair to be told apart (`Crossed`).
* `PartOf e' e`: `e'` is what is left of `e`, with at most one half lost and anything learnt
  since. Expiry, deletion and every change of one packet leave a part of the entry.
-/

namespace OppNet

/-- What no operation on a buffer changes about a packet. -/
def Packet.route (p : Packet) : PacketId × NodeId × NodeId := (p.id, p.source, p.destination)

theorem Packet.id_eq_of_route {p q : Packet} (h : p.route = q.route) : p.id = q.id :=
  congrArg Prod.fst h

theorem Packet.encodableWith_congr {p q p' q' : Packet} (hp : p'.route = p.route)
    (hq : q'.route = q.route) : p'.encodableWith q' = p.encodableWith q := by
  simp only [Packet.route, Prod.mk.injEq] at hp hq
  simp [Packet.encodableWith, hp, hq]

namespace CodedPair

/-- The two packets differ and travel between the same ends in opposite directions. -/
def Crossed (c : CodedPair) : Prop :=
  c.first.id ≠ c.second.id ∧ c.first.source = c.second.destination ∧
    c.second.source = c.first.destination

theorem crossed_iff {c : CodedPair} : c.Crossed ↔ c.first.encodableWith c.second = true := by
  simp [Crossed, Packet.encodableWith, and_assoc]

theorem combine_ok {p q : Packet} {c : CodedPair} (h : combine p q = .ok c) :
    c = ⟨p, q, none⟩ ∧ c.Crossed := by
  unfold combine at h
  split at h
  · rename_i he
    cases h
    exact ⟨rfl, crossed_iff.mpr he⟩
  · cases h

theorem combine_error {p q : Packet} {f : Fault} (h : combine p q = .error f) :
    f = .invalidEncoding p.id q.id := by
  unfold combine at h
  split at h
  · cases h
  · cases h
    rfl

theorem livePackets_of_intact {c : CodedPair} (h : c.survivor = none) :
    c.livePackets = [c.first, c.second] := by
  simp [livePackets, h]

theorem livePackets_of_survivor {c : CodedPair} {left : Side} (h : c.survivor = some left) :
    c.livePackets = [c.half left] := by
  simp [livePackets, h]

theorem livePackets_ne_nil (c : CodedPair) : c.livePackets ≠ [] := by
  unfold livePackets
  split <;> simp

theorem half_mem_livePackets {c : CodedPair} {s : Side} (h : c.isLive s = true) :
    c.half s ∈ c.livePackets := by
  unfold isLive at h
  unfold livePackets
  cases hs : c.survivor with
  | none => cases s <;> simp [half]
  | some left => simp_all

theorem sideOf?_id {c : CodedPair} {id : PacketId} {s : Side} (h : c.sideOf? id = some s) :
    (c.half s).id = id := by
  unfold sideOf? at h
  split at h
  · cases h; assumption
  · split at h
    · cases h; assumption
    · cases h

theorem liveSide?_eq_some {c : CodedPair} {id : PacketId} {s : Side}
    (h : c.liveSide? id = some s) : (c.half s).id = id ∧ c.isLive s = true := by
  obtain ⟨hs, hl⟩ := Option.filter_eq_some_iff.mp h
  exact ⟨sideOf?_id hs, hl⟩

theorem sideOf?_eq_some_iff {c : CodedPair} (hc : c.first.id ≠ c.second.id) {id : PacketId}
    {s : Side} : c.sideOf? id = some s ↔ (c.half s).id = id := by
  constructor
  · exact sideOf?_id
  · rintro rfl
    cases s with
    | first => simp [sideOf?, half]
    | second => simp [sideOf?, half, hc]

/-- A pair answers for each of its packets with the half that carries it. -/
theorem sideOf?_half {c : CodedPair} (hc : c.Crossed) (s : Side) :
    c.sideOf? (c.half s).id = some s :=
  (sideOf?_eq_some_iff hc.1).mpr rfl

theorem liveSide?_half {c : CodedPair} (hc : c.Crossed) {s : Side} (h : c.isLive s = true) :
    c.liveSide? (c.half s).id = some s := by
  simp [liveSide?, sideOf?_half hc, h]

theorem mem_livePackets {c : CodedPair} {p : Packet} :
    p ∈ c.livePackets ↔ ∃ s, c.isLive s = true ∧ c.half s = p := by
  constructor
  · intro hp
    unfold livePackets at hp
    cases hs : c.survivor with
    | none =>
      simp only [hs, List.mem_cons, List.not_mem_nil, or_false] at hp
      rcases hp with rfl | rfl
      · exact ⟨.first, by simp [isLive, hs], rfl⟩
      · exact ⟨.second, by simp [isLive, hs], rfl⟩
    | some left =>
      simp only [hs, List.mem_singleton] at hp
      exact ⟨left, by simp [isLive, hs], hp.symm⟩
  · rintro ⟨s, hl, rfl⟩
    exact half_mem_livePackets hl

end CodedPair

namespace Entry

@[simp] theorem livePackets_single (p : Packet) : (single p).livePackets = [p] := rfl

@[simp] theorem liveIds_single (p : Packet) : (single p).liveIds = [p.id] := rfl

@[simp] theorem liveIds_coded (c : CodedPair) : (coded c).liveIds = c.livePackets.map (·.id) := rfl

@[simp] theorem find?_single (id : PacketId) (p : Packet) :
    (single p).find? id = if p.id = id then some p else none := rfl

theorem livePackets_ne_nil (e : Entry) : e.livePackets ≠ [] := by
  cases e with
  | single p => simp
  | coded c => exact c.livePackets_ne_nil

theorem exists_created (e : Entry) : ∃ p ∈ e.livePackets, p.created = e.created := by
  unfold created
  cases hlive : e.livePackets with
  | nil => exact absurd hlive e.livePackets_ne_nil
  | cons p rest =>
    refine List.foldlRecOn (motive := fun t => ∃ q ∈ p :: rest, q.created = t) rest _
      ⟨p, List.mem_cons_self, rfl⟩ fun t ih q hq => ?_
    unfold earlier
    split
    · exact ⟨q, List.mem_cons_of_mem _ hq, rfl⟩
    · exact ih

theorem id_of_find? {e : Entry} {id : PacketId} {p : Packet} (h : e.find? id = some p) :
    p.id = id := by
  cases e with
  | single q =>
    simp only [find?_single] at h
    split at h
    · cases h; assumption
    · cases h
  | coded c =>
    obtain ⟨s, hs, rfl⟩ := Option.map_eq_some_iff.mp h
    exact (CodedPair.liveSide?_eq_some hs).1

theorem mem_livePackets_of_find? {e : Entry} {id : PacketId} {p : Packet}
    (h : e.find? id = some p) : p ∈ e.livePackets := by
  cases e with
  | single q =>
    simp only [find?_single] at h
    split at h
    · cases h; simp
    · cases h
  | coded c =>
    obtain ⟨s, hs, rfl⟩ := Option.map_eq_some_iff.mp h
    exact CodedPair.half_mem_livePackets (CodedPair.liveSide?_eq_some hs).2

theorem mem_liveIds_of_find? {e : Entry} {id : PacketId} {p : Packet}
    (h : e.find? id = some p) : id ∈ e.liveIds :=
  List.mem_map.mpr ⟨p, mem_livePackets_of_find? h, id_of_find? h⟩

theorem holds_iff {e : Entry} {id : PacketId} : e.holds id = true ↔ ∃ p, e.find? id = some p :=
  Option.isSome_iff_exists

/-- The pairs among the entries are well formed; an entry of its own always is. -/
def Crossed : Entry → Prop
  | single _ => True
  | coded c => c.Crossed

theorem find?_of_mem_livePackets {e : Entry} (he : e.Crossed) {p : Packet}
    (h : p ∈ e.livePackets) : e.find? p.id = some p := by
  cases e with
  | single q =>
    simp only [livePackets_single, List.mem_singleton] at h
    subst h
    simp
  | coded c =>
    obtain ⟨s, hl, rfl⟩ := CodedPair.mem_livePackets.mp h
    simp [find?, CodedPair.liveSide?_half he hl]

theorem mem_liveIds_iff_holds {e : Entry} (he : e.Crossed) {id : PacketId} :
    id ∈ e.liveIds ↔ e.holds id = true := by
  constructor
  · intro h
    obtain ⟨p, hp, rfl⟩ := List.mem_map.mp h
    exact holds_iff.mpr ⟨p, find?_of_mem_livePackets he hp⟩
  · intro h
    obtain ⟨p, hp⟩ := holds_iff.mp h
    exact mem_liveIds_of_find? hp

theorem liveIds_nodup {e : Entry} (he : e.Crossed) : e.liveIds.Nodup := by
  cases e with
  | single p => simp
  | coded c =>
    cases hs : c.survivor with
    | none => simpa [CodedPair.livePackets_of_intact hs] using he.1
    | some left => simp [CodedPair.livePackets_of_survivor hs]

/-- A coded pair of two packets has one of them live, whichever half it has lost. -/
theorem combines_live {e : Entry} {a b : PacketId} (h : e.combines a b = true) :
    a ∈ e.liveIds ∨ b ∈ e.liveIds := by
  cases e with
  | single p => cases h
  | coded c =>
    simp only [combines, CodedPair.combines, Bool.or_eq_true, Bool.and_eq_true, beq_iff_eq] at h
    cases hs : c.survivor with
    | none =>
      rcases h with ⟨rfl, rfl⟩ | ⟨rfl, rfl⟩ <;> simp [CodedPair.livePackets_of_intact hs]
    | some left =>
      cases left <;> rcases h with ⟨rfl, rfl⟩ | ⟨rfl, rfl⟩ <;>
        simp [CodedPair.livePackets_of_survivor hs, CodedPair.half]

/-! ### What is left of an entry -/

/-- `PartOf e' e`: the same packets, of which at most one more is lost. -/
inductive PartOf : Entry → Entry → Prop where
  | single {p q : Packet} (route : p.route = q.route) : PartOf (single p) (single q)
  | coded {c d : CodedPair} (first : c.first.route = d.first.route)
      (second : c.second.route = d.second.route)
      (lost : c.survivor = d.survivor ∨ d.survivor = none) : PartOf (coded c) (coded d)

namespace PartOf

theorem refl (e : Entry) : PartOf e e := by
  cases e with
  | single p => exact .single rfl
  | coded c => exact .coded rfl rfl (.inl rfl)

theorem liveIds_sublist {e' e : Entry} (h : PartOf e' e) : e'.liveIds.Sublist e.liveIds := by
  cases h with
  | single hr => simp [Packet.id_eq_of_route hr]
  | @coded c d h1 h2 hl =>
    have hf := Packet.id_eq_of_route h1
    have hs := Packet.id_eq_of_route h2
    cases hc : c.survivor with
    | none =>
      have hd : d.survivor = none := by rcases hl with hl | hl <;> simp_all
      simp [CodedPair.livePackets_of_intact hc, CodedPair.livePackets_of_intact hd, hf, hs]
    | some left =>
      have hleft : (c.half left).id = (d.half left).id := by
        cases left <;> simp [CodedPair.half, hf, hs]
      rcases hl with hl | hd
      · have hd : d.survivor = some left := hl.symm.trans hc
        simp [CodedPair.livePackets_of_survivor hc, CodedPair.livePackets_of_survivor hd, hleft]
      · cases left <;> simp [CodedPair.livePackets_of_survivor hc,
          CodedPair.livePackets_of_intact hd, CodedPair.half, hf, hs]

theorem combines_eq {e' e : Entry} (h : PartOf e' e) (a b : PacketId) :
    e'.combines a b = e.combines a b := by
  cases h with
  | single hr => rfl
  | coded h1 h2 _ =>
    simp [combines, CodedPair.combines, Packet.id_eq_of_route h1, Packet.id_eq_of_route h2]

theorem crossed {e' e : Entry} (h : PartOf e' e) (he : e.Crossed) : e'.Crossed := by
  cases h with
  | single hr => trivial
  | coded h1 h2 _ =>
    refine CodedPair.crossed_iff.mpr ?_
    rw [Packet.encodableWith_congr h1 h2]
    exact CodedPair.crossed_iff.mp he

theorem isCoded_eq {e' e : Entry} (h : PartOf e' e) : e'.isCoded = e.isCoded := by
  cases h <;> rfl

end PartOf

theorem partOf_of_surviving? {now : Time} {lifetime : TimeSpan} {e e' : Entry}
    (h : e.surviving? now lifetime = some e') : PartOf e' e := by
  cases e with
  | single p =>
    simp only [surviving?, expire] at h
    split at h <;> split at * <;> simp_all [PartOf.refl]
  | coded c =>
    simp only [surviving?, expire] at h
    cases hs : c.survivor with
    | some left =>
      simp only [hs] at h
      split at h <;> split at * <;> simp_all [PartOf.refl]
    | none =>
      simp only [hs] at h
      cases hf : c.first.isExpired now lifetime <;> cases hl : c.second.isExpired now lifetime <;>
        simp only [hf, hl, Option.some.injEq, reduceCtorEq] at h
      · exact h ▸ PartOf.refl _
      · exact h ▸ .coded rfl rfl (.inr hs)
      · exact h ▸ .coded rfl rfl (.inr hs)

theorem partOf_of_deleteHalf? {c c' : CodedPair} {id : PacketId}
    (h : c.deleteHalf? id = some c') : PartOf (coded c') (coded c) := by
  unfold CodedPair.deleteHalf? at h
  cases hs : c.survivor with
  | some left => simp [hs] at h
  | none =>
    simp only [hs] at h
    obtain ⟨s, _, rfl⟩ := Option.map_eq_some_iff.mp h
    exact .coded rfl rfl (.inr hs)

/-- A change of the packet that an entry answers with leaves the entry's other packet alone. -/
theorem partOf_of_update? {e e' : Entry} {id : PacketId} {f : Packet → Packet}
    (hf : ∀ p, e.find? id = some p → (f p).route = p.route)
    (h : e.update? id f = some e') : PartOf e' e := by
  cases e with
  | single p =>
    simp only [update?] at h
    split at h
    · rename_i hid
      cases h
      exact .single (hf p (by simp [hid]))
    · cases h
  | coded c =>
    obtain ⟨s, hs, rfl⟩ := Option.map_eq_some_iff.mp h
    have hr := hf (c.half s) (by simp [find?, hs])
    cases s with
    | first => exact .coded hr rfl (.inl rfl)
    | second => exact .coded rfl hr (.inl rfl)

theorem update?_isSome (e : Entry) (id : PacketId) (f : Packet → Packet) :
    (e.update? id f).isSome = (e.find? id).isSome := by
  cases e with
  | single p => simp only [update?, find?]; split <;> rfl
  | coded c => simp [update?, find?]

end Entry

end OppNet
