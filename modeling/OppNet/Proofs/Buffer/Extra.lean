import Mathlib.Data.List.Induction
import OppNet.Proofs.Buffer.Request

/-!
# OppNet.Proofs.Buffer.Extra

Lost halves of coded pairs that are live elsewhere. A lost half stays with its pair for as long as
the pair does, and nothing that is asked of a packet before it comes in is asked about lost halves.

* `Doubled`: a packet that is live and a lost half as well.
* `Returned`: a request brings a packet in that is a lost half only.
* `doubled_perform`: no other request makes a packet doubled. `exists_returned`: behind every
  doubled packet there is such a request, and the packet has been doubled ever since.
-/

namespace OppNet

namespace Entry

variable {e e' : Entry} {id : PacketId}

/-- A pair does not answer for the half that it has lost. -/
theorem not_mem_liveIds_of_hasExtra (he : e.Crossed) (hx : e.hasExtra id = true) :
    id ∉ e.liveIds := by
  cases e with
  | single p => cases hx
  | coded c =>
    obtain ⟨left, hs, rfl⟩ := Option.map_eq_some_iff.mp (beq_iff_eq.mp hx)
    rw [liveIds_coded, CodedPair.livePackets_of_survivor hs, List.map_singleton,
      List.mem_singleton]
    cases left with
    | first => exact fun h => he.1 h.symm
    | second => exact he.1

/-- A half that is lost now was lost before, or it was live. -/
theorem PartOf.hasExtra (h : PartOf e' e) (hx : e'.hasExtra id = true) :
    e.hasExtra id = true ∨ id ∈ e.liveIds := by
  cases h with
  | single => cases hx
  | @coded c d hfirst hsecond hlost =>
    obtain ⟨left, hs, rfl⟩ := Option.map_eq_some_iff.mp (beq_iff_eq.mp hx)
    have hid : (c.half left.other).id = (d.half left.other).id := by
      cases left with
      | first => exact Packet.id_eq_of_route hsecond
      | second => exact Packet.id_eq_of_route hfirst
    rw [hid]
    rcases hlost with hsame | hintact
    · left
      rw [hs] at hsame
      simp [Entry.hasExtra, CodedPair.extra?, ← hsame]
    · right
      have hlive : d.isLive left.other = true := by simp [CodedPair.isLive, hintact]
      exact List.mem_map_of_mem (CodedPair.half_mem_livePackets hlive)

theorem hasExtra_of_combine {p q : Packet} {c : CodedPair} (hc : CodedPair.combine p q = .ok c)
    (id : PacketId) : (coded c).hasExtra id = false := by
  obtain ⟨rfl, -⟩ := CodedPair.combine_ok hc
  rfl

theorem eq_of_holds_combine {p q : Packet} {c : CodedPair} (hc : CodedPair.combine p q = .ok c)
    (h : (coded c).holds id = true) : id = p.id ∨ id = q.id := by
  obtain ⟨rfl, hcross⟩ := CodedPair.combine_ok hc
  have hlive : id ∈ [p.id, q.id] :=
    (mem_liveIds_iff_holds (e := coded ⟨p, q, none⟩) hcross).mpr h
  simpa using hlive

theorem holds_intact {p q : Packet} (h : id ∈ [p.id, q.id]) :
    (coded ⟨p, q, none⟩).holds id = true := by
  by_cases hp : p.id = id
  · simp [holds, find?, CodedPair.liveSide?, CodedPair.sideOf?, CodedPair.isLive, hp]
  · have hq : q.id = id := by
      rw [List.mem_cons, List.mem_singleton] at h
      exact (h.resolve_left fun heq => hp heq.symm).symm
    simp [holds, find?, CodedPair.liveSide?, CodedPair.sideOf?, CodedPair.isLive, hp, hq]

end Entry

namespace Buffer

variable {b b' : Buffer} {id : PacketId} {now : Time} {r : Request}

/-! ### Doubled packets -/

/-- The packet is live, and some pair has lost it. -/
def Doubled (id : PacketId) (b : Buffer) : Prop := b.hasExtra id = true ∧ b.holds id = true

theorem hasExtra_iff : b.hasExtra id = true ↔ ∃ e ∈ b.entries, e.hasExtra id = true :=
  List.any_eq_true

theorem holds_iff_exists : b.holds id = true ↔ ∃ e ∈ b.entries, e.holds id = true :=
  List.any_eq_true

/-- Where a packet is still live, no pair has lost it in the meantime. -/
theorem Remains.hasExtra {es' es : List Entry} (h : Remains es' es)
    (hcrossed : ∀ e ∈ es, e.Crossed) (hnodup : (es.flatMap Entry.liveIds).Nodup)
    (hlive : id ∈ es'.flatMap Entry.liveIds) (hx : ∃ e ∈ es', e.hasExtra id = true) :
    ∃ e ∈ es, e.hasExtra id = true := by
  induction h with
  | nil =>
    obtain ⟨e, he, -⟩ := hx
    cases he
  | @cons e' e rest' rest hpart hrest ih =>
    rw [List.flatMap_cons, List.nodup_append] at hnodup
    obtain ⟨-, htail, happart⟩ := hnodup
    rw [List.flatMap_cons, List.mem_append] at hlive
    obtain ⟨f', hf', hfx⟩ := hx
    rcases List.mem_cons.mp hf' with rfl | hf'
    · rcases hpart.hasExtra hfx with hex | hel
      · exact ⟨e, List.mem_cons_self, hex⟩
      · -- The packet was live in the pair that lost it, and cannot have been live anywhere else.
        have hcross := hpart.crossed (hcrossed e List.mem_cons_self)
        have hlive := hlive.resolve_left (Entry.not_mem_liveIds_of_hasExtra hcross hfx)
        exact absurd rfl (happart id hel id (Remains.liveIds_sublist hrest |>.subset hlive))
    · rcases hlive with hlive | hlive
      · obtain ⟨f, hf, hpf⟩ := Remains.exists_partOf hrest hf'
        rcases hpf.hasExtra hfx with hex | hfl
        · exact ⟨f, List.mem_cons_of_mem _ hf, hex⟩
        · have hfl := List.mem_flatMap.mpr ⟨f, hf, hfl⟩
          exact absurd rfl (happart id (hpart.liveIds_sublist.subset hlive) id hfl)
      · obtain ⟨f, hf, hex⟩ :=
          ih (fun e he => hcrossed e (List.mem_cons_of_mem _ he)) htail hlive ⟨f', hf', hfx⟩
        exact ⟨f, List.mem_cons_of_mem _ hf, hex⟩
  | cons_right _ ih =>
    rw [List.flatMap_cons, List.nodup_append] at hnodup
    obtain ⟨f, hf, hex⟩ :=
      ih (fun e he => hcrossed e (List.mem_cons_of_mem _ he)) hnodup.2.1 hlive hx
    exact ⟨f, List.mem_cons_of_mem _ hf, hex⟩

theorem Doubled.of_remains (h : Doubled id b') (hr : Remains b'.entries b.entries)
    (hb : Integrity b.entries) : Doubled id b := by
  have hlive := (holds_iff_mem_liveIds fun e he => (hb.of_remains hr).crossed_entry he).mp h.2
  constructor
  · exact hasExtra_iff.mpr
      (hr.hasExtra (fun e he => hb.crossed_entry he) hb.distinct hlive (hasExtra_iff.mp h.1))
  · exact (holds_iff_mem_liveIds fun e he => hb.crossed_entry he).mpr
      (hr.liveIds_sublist.subset hlive)

theorem Doubled.of_concat {rest : List Entry} {e : Entry} (h : Doubled id b')
    (hafter : b'.entries = rest ++ [e]) (hrest : rest.Sublist b.entries)
    (he : e.hasExtra id = false) :
    b.hasExtra id = true ∧ (b.holds id = true ∨ e.holds id = true) := by
  constructor
  · obtain ⟨f, hf, hfx⟩ := hasExtra_iff.mp h.1
    rw [hafter, List.mem_append, List.mem_singleton] at hf
    rcases hf with hf | rfl
    · exact hasExtra_iff.mpr ⟨f, hrest.subset hf, hfx⟩
    · rw [he] at hfx
      cases hfx
  · obtain ⟨f, hf, hfl⟩ := holds_iff_exists.mp h.2
    rw [hafter, List.mem_append, List.mem_singleton] at hf
    rcases hf with hf | rfl
    · exact .inl (holds_iff_exists.mpr ⟨f, hrest.subset hf, hfl⟩)
    · exact .inr hfl

/-! ### Requests -/

/-- The packets that the request brings in, if it is accepted. -/
def Request.brings : Request → List PacketId
  | .insert p => [p.id]
  | .insertCoded p q => [p.id, q.id]
  | _ => []

/-- The request brings a packet in that is the lost half of a pair and not live. -/
structure Returned (now : Time) (r : Request) (id : PacketId) (b : Buffer) : Prop where
  brought : id ∈ r.brings
  accepted : (b.perform now r).1 = .ok .done
  lost : (b.sweep now).hasExtra id = true
  absent : (b.sweep now).holds id = false

theorem doubled_insert {p : Packet} (h : Doubled id (b.perform now (.insert p)).2) :
    Doubled id (b.sweep now) ∨ Returned now (.insert p) id b := by
  rcases insert_cases now p b with ⟨-, he⟩ | ⟨hnot, room, hroom, he⟩
  · simp only [perform, he] at h
    exact .inl h
  · have haccepted : (b.perform now (.insert p)).1 = .ok .done := by
      simp only [perform, he]
      rfl
    simp only [perform, he] at h
    obtain ⟨hx, hlive | hnew⟩ := h.of_concat (entries_append _ _ room) hroom.sublist rfl
    · exact .inl ⟨hx, hlive⟩
    · obtain ⟨q, hq⟩ := Entry.holds_iff.mp hnew
      obtain rfl := List.mem_singleton.mp (Entry.mem_liveIds_of_find? hq)
      exact .inr ⟨List.mem_singleton_self _, haccepted, hx, hnot⟩

theorem doubled_insertCoded {p q : Packet} (h : Doubled id (b.perform now (.insertCoded p q)).2) :
    Doubled id (b.sweep now) ∨ Returned now (.insertCoded p q) id b := by
  rcases insertCoded_cases now p q b with ⟨f, -, he⟩ | ⟨c, room, hc, -, hp, hq, hroom, he⟩
  · simp only [perform, he] at h
    exact .inl h
  · have haccepted : (b.perform now (.insertCoded p q)).1 = .ok .done := by
      simp only [perform, he]
      rfl
    simp only [perform, he] at h
    obtain ⟨hx, hlive | hnew⟩ := h.of_concat (entries_append _ _ room) hroom.sublist
      (Entry.hasExtra_of_combine hc id)
    · exact .inl ⟨hx, hlive⟩
    · rcases Entry.eq_of_holds_combine hc hnew with rfl | rfl
      · exact .inr ⟨List.mem_cons_self, haccepted, hx, hp⟩
      · exact .inr ⟨List.mem_cons_of_mem _ (List.mem_singleton_self _), haccepted, hx, hq⟩

/-- Two packets that are combined were live before. -/
theorem doubled_compact {x y : PacketId} (h : Doubled id (b.perform now (.compact x y)).2) :
    Doubled id (b.sweep now) := by
  rcases compact_cases now x y b with ⟨f, he⟩ | ⟨p, q, c, hp, hq, hc, he⟩
  · simp only [perform, he] at h
    exact h
  · simp only [perform, he] at h
    obtain ⟨hx, hlive | hnew⟩ := h.of_concat (entries_note _ _)
      (List.eraseP_sublist.trans List.eraseP_sublist) (Entry.hasExtra_of_combine hc id)
    · exact ⟨hx, hlive⟩
    · have hsingle (p : Packet) (hp : Entry.single p ∈ (b.sweep now).entries) :
          (b.sweep now).holds p.id = true :=
        holds_iff_exists.mpr ⟨_, hp, Entry.holds_iff.mpr ⟨p, if_pos rfl⟩⟩
      rcases Entry.eq_of_holds_combine hc hnew with rfl | rfl
      · exact ⟨hx, hsingle p (findSingle?_eq_some hp).2⟩
      · exact ⟨hx, hsingle q (findSingle?_eq_some hq).2⟩

theorem doubled_perform (hb : Integrity b.entries) (h : Doubled id (b.perform now r).2) :
    Doubled id (b.sweep now) ∨ Returned now r id b := by
  cases r with
  | insert p => exact doubled_insert h
  | insertCoded p q => exact doubled_insertCoded h
  | compact x y => exact .inl (doubled_compact h)
  | _ => exact .inl (h.of_remains (remains_perform now b rfl) (integrity_sweep hb now))

/-- Unless its pair has to make room, a packet is doubled by its return. -/
theorem Returned.doubled (h : Returned now r id b) (hfree : (b.sweep now).isFull = false) :
    Doubled id (b.perform now r).2 := by
  have hplaced {e : Entry} {after : Buffer} (hp : Placed (b.sweep now) e after)
      (he : e.holds id = true) : Doubled id after := by
    obtain ⟨hentries, -⟩ := hp.free hfree
    obtain ⟨f, hf, hfx⟩ := hasExtra_iff.mp h.lost
    constructor
    · exact hasExtra_iff.mpr ⟨f, by rw [hentries]; exact List.mem_append_left _ hf, hfx⟩
    · exact holds_iff_exists.mpr ⟨e, by rw [hentries]; exact List.mem_concat_self, he⟩
  have hbrought := h.brought
  have haccepted := h.accepted
  cases r with
  | insert p =>
    obtain rfl := List.mem_singleton.mp hbrought
    rcases insert_placed now p b with ⟨-, hp⟩ | hrefused
    · exact hplaced hp (Entry.holds_iff.mpr ⟨_, if_pos rfl⟩)
    · simp only [perform, Outcome.map, hrefused] at haccepted
      cases haccepted
  | insertCoded p q =>
    rcases insertCoded_placed now p q b with ⟨-, hp⟩ | ⟨f, -, hrefused⟩
    · exact hplaced hp (Entry.holds_intact hbrought)
    · simp only [perform, Outcome.map, hrefused] at haccepted
      cases haccepted
  | _ => cases hbrought

/-! ### Runs -/

theorem run_append (b : Buffer) (rs rs' : List (Time × Request)) :
    b.run (rs ++ rs') = (b.run rs).run rs' := by
  induction rs generalizing b with
  | nil => rfl
  | cons r rest ih => exact ih _

theorem run_concat (b : Buffer) (rs : List (Time × Request)) (now : Time) (r : Request) :
    b.run (rs ++ [(now, r)]) = ((b.run rs).perform now r).2 := run_append b rs _

/-- A doubled packet has returned at some time, and has been doubled ever since. -/
theorem exists_returned (hb : Integrity b.entries) (hnot : ¬ Doubled id b)
    {rs : List (Time × Request)} (h : Doubled id (b.run rs)) :
    ∃ earlier now r later, rs = earlier ++ (now, r) :: later ∧
      Returned now r id (b.run earlier) ∧
      ∀ since, since <+: later → Doubled id (b.run (earlier ++ (now, r) :: since)) := by
  induction rs using List.reverseRecOn with
  | nil => exact absurd h hnot
  | append_singleton rs x ih =>
    obtain ⟨now, r⟩ := x
    have hrs := integrity_run_of rs b hb
    have hd := h
    rw [run_concat] at hd
    rcases doubled_perform hrs hd with hd | hreturned
    · obtain ⟨earlier, t, r', later, rfl, hreturned, hsince⟩ :=
        ih (hd.of_remains (.sweep now _) hrs)
      refine ⟨earlier, t, r', later ++ [(now, r)], by simp, hreturned, fun since hstart => ?_⟩
      rcases List.prefix_concat_iff.mp hstart with rfl | hstart
      · simpa using h
      · exact hsince since hstart
    · refine ⟨rs, now, r, [], rfl, hreturned, fun since hstart => ?_⟩
      rw [List.prefix_nil.mp hstart]
      exact h

def SaysBoth (id : PacketId) (now : Time) (b : Buffer) : Prop :=
  (b.perform now (.ask (.existsAsExtra id))).1 = .ok (.flag true) ∧
    (b.perform now (.ask (.exists id))).1 = .ok (.flag true)

theorem SaysBoth.doubled (h : SaysBoth id now b) : Doubled id (b.sweep now) := by
  obtain ⟨hx, hlive⟩ := h
  simp only [perform, answer, Except.ok.injEq, Answer.flag.injEq] at hx hlive
  exact ⟨hx, hlive⟩

/-- No packet is live and the lost half of a pair as well, unless it came back: a request brought it
in while it was a lost half and not live, and it has been both ever since. A packet that comes back
into a buffer with room left is both at once, though never in one entry. -/
theorem extra_and_live (capacity : Nat) (lifetime : TimeSpan) (eviction : EvictionPolicy)
    (recording : Bool) (rs : List (Time × Request)) (now : Time) (id : PacketId) :
    let start := Buffer.new capacity lifetime eviction recording
    let b := start.run rs
    (SaysBoth id now b → ∃ earlier t r later, rs = earlier ++ (t, r) :: later ∧
      Returned t r id (start.run earlier) ∧
      ∀ since, since <+: later → Doubled id (start.run (earlier ++ (t, r) :: since))) ∧
    (∀ r, Returned now r id b → (b.sweep now).isFull = false →
      Doubled id (b.perform now r).2) ∧
    ∀ e ∈ (b.sweep now).entries, e.hasExtra id = true → e.holds id = false := by
  intro start b
  have hb : Integrity b.entries := integrity_run capacity lifetime eviction recording rs
  have hstart : Integrity start.entries := integrity_run capacity lifetime eviction recording []
  refine ⟨fun h => ?_, fun r h hfree => h.doubled hfree, fun e he hx => ?_⟩
  · refine exists_returned hstart ?_ (h.doubled.of_remains (.sweep now b) hb)
    rintro ⟨hx, -⟩
    cases hx
  · have hcross := (integrity_sweep hb now).crossed_entry he
    refine Bool.eq_false_iff.mpr fun hlive => ?_
    exact Entry.not_mem_liveIds_of_hasExtra hcross hx
      ((Entry.mem_liveIds_iff_holds hcross).mpr hlive)

/-- A pair loses a half, and the packet comes in again. -/
def returning : List (Time × Request) :=
  [(⟨0.0⟩, .insertCoded (.generate ⟨1⟩ ⟨0⟩ ⟨1⟩ ⟨0.0⟩) (.generate ⟨2⟩ ⟨1⟩ ⟨0⟩ ⟨0.0⟩)),
    (⟨1.0⟩, .remove ⟨1⟩), (⟨2.0⟩, .insert (.generate ⟨1⟩ ⟨0⟩ ⟨1⟩ ⟨0.0⟩))]

theorem returning_doubled :
    let start := Buffer.new 10 ⟨0.0⟩ ⟨.front, false⟩ false
    SaysBoth ⟨1⟩ ⟨3.0⟩ (start.run returning) ∧
      ∃ earlier t r later, returning = earlier ++ (t, r) :: later ∧
        Returned t r ⟨1⟩ (start.run earlier) := by
  intro start
  have h : SaysBoth ⟨1⟩ ⟨3.0⟩ (start.run returning) := ⟨by decide +kernel, by decide +kernel⟩
  obtain ⟨earlier, t, r, later, hsplit, hreturned, -⟩ :=
    (extra_and_live 10 ⟨0.0⟩ ⟨.front, false⟩ false returning ⟨3.0⟩ ⟨1⟩).1 h
  exact ⟨h, earlier, t, r, later, hsplit, hreturned⟩

/-- A buffer may say of a packet that it is there and that side information is left of it. -/
theorem returning_says_both :
    ¬ ∀ (capacity : Nat) (lifetime : TimeSpan) (eviction : EvictionPolicy) (recording : Bool)
      (rs : List (Time × Request)) (now : Time) (id : PacketId),
      ¬ SaysBoth id now ((Buffer.new capacity lifetime eviction recording).run rs) := by
  intro h
  exact h 10 ⟨0.0⟩ ⟨.front, false⟩ false returning ⟨3.0⟩ ⟨1⟩ ⟨by decide +kernel, by decide +kernel⟩

end Buffer

end OppNet
