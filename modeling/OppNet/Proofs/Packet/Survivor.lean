import OppNet.Proofs.Binary64.Order
import OppNet.Proofs.Packet.Entry

/-!
# OppNet.Proofs.Packet.Survivor

A coded pair from the time it is made: intact, until a half is lost, and then the other one for
good.

* `Entry.Change`: what can happen to an entry in its place. `Entry.after`, `Entry.run`: the entry
  after one change, and after many.
* `CodedPair.Passes ch c d`: what one change makes of a pair, with `Loses` for the change that costs
  it a half. `passes_after`: every change.
* `CodedPair.Coherent x y c`: what a pair of the packets `x` and `y` answers, whichever way it is
  asked. `coherent`: every pair of two packets that differ.
* `created_le`: no live packet was created before its entry.
* `coded_pair_coherent`: every pair that has been made, whatever has happened to it since.
-/

namespace OppNet

@[simp] theorem Side.other_other (s : Side) : s.other.other = s := by
  cases s <;> rfl

theorem Side.eq_or_eq_other (s t : Side) : t = s ∨ t = s.other := by
  cases s <;> cases t <;> simp [other]

namespace Entry

/-! ### Changes -/

/-- What can happen to an entry in its place. -/
inductive Change where
  | expire (now : Time) (lifetime : TimeSpan)
  | delete (id : PacketId)
  /-- A live packet is changed, and keeps its number. -/
  | update (id : PacketId) (f : Packet → Packet) (keeps : ∀ p, (f p).id = p.id)

/-- The entry afterwards. One that is gone as a whole is not changed; its place is. -/
def after (e : Entry) : Change → Entry
  | .expire now lifetime =>
    match e.expire now lifetime with
    | .half _ rest => rest
    | _ => e
  | .delete id =>
    match e with
    | single _ => e
    | coded c => ((c.deleteHalf? id).map coded).getD e
  | .update id f _ => (e.update? id f).getD e

def run (e : Entry) (changes : List Change) : Entry := changes.foldl after e

theorem run_concat (e : Entry) (changes : List Change) (ch : Change) :
    e.run (changes ++ [ch]) = (e.run changes).after ch := by
  rw [run, List.foldl_append]
  rfl

theorem run_append (e : Entry) (changes more : List Change) :
    e.run (changes ++ more) = (e.run changes).run more :=
  List.foldl_append

end Entry

namespace CodedPair

open Entry (Change)

variable {c d : CodedPair} {id : PacketId} {s : Side}

/-- The change costs an intact pair its half `s`, and leaves it the other one. -/
def Loses (c : CodedPair) (s : Side) : Change → Prop
  | .expire now lifetime =>
    (c.half s).isExpired now lifetime = true ∧ (c.half s.other).isExpired now lifetime = false
  | .delete id => (c.half s).id = id
  | .update _ _ _ => False

/-- What one change makes of a pair. -/
structure Passes (ch : Change) (c d : CodedPair) : Prop where
  first : d.first.id = c.first.id
  second : d.second.id = c.second.id
  /-- A pair that is down to one half keeps that one. -/
  settled : ∀ left, c.survivor = some left → d.survivor = some left
  /-- An intact pair is left with a half if the change costs it the other one, and only then. -/
  survives : c.survivor = none → ∀ left, d.survivor = some left ↔ c.Loses left.other ch

theorem Passes.kept {ch : Change} (hfirst : d.first.id = c.first.id)
    (hsecond : d.second.id = c.second.id) (hsurvivor : d.survivor = c.survivor)
    (h : c.survivor = none → ∀ s, ¬ c.Loses s ch) : Passes ch c d where
  first := hfirst
  second := hsecond
  settled left hleft := hsurvivor.trans hleft
  survives hnone left := by
    rw [hsurvivor, hnone]
    exact iff_of_false nofun (h hnone left.other)

theorem Passes.lost {ch : Change} (hnone : c.survivor = none) (h : c.Loses s ch)
    (hother : ¬ c.Loses s.other ch) : Passes ch c { c with survivor := some s.other } where
  first := rfl
  second := rfl
  settled left hleft := by
    rw [hnone] at hleft
    cases hleft
  survives _ left := by
    rcases Side.eq_or_eq_other s left with rfl | rfl
    · exact iff_of_false (by cases left <;> nofun) hother
    · rw [Side.other_other]
      exact iff_of_true rfl h

/-- A half that expires alone is lost; if both do, then the pair is left for the buffer to drop. -/
theorem passes_expire (c : CodedPair) (now : Time) (lifetime : TimeSpan) :
    ∃ d, (Entry.coded c).after (.expire now lifetime) = .coded d ∧
      Passes (.expire now lifetime) c d := by
  cases hs : c.survivor with
  | some left =>
    refine ⟨c, ?_, .kept rfl rfl rfl fun hnone => ?_⟩
    · simp only [Entry.after, Entry.expire, hs]
      cases (c.half left).isExpired now lifetime <;> rfl
    · rw [hs] at hnone
      cases hnone
  | none =>
    cases hf : c.first.isExpired now lifetime with
    | false =>
      cases hl : c.second.isExpired now lifetime with
      | false =>
        refine ⟨c, by simp only [Entry.after, Entry.expire, hs, hf, hl], .kept rfl rfl rfl ?_⟩
        intro _ s
        cases s <;> simp [Loses, half, hf, hl]
      | true =>
        refine ⟨{ c with survivor := some .first }, ?_, .lost (s := .second) hs ⟨hl, hf⟩ ?_⟩
        · simp only [Entry.after, Entry.expire, hs, hf, hl]
        · simp [Loses, half, Side.other, hf]
    | true =>
      cases hl : c.second.isExpired now lifetime with
      | false =>
        refine ⟨{ c with survivor := some .second }, ?_, .lost (s := .first) hs ⟨hf, hl⟩ ?_⟩
        · simp only [Entry.after, Entry.expire, hs, hf, hl]
        · simp [Loses, half, Side.other, hl]
      | true =>
        refine ⟨c, by simp only [Entry.after, Entry.expire, hs, hf, hl], .kept rfl rfl rfl ?_⟩
        intro _ s
        cases s <;> simp [Loses, half, Side.other, hf, hl]

theorem passes_delete (hc : c.first.id ≠ c.second.id) (id : PacketId) :
    ∃ d, (Entry.coded c).after (.delete id) = .coded d ∧ Passes (.delete id) c d := by
  cases hs : c.survivor with
  | some left =>
    refine ⟨c, by simp only [Entry.after, deleteHalf?, hs, Option.map_none, Option.getD_none],
      .kept rfl rfl rfl fun hnone => ?_⟩
    rw [hs] at hnone
    cases hnone
  | none =>
    cases hside : c.sideOf? id with
    | none =>
      refine ⟨c, ?_, .kept rfl rfl rfl fun _ s hloses => ?_⟩
      · simp only [Entry.after, deleteHalf?, hs, hside, Option.map_none, Option.getD_none]
      · rw [(sideOf?_eq_some_iff hc).mpr hloses] at hside
        cases hside
    | some s =>
      refine ⟨{ c with survivor := some s.other }, ?_,
        .lost hs (sideOf?_id hside) fun hloses => ?_⟩
      · simp only [Entry.after, deleteHalf?, hs, hside, Option.map_some, Option.getD_some]
      · rw [(sideOf?_eq_some_iff hc).mpr hloses] at hside
        cases s <;> cases hside

theorem passes_update (c : CodedPair) (id : PacketId) (f : Packet → Packet)
    (keeps : ∀ p, (f p).id = p.id) :
    ∃ d, (Entry.coded c).after (.update id f keeps) = .coded d ∧
      Passes (.update id f keeps) c d := by
  cases hs : c.liveSide? id with
  | none =>
    refine ⟨c, ?_, .kept rfl rfl rfl fun _ _ h => h⟩
    simp only [Entry.after, Entry.update?, hs, Option.map_none, Option.getD_none]
  | some s =>
    refine ⟨c.setHalf s (f (c.half s)), ?_, ?_⟩
    · simp only [Entry.after, Entry.update?, hs, Option.map_some, Option.getD_some]
    · cases s with
      | first => exact .kept (keeps c.first) rfl rfl fun _ _ h => h
      | second => exact .kept rfl (keeps c.second) rfl fun _ _ h => h

theorem passes_after (hc : c.first.id ≠ c.second.id) (ch : Change) :
    ∃ d, (Entry.coded c).after ch = .coded d ∧ Passes ch c d := by
  cases ch with
  | expire now lifetime => exact passes_expire c now lifetime
  | delete id => exact passes_delete hc id
  | update id f keeps => exact passes_update c id f keeps

theorem passes_run (hc : c.first.id ≠ c.second.id) (changes : List Change) :
    ∃ d, (Entry.coded c).run changes = .coded d ∧ d.first.id = c.first.id ∧
      d.second.id = c.second.id ∧ ∀ left, c.survivor = some left → d.survivor = some left := by
  induction changes generalizing c with
  | nil => exact ⟨c, rfl, rfl, rfl, fun _ h => h⟩
  | cons ch rest ih =>
    obtain ⟨c', hafter, hpasses⟩ := passes_after hc ch
    have hc' : c'.first.id ≠ c'.second.id := by rwa [hpasses.first, hpasses.second]
    obtain ⟨d, hrun, hfirst, hsecond, hsettled⟩ := ih hc'
    refine ⟨d, ?_, hfirst.trans hpasses.first, hsecond.trans hpasses.second, fun left hleft => ?_⟩
    · rw [← hrun, ← hafter]
      rfl
    · exact hsettled left (hpasses.settled left hleft)

end CodedPair

/-! ### Creation times -/

namespace Entry

theorem earlier_le_left (s t : Time) : earlier s t ≤ s := by
  unfold earlier
  split
  · rename_i hlt
    exact Std.le_of_lt hlt
  · exact Std.le_refl s

theorem earlier_le_right (s t : Time) : earlier s t ≤ t := by
  unfold earlier
  split
  · exact Std.le_refl t
  · rename_i hnot
    exact Std.not_lt.mp hnot

theorem foldl_earlier_le (ps : List Packet) (t : Time) :
    ps.foldl (fun t q => earlier t q.created) t ≤ t ∧
      ∀ p ∈ ps, ps.foldl (fun t q => earlier t q.created) t ≤ p.created := by
  induction ps generalizing t with
  | nil => exact ⟨Std.le_refl t, nofun⟩
  | cons p rest ih =>
    obtain ⟨hstart, hrest⟩ := ih (earlier t p.created)
    refine ⟨Std.le_trans hstart (earlier_le_left t p.created), fun q hq => ?_⟩
    rcases List.mem_cons.mp hq with rfl | hq
    · exact Std.le_trans hstart (earlier_le_right t q.created)
    · exact hrest q hq

theorem created_le {e : Entry} {p : Packet} (h : p ∈ e.livePackets) : e.created ≤ p.created := by
  unfold created
  split
  · rename_i hnil
    exact absurd hnil e.livePackets_ne_nil
  · rename_i q rest hlive
    rw [hlive] at h
    rcases List.mem_cons.mp h with rfl | hrest
    · exact (foldl_earlier_le rest p.created).1
    · exact (foldl_earlier_le rest q.created).2 p hrest

end Entry

/-! ### Queries -/

namespace CodedPair

variable {c : CodedPair} {id a b x y : PacketId} {s : Side}

/-- Either whoever asks for the packet gets the same live half, or nobody gets anything. -/
inductive Answers (c : CodedPair) (id : PacketId) : Prop where
  | live (s : Side) (numbered : (c.half s).id = id) (left : c.isLive s = true)
    (side : c.liveSide? id = some s) (found : (Entry.coded c).find? id = some (c.half s))
    (changed : ∀ f, (Entry.coded c).update? id f = some (.coded (c.setHalf s (f (c.half s)))))
    (listed : id ∈ (Entry.coded c).liveIds)
  | missing (side : c.liveSide? id = none) (found : (Entry.coded c).find? id = none)
    (changed : ∀ f, (Entry.coded c).update? id f = none)
    (listed : id ∉ (Entry.coded c).liveIds)

/-- What a pair of the packets `x` and `y` answers. -/
structure Coherent (x y : PacketId) (c : CodedPair) : Prop where
  answers : ∀ id, c.Answers id
  /-- Each of the two packets is either live or the extra. -/
  live : ∀ id, id ∈ (Entry.coded c).liveIds ↔ (id = x ∨ id = y) ∧ c.extra? ≠ some id
  extra : ∀ id, c.extra? = some id → id = x ∨ id = y
  /-- The packets that have a partner are those of an intact pair, and it is the other one. -/
  partner : ∀ a b, c.partner? a = some b ↔
    a ∈ (Entry.coded c).liveIds ∧ b ∈ (Entry.coded c).liveIds ∧ a ≠ b
  combines : ∀ a b, c.combines a b = true ↔ a = x ∧ b = y ∨ a = y ∧ b = x
  created : ∃ p ∈ c.livePackets, p.created = (Entry.coded c).created ∧
    ∀ q ∈ c.livePackets, (Entry.coded c).created ≤ q.created

theorem mem_liveIds_intact (hs : c.survivor = none) :
    id ∈ (Entry.coded c).liveIds ↔ id = c.first.id ∨ id = c.second.id := by
  simp [livePackets_of_intact hs]

theorem mem_liveIds_survivor {left : Side} (hs : c.survivor = some left) :
    id ∈ (Entry.coded c).liveIds ↔ id = (c.half left).id := by
  simp [livePackets_of_survivor hs]

theorem eq_or_eq_half (c : CodedPair) (s : Side) :
    id = c.first.id ∨ id = c.second.id ↔ id = (c.half s).id ∨ id = (c.half s.other).id := by
  cases s with
  | first => rfl
  | second => exact or_comm

section

variable (hc : c.first.id ≠ c.second.id)
include hc

theorem half_ne_half (s : Side) : (c.half s).id ≠ (c.half s.other).id := by
  cases s with
  | first => exact hc
  | second => exact hc.symm

theorem liveSide?_eq_some_iff :
    c.liveSide? id = some s ↔ (c.half s).id = id ∧ c.isLive s = true := by
  rw [liveSide?, Option.filter_eq_some_iff, sideOf?_eq_some_iff hc]

theorem answers (id : PacketId) : c.Answers id := by
  cases hs : c.liveSide? id with
  | some s =>
    obtain ⟨hid, hlive⟩ := (liveSide?_eq_some_iff hc).mp hs
    have hfind : (Entry.coded c).find? id = some (c.half s) := by
      rw [Entry.find?, hs, Option.map_some]
    refine .live s hid hlive hs hfind (fun f => ?_) (Entry.mem_liveIds_of_find? hfind)
    rw [Entry.update?, hs, Option.map_some]
  | none =>
    refine .missing hs ?_ (fun f => ?_) fun hlisted => ?_
    · rw [Entry.find?, hs, Option.map_none]
    · rw [Entry.update?, hs, Option.map_none]
    · obtain ⟨p, hp, rfl⟩ := List.mem_map.mp hlisted
      obtain ⟨s, hlive, rfl⟩ := mem_livePackets.mp hp
      rw [(liveSide?_eq_some_iff hc).mpr ⟨rfl, hlive⟩] at hs
      cases hs

theorem mem_liveIds_iff : id ∈ (Entry.coded c).liveIds ↔
    (id = c.first.id ∨ id = c.second.id) ∧ c.extra? ≠ some id := by
  cases hs : c.survivor with
  | none =>
    rw [mem_liveIds_intact hs]
    simp [extra?, hs]
  | some left =>
    have hextra : c.extra? = some (c.half left.other).id := by rw [extra?, hs, Option.map_some]
    rw [mem_liveIds_survivor hs, hextra, eq_or_eq_half c left]
    constructor
    · rintro rfl
      exact ⟨.inl rfl, fun h => half_ne_half hc left (Option.some.inj h).symm⟩
    · rintro ⟨hid | rfl, hother⟩
      · exact hid
      · exact absurd rfl hother

theorem partner?_half (hs : c.survivor = none) (s : Side) :
    c.partner? (c.half s).id = some (c.half s.other).id := by
  simp only [partner?, hs, (sideOf?_eq_some_iff hc).mpr rfl, Option.map_some]

theorem partner?_eq_some_iff : c.partner? a = some b ↔
    a ∈ (Entry.coded c).liveIds ∧ b ∈ (Entry.coded c).liveIds ∧ a ≠ b := by
  cases hs : c.survivor with
  | some left =>
    rw [mem_liveIds_survivor hs, mem_liveIds_survivor hs]
    refine iff_of_false ?_ fun ⟨ha, hb, hne⟩ => hne (ha.trans hb.symm)
    simp only [partner?, hs]
    nofun
  | none =>
    rw [mem_liveIds_intact hs, mem_liveIds_intact hs]
    constructor
    · intro h
      simp only [partner?, hs] at h
      obtain ⟨s, hside, rfl⟩ := Option.map_eq_some_iff.mp h
      obtain rfl := sideOf?_id hside
      exact ⟨(eq_or_eq_half c s).mpr (.inl rfl), (eq_or_eq_half c s).mpr (.inr rfl),
        half_ne_half hc s⟩
    · rintro ⟨ha, hb, hne⟩
      obtain ⟨s, rfl⟩ : ∃ s, a = (c.half s).id := by
        rcases ha with rfl | rfl
        · exact ⟨.first, rfl⟩
        · exact ⟨.second, rfl⟩
      rcases (eq_or_eq_half c s).mp hb with rfl | rfl
      · exact absurd rfl hne
      · exact partner?_half hc hs s

end

theorem extra?_eq_some (h : c.extra? = some id) : id = c.first.id ∨ id = c.second.id := by
  obtain ⟨left, -, rfl⟩ := Option.map_eq_some_iff.mp h
  cases left with
  | first => exact .inr rfl
  | second => exact .inl rfl

theorem coherent (hc : c.first.id ≠ c.second.id) : Coherent c.first.id c.second.id c where
  answers := answers hc
  live _ := mem_liveIds_iff hc
  extra _ := extra?_eq_some
  partner _ _ := partner?_eq_some_iff hc
  combines a b := by
    simp only [combines, Bool.or_eq_true, Bool.and_eq_true, beq_iff_eq]
    constructor
    · rintro (⟨rfl, rfl⟩ | ⟨rfl, rfl⟩)
      · exact .inl ⟨rfl, rfl⟩
      · exact .inr ⟨rfl, rfl⟩
    · rintro (⟨rfl, rfl⟩ | ⟨rfl, rfl⟩)
      · exact .inl ⟨rfl, rfl⟩
      · exact .inr ⟨rfl, rfl⟩
  created := by
    obtain ⟨p, hp, hcreated⟩ := (Entry.coded c).exists_created
    exact ⟨p, hp, hcreated, fun q hq => Entry.created_le hq⟩

end CodedPair

/-! ### From the start -/

namespace Entry

open CodedPair (combine_ok passes_run passes_after coherent)

/--
A pair of two packets stays one of the same two, whatever happens to it in its place, and its
answers fit together. It is intact at first. The first change that costs it one half leaves it the
other one, and it keeps that one from then on.
-/
theorem coded_pair_coherent {p q : Packet} {c : CodedPair} (h : CodedPair.combine p q = .ok c)
    (changes : List Change) : c.survivor = none ∧
      ∃ d, (coded c).run changes = coded d ∧ d.Coherent p.id q.id ∧
        (∀ ch, ∃ d', (coded c).run (changes ++ [ch]) = coded d' ∧ d.Passes ch d') ∧
        ∀ more, ∃ d', (coded c).run (changes ++ more) = coded d' ∧
          ∀ left, d.survivor = some left → d'.survivor = some left := by
  obtain ⟨rfl, hcrossed⟩ := combine_ok h
  obtain ⟨d, hrun, hfirst, hsecond, -⟩ := passes_run hcrossed.1 changes
  have hne : d.first.id ≠ d.second.id := by
    rw [hfirst, hsecond]
    exact hcrossed.1
  refine ⟨rfl, d, hrun, ?_, fun ch => ?_, fun more => ?_⟩
  · have hcoherent := coherent hne
    rwa [hfirst, hsecond] at hcoherent
  · rw [run_concat, hrun]
    exact passes_after hne ch
  · obtain ⟨d', hmore, -, -, hsettled⟩ := passes_run hne more
    exact ⟨d', by rw [run_append, hrun, hmore], hsettled⟩

/-- The first half expires alone. After that the pair can neither be deleted down to the first half,
nor does it change when the second one has expired too. -/
theorem half_expired_coherent :
    let p := Packet.generate ⟨1⟩ ⟨0⟩ ⟨1⟩ ⟨0.0⟩
    let q := Packet.generate ⟨2⟩ ⟨1⟩ ⟨0⟩ ⟨20.0⟩
    let changes : List Change := [.expire ⟨50.0⟩ ⟨100.0⟩,
      .update ⟨2⟩ (fun q => { q with replicas := 4 }) fun _ => rfl, .expire ⟨110.0⟩ ⟨100.0⟩,
      .delete ⟨2⟩, .expire ⟨130.0⟩ ⟨100.0⟩]
    let d : CodedPair := ⟨p, { q with replicas := 4 }, some .second⟩
    CodedPair.combine p q = .ok ⟨p, q, none⟩ ∧
      (coded ⟨p, q, none⟩).run changes = coded d ∧ d.Coherent ⟨1⟩ ⟨2⟩ := by
  intro p q changes d
  have h : CodedPair.combine p q = .ok ⟨p, q, none⟩ := rfl
  have hrun : (coded ⟨p, q, none⟩).run changes = coded d := by decide +kernel
  obtain ⟨-, d', hrun', hcoherent, -⟩ := coded_pair_coherent h changes
  obtain rfl : d = d' := coded.inj (hrun.symm.trans hrun')
  exact ⟨h, hrun, hcoherent⟩

end Entry

end OppNet
