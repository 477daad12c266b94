import OppNet.Proofs.Binary64.Positive
import OppNet.Proofs.Random.Draw
import OppNet.Proofs.Simulator.Pending
import OppNet.Trace

/-!
# OppNet.Proofs.Trace

What a synthetic trace looks like, whatever words it is drawn from.

* `Contact.Sound`, `Generation.Sound`, `Checkpoint`: what is drawn one at a time, kept by the three
  loops (`contactsFrom_sound`, `generationsFrom_sound`, `checkpointsFrom_sound`).
* `exists_parts`: a trace that was drawn is made of such parts.
* `WellFormed`: what this says about the list of events.
* `sample_wellFormed`: every trace that is drawn is well formed, and an empty queue takes all of it.
-/

namespace OppNet

open OppNet.Random (Distribution Draw Generator Source)
open OppNet.Random.Draw (bind_eq_ok pure_eq_ok)
open Binary64

/-- Two different nodes among the first `nodes`. -/
structure Apart (nodes : Nat) (a b : NodeId) : Prop where
  ne : a ≠ b
  left : a.index < nodes
  right : b.index < nodes

/-- A contact between two different nodes that begins before the end and is long enough. -/
structure Contact.Sound (s : Scenario) (c : Contact) : Prop where
  apart : Apart s.nodes c.a c.b
  pos : 0.0 < c.start
  before : c.start < s.duration.seconds
  long : Trace.minSpan ≤ c.length

/-- A packet between two different nodes that is created before the end. -/
structure Generation.Sound (s : Scenario) (g : Generation) : Prop where
  apart : Apart s.nodes g.source g.destination
  pos : 0.0 < g.time
  before : g.time < s.duration.seconds

/-- A checkpoint before the end. -/
structure Event.Checkpoint (s : Scenario) (e : Event) : Prop where
  kind : e.kind = .checkpoint
  pos : 0.0 < e.time.sinceStart
  before : e.time.sinceStart < s.duration.seconds

namespace Trace

variable {σ : Type} [Source σ] {s : Scenario} {g g' : σ} {fuel : Nat} {t : Float}

/-! ### Single draws -/

theorem minSpan_pos : 0.0 < minSpan := by decide +kernel

theorem minSpan_le_span {d : Distribution} {x : Float} (h : span d g = .ok (x, g')) :
    minSpan ≤ x := by
  obtain ⟨y, g₁, _, hy⟩ := bind_eq_ok h
  obtain rfl := pure_eq_ok hy
  exact le_largerOf (isNaN_of_pos minSpan_pos)

theorem span_pos {d : Distribution} {x : Float} (h : span d g = .ok (x, g')) : 0.0 < x :=
  pos_of_le minSpan_pos (minSpan_le_span h)

theorem distinctPair_apart {nodes : Nat} {p : NodeId × NodeId}
    (h : distinctPair nodes g = .ok (p, g')) : Apart nodes p.1 p.2 := by
  obtain ⟨a, g₁, ha, h⟩ := bind_eq_ok h
  obtain ⟨b, g₂, hb, h⟩ := bind_eq_ok h
  obtain rfl := pure_eq_ok h
  have ha := Random.Uniform.integer_bounds ha
  have hb := Random.Uniform.integer_bounds hb
  refine ⟨fun he => ?_, ha.2, ?_⟩
  · have hindex : a = if a ≤ b then b + 1 else b := congrArg NodeId.index he
    split at hindex <;> omega
  · dsimp only
    split <;> omega

/-! ### Loops -/

theorem contactsFrom_sound {soFar cs : List Contact} (ht : 0.0 < t) (hs : ∀ c ∈ soFar, c.Sound s)
    (h : contactsFrom s fuel t soFar g = .ok (cs, g')) : ∀ c ∈ cs, c.Sound s := by
  -- Every gap is above zero, so the time stays above zero from one contact to the next.
  induction fuel generalizing t soFar g with
  | zero => cases h
  | succ fuel ih =>
    rw [contactsFrom] at h
    split at h
    · rename_i hbefore
      obtain ⟨⟨a, b⟩, g₁, hpair, h⟩ := bind_eq_ok h
      obtain ⟨length, g₂, hlength, h⟩ := bind_eq_ok h
      obtain ⟨gap, g₃, hgap, h⟩ := bind_eq_ok h
      refine ih (add_pos ht (span_pos hgap)) (fun c hc => ?_) h
      rcases List.mem_cons.mp hc with rfl | hc
      · exact ⟨distinctPair_apart hpair, ht, hbefore, minSpan_le_span hlength⟩
      · exact hs c hc
    · obtain rfl := pure_eq_ok h
      exact fun c hc => hs c (List.mem_reverse.mp hc)

theorem generationsFrom_sound {soFar gs : List Generation} (ht : 0.0 < t)
    (hs : ∀ x ∈ soFar, x.Sound s) (h : generationsFrom s fuel t soFar g = .ok (gs, g')) :
    ∀ x ∈ gs, x.Sound s := by
  induction fuel generalizing t soFar g with
  | zero => cases h
  | succ fuel ih =>
    rw [generationsFrom] at h
    split at h
    · rename_i hbefore
      obtain ⟨⟨source, destination⟩, g₁, hpair, h⟩ := bind_eq_ok h
      obtain ⟨gap, g₂, hgap, h⟩ := bind_eq_ok h
      refine ih (add_pos ht (span_pos hgap)) (fun x hx => ?_) h
      rcases List.mem_cons.mp hx with rfl | hx
      · exact ⟨distinctPair_apart hpair, ht, hbefore⟩
      · exact hs x hx
    · obtain rfl := pure_eq_ok h
      exact fun x hx => hs x (List.mem_reverse.mp hx)

omit [Source σ] in
theorem checkpointsFrom_sound {soFar es : List Event} (ht : 0.0 < t)
    (hinterval : 0.0 < s.trace.checkpointInterval.seconds) (hs : ∀ e ∈ soFar, e.Checkpoint s)
    (h : checkpointsFrom s fuel t soFar g = .ok (es, g')) : ∀ e ∈ es, e.Checkpoint s := by
  induction fuel generalizing t soFar with
  | zero => cases h
  | succ fuel ih =>
    rw [checkpointsFrom] at h
    split at h
    · rename_i hbefore
      refine ih (add_pos ht hinterval) (fun e he => ?_) h
      rcases List.mem_cons.mp he with rfl | he
      · have htime : (⟨t⟩ : Time).sinceStart = t := Time.sinceStart_mk t
        exact ⟨rfl, htime.symm ▸ ht, htime.symm ▸ hbefore⟩
      · exact hs e he
    · obtain rfl := pure_eq_ok h
      exact fun e he => hs e (List.mem_reverse.mp he)

/-! ### Parts -/

theorem sampleContacts_sound {cs : List Contact} (h : sampleContacts s g = .ok (cs, g')) :
    (∀ c ∈ cs, c.Sound s) ∧ (s.nodes < 2 → cs = []) := by
  unfold sampleContacts at h
  split at h
  · obtain rfl := pure_eq_ok h
    exact ⟨List.forall_mem_nil _, fun _ => rfl⟩
  · rename_i hnodes
    obtain ⟨start, g₁, hstart, h⟩ := bind_eq_ok h
    have hsound := contactsFrom_sound (span_pos hstart) (List.forall_mem_nil _) h
    exact ⟨hsound, fun hfew => absurd hfew hnodes⟩

theorem sampleGenerations_sound {gs : List Generation}
    (h : sampleGenerations s g = .ok (gs, g')) :
    (∀ x ∈ gs, x.Sound s) ∧ (s.nodes < 2 → gs = []) := by
  unfold sampleGenerations at h
  split at h
  · obtain rfl := pure_eq_ok h
    exact ⟨List.forall_mem_nil _, fun _ => rfl⟩
  · rename_i hnodes
    obtain ⟨start, g₁, hstart, h⟩ := bind_eq_ok h
    have hsound := generationsFrom_sound (span_pos hstart) (List.forall_mem_nil _) h
    exact ⟨hsound, fun hfew => absurd hfew hnodes⟩

omit [Source σ] in
theorem sampleCheckpoints_sound {es : List Event} (h : sampleCheckpoints s g = .ok (es, g')) :
    ∀ e ∈ es, e.Checkpoint s := by
  unfold sampleCheckpoints at h
  split at h
  · rename_i hinterval
    exact checkpointsFrom_sound hinterval hinterval (List.forall_mem_nil _) h
  · obtain rfl := pure_eq_ok h
    exact List.forall_mem_nil _

/-- What a trace is made of. -/
structure MadeOf (s : Scenario) (cs : List Contact) (gs : List Generation) (es : List Event) :
    Prop where
  contacts : ∀ c ∈ cs, c.Sound s
  generations : ∀ x ∈ gs, x.Sound s
  checkpoints : ∀ e ∈ es, e.Checkpoint s
  alone : s.nodes < 2 → cs = [] ∧ gs = []

theorem exists_parts {trace : Trace} (h : sample s g = .ok (trace, g')) :
    ∃ cs gs es, MadeOf s cs gs es ∧ trace = ofParts cs gs es := by
  obtain ⟨cs, g₁, hcs, h⟩ := bind_eq_ok h
  obtain ⟨gs, g₂, hgs, h⟩ := bind_eq_ok h
  obtain ⟨es, g₃, hes, h⟩ := bind_eq_ok h
  obtain rfl := pure_eq_ok h
  obtain ⟨hcontacts, hnone⟩ := sampleContacts_sound hcs
  obtain ⟨hgenerations, hnone'⟩ := sampleGenerations_sound hgs
  exact ⟨cs, gs, es, ⟨hcontacts, hgenerations, sampleCheckpoints_sound hes,
    fun hfew => ⟨hnone hfew, hnone' hfew⟩⟩, rfl⟩

/-! ### Lists of events -/

/-- Contacts come in pairs of neighbours, whatever follows them. -/
theorem getElem?_of_contactUp {cs : List Contact} {rest : List Event} {i : Nat} {time : Time}
    {a b : NodeId} (hrest : ∀ e ∈ rest, e.kind ≠ .contactUp a b)
    (h : (cs.flatMap Contact.events ++ rest)[i]? = some ⟨time, .contactUp a b⟩) :
    ∃ c ∈ cs, time = ⟨c.start⟩ ∧
      (cs.flatMap Contact.events ++ rest)[i + 1]? =
        some ⟨time.after ⟨c.length⟩, .contactDown a b⟩ := by
  induction cs generalizing i with
  | nil => exact absurd rfl (hrest _ (List.mem_of_getElem? h))
  | cons c cs ih =>
    match i with
    | 0 =>
      cases h
      exact ⟨c, List.mem_cons_self, rfl, rfl⟩
    | 1 => cases h
    | i + 2 =>
      obtain ⟨c', hc', htime, hnext⟩ := ih h
      exact ⟨c', List.mem_cons_of_mem c hc', htime, hnext⟩

theorem getElem?_of_contactDown {cs : List Contact} {rest : List Event} {i : Nat} {time : Time}
    {a b : NodeId} (hrest : ∀ e ∈ rest, e.kind ≠ .contactDown a b)
    (h : (cs.flatMap Contact.events ++ rest)[i]? = some ⟨time, .contactDown a b⟩) :
    ∃ j start, i = j + 1 ∧
      (cs.flatMap Contact.events ++ rest)[j]? = some ⟨start, .contactUp a b⟩ := by
  induction cs generalizing i with
  | nil => exact absurd rfl (hrest _ (List.mem_of_getElem? h))
  | cons c cs ih =>
    match i with
    | 0 => cases h
    | 1 =>
      cases h
      exact ⟨0, _, rfl, rfl⟩
    | i + 2 =>
      obtain ⟨j, start, rfl, hbefore⟩ := ih h
      exact ⟨j + 2, start, rfl, hbefore⟩

theorem ups_contacts (cs : List Contact) : ups (cs.flatMap Contact.events) = cs.length := by
  induction cs with
  | nil => rfl
  | cons c cs ih =>
    have hpair : ups (Contact.events c) = 1 := rfl
    rw [List.flatMap_cons, ups_append, hpair, ih, List.length_cons, Nat.add_comm]

theorem births_contacts (cs : List Contact) : births (cs.flatMap Contact.events) = [] := by
  refine List.filterMap_eq_nil_iff.mpr fun e he => ?_
  obtain ⟨c, _, hce⟩ := List.mem_flatMap.mp he
  rcases List.mem_pair.mp hce with rfl | rfl <;> rfl

/-- Packets are numbered in the order of their generations. -/
theorem births_generations (gs : List Generation) :
    births (gs.zipIdx.map fun (x, i) => x.event i) = (List.range gs.length).map PacketId.mk := by
  rw [births, List.filterMap_map, List.range_eq_range', ← List.zipIdx_map_snd 0 gs, List.map_map,
    ← List.filterMap_eq_map]
  rfl

/--
What can be relied on in a synthetic trace. A time that is above zero is neither the NaN nor
negative.
-/
structure WellFormed (s : Scenario) (t : Trace) : Prop where
  begins : ∀ i time a b, t.events[i]? = some ⟨time, .contactUp a b⟩ →
    ∃ length, minSpan ≤ length ∧ t.events[i + 1]? = some ⟨time.after ⟨length⟩, .contactDown a b⟩
  ends : ∀ i time a b, t.events[i]? = some ⟨time, .contactDown a b⟩ →
    ∃ j start, i = j + 1 ∧ t.events[j]? = some ⟨start, .contactUp a b⟩
  contacts : t.contacts = ups t.events
  meetings : ∀ e ∈ t.events, ∀ a b, e.kind = .contactUp a b → Apart s.nodes a b
  packets : (List.range t.packets).map PacketId.mk = births t.events
  generations : ∀ e ∈ t.events, ∀ a b id valid, e.kind = .generation a b id valid →
    Apart s.nodes a b ∧ valid = true
  transmissions : ∀ e ∈ t.events, ∀ a b id valid, e.kind ≠ .transmission a b id valid
  positive : ∀ e ∈ t.events, 0.0 < e.time.sinceStart
  before : ∀ e ∈ t.events, (∀ a b, e.kind ≠ .contactDown a b) →
    e.time.sinceStart < s.duration.seconds
  alone : s.nodes < 2 → ∀ e ∈ t.events, e.kind = .checkpoint

namespace MadeOf

variable {cs : List Contact} {gs : List Generation} {es : List Event} {e : Event}

/-- The courses an event of a trace can be. -/
theorem mem_events (h : MadeOf s cs gs es) (he : e ∈ (ofParts cs gs es).events) :
    (∃ c ∈ cs, c.Sound s ∧ (e = ⟨⟨c.start⟩, .contactUp c.a c.b⟩ ∨
      e = ⟨(⟨c.start⟩ : Time).after ⟨c.length⟩, .contactDown c.a c.b⟩)) ∨
    (∃ x ∈ gs, x.Sound s ∧ ∃ i, e = x.event i) ∨ e.Checkpoint s := by
  rcases List.mem_append.mp he with he | he
  · rcases List.mem_append.mp he with he | he
    · obtain ⟨c, hc, hce⟩ := List.mem_flatMap.mp he
      refine .inl ⟨c, hc, h.contacts c hc, ?_⟩
      simpa [Contact.events] using hce
    · obtain ⟨⟨x, i⟩, hx, rfl⟩ := List.mem_map.mp he
      have hmem := List.fst_mem_of_mem_zipIdx hx
      exact .inr (.inl ⟨x, hmem, h.generations x hmem, i, rfl⟩)
  · exact .inr (.inr (h.checkpoints e he))

/-- No contact is left behind the contacts. -/
theorem kind_of_mem_rest (h : MadeOf s cs gs es)
    (he : e ∈ gs.zipIdx.map (fun (x, i) => x.event i) ++ es) (a b : NodeId) :
    e.kind ≠ .contactUp a b ∧ e.kind ≠ .contactDown a b := by
  rcases List.mem_append.mp he with he | he
  · obtain ⟨⟨x, i⟩, _, rfl⟩ := List.mem_map.mp he
    exact ⟨nofun, nofun⟩
  · rw [(h.checkpoints e he).kind]
    exact ⟨nofun, nofun⟩

theorem events_eq (cs : List Contact) (gs : List Generation) (es : List Event) :
    (ofParts cs gs es).events = cs.flatMap Contact.events ++
      (gs.zipIdx.map (fun (x, i) => x.event i) ++ es) :=
  List.append_assoc _ _ _

theorem ups_events (h : MadeOf s cs gs es) : ups (ofParts cs gs es).events = cs.length := by
  have hrest : ups (gs.zipIdx.map (fun (x, i) => x.event i) ++ es) = 0 := by
    refine List.countP_eq_zero.mpr fun e he => ?_
    cases hk : e.kind with
    | contactUp a b => exact absurd hk (h.kind_of_mem_rest he a b).1
    | _ => nofun
  rw [events_eq, ups_append, ups_contacts, hrest, Nat.add_zero]

theorem births_events (h : MadeOf s cs gs es) :
    births (ofParts cs gs es).events = (List.range gs.length).map PacketId.mk := by
  have hchecks : births es = [] :=
    List.filterMap_eq_nil_iff.mpr fun e he => by rw [(h.checkpoints e he).kind]; rfl
  rw [events_eq, births_append, births_append, births_contacts, births_generations, hchecks,
    List.append_nil, List.nil_append]

theorem wellFormed (h : MadeOf s cs gs es) : WellFormed s (ofParts cs gs es) where
  begins i time a b he := by
    rw [events_eq] at he ⊢
    obtain ⟨c, hc, -, hnext⟩ := getElem?_of_contactUp
      (fun e hmem => (h.kind_of_mem_rest hmem a b).1) he
    exact ⟨c.length, (h.contacts c hc).long, hnext⟩
  ends i time a b he := by
    rw [events_eq] at he ⊢
    exact getElem?_of_contactDown (fun e hmem => (h.kind_of_mem_rest hmem a b).2) he
  contacts := h.ups_events.symm
  meetings e he a b hk := by
    rcases h.mem_events he with ⟨c, _, hc, rfl | rfl⟩ | ⟨x, _, _, i, rfl⟩ | hcheck
    · cases hk
      exact hc.apart
    · cases hk
    · cases hk
    · rw [hcheck.kind] at hk
      cases hk
  packets := h.births_events.symm
  generations e he a b id valid hk := by
    rcases h.mem_events he with ⟨c, _, hc, rfl | rfl⟩ | ⟨x, _, hx, i, rfl⟩ | hcheck
    · cases hk
    · cases hk
    · cases hk
      exact ⟨hx.apart, rfl⟩
    · rw [hcheck.kind] at hk
      cases hk
  transmissions e he a b id valid hk := by
    rcases h.mem_events he with ⟨c, _, hc, rfl | rfl⟩ | ⟨x, _, hx, i, rfl⟩ | hcheck
    · cases hk
    · cases hk
    · cases hk
    · rw [hcheck.kind] at hk
      cases hk
  positive e he := by
    rcases h.mem_events he with ⟨c, _, hc, rfl | rfl⟩ | ⟨x, _, hx, i, rfl⟩ | hcheck
    · rw [Time.sinceStart_mk]
      exact hc.pos
    · rw [Time.sinceStart_after, Time.sinceStart_mk, TimeSpan.seconds_mk]
      exact add_pos hc.pos (pos_of_le minSpan_pos hc.long)
    · rw [Generation.event, Time.sinceStart_mk]
      exact hx.pos
    · exact hcheck.pos
  before e he hk := by
    rcases h.mem_events he with ⟨c, _, hc, rfl | rfl⟩ | ⟨x, _, hx, i, rfl⟩ | hcheck
    · rw [Time.sinceStart_mk]
      exact hc.before
    · exact absurd rfl (hk c.a c.b)
    · rw [Generation.event, Time.sinceStart_mk]
      exact hx.before
    · exact hcheck.before
  alone hfew e he := by
    obtain ⟨rfl, rfl⟩ := h.alone hfew
    exact (h.checkpoints e he).kind

end MadeOf

theorem not_lt_earliest {time : Time} (h : 0.0 < time.sinceStart) : ¬ time < Time.earliest := by
  have hearliest : (rankOf Time.earliest.double.word).toNat ≤ 2 ^ 63 := by decide +kernel
  refine Time.not_lt_of_rankOf_le (Nat.le_trans hearliest ?_)
  rw [Double.rankOf_word (isNaN_of_pos h)]
  exact unsigned_of_pos h

/-- Every trace that is drawn, from whatever source of words, is well formed and can be queued. -/
theorem sample_wellFormed {trace : Trace} (h : sample s g = .ok (trace, g')) :
    WellFormed s trace ∧
      ∃ q, Event.Queue.empty.insertAll trace.events = .ok q ∧ q.toList.Perm trace.events := by
  obtain ⟨cs, gs, es, hparts, rfl⟩ := exists_parts h
  have hwell := hparts.wellFormed
  obtain ⟨q, hq⟩ := Event.Queue.exists_insertAll (q := .empty)
    fun e he => not_lt_earliest (hwell.positive e he)
  obtain ⟨hperm, -, -⟩ := Event.Queue.insertAll_eq_ok hq Event.Queue.sound_empty
  rw [Event.Queue.toList_empty, List.append_nil] at hperm
  exact ⟨hwell, q, hq, hperm⟩

/-- Each distribution yields the NaN, infinity or negative numbers only. -/
def unruly : Scenario :=
  { Scenario.default with
    nodes := 3
    duration := ⟨3.5e-3⟩
    trace :=
      { interContact := .always (0.0 / 0.0)
        contactDuration := .always infinity
        interGeneration := .uniform (-2.0) (-1.0)
        checkpointInterval := ⟨2e-3⟩ } }

theorem unruly_wellFormed : ∃ trace g', sample unruly (Generator.ofSeed 7) = .ok (trace, g') ∧
    trace.contacts = 3 ∧ trace.packets = 3 ∧ WellFormed unruly trace ∧
    ∃ q, Event.Queue.empty.insertAll trace.events = .ok q ∧ q.toList.Perm trace.events := by
  have hcounts : (sample unruly (Generator.ofSeed 7)).map
      (fun r => (r.1.contacts, r.1.packets)) = .ok (3, 3) := by
    decide +kernel
  cases h : sample unruly (Generator.ofSeed 7) with
  | error f =>
    rw [h] at hcounts
    cases hcounts
  | ok r =>
    rw [h] at hcounts
    obtain ⟨hcontacts, hpackets⟩ := Prod.mk.inj (Except.ok.inj hcounts)
    obtain ⟨hwell, hqueue⟩ := sample_wellFormed h
    exact ⟨r.1, r.2, rfl, hcontacts, hpackets, hwell, hqueue⟩

end Trace

end OppNet
