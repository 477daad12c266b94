import OppNet.Proofs.Buffer.Coherence
import OppNet.Proofs.Packet.Hops
import OppNet.Proofs.Packet.Thresholds

/-!
# OppNet.Proofs.Buffer.Locality

A change of one packet changes that packet and nothing else.

* `Entry.Altered p p'`: two entries that differ in one live packet. `exists_updateFirst`: the change
  goes to one entry, and there to the live half that carries the packet.
* `Altered p p'`: two buffers that differ in one live packet. `altered_updateFirst`: every change.
* `Changed p p' a`, `Added n ns`: a request that is answered, and one that adds a node to a list.
  `added_modify`: the second time it changes nothing.
* `Updates`: what each request does to the packet that it names. `updates_local`: every buffer that
  requests can build.
-/

namespace OppNet

namespace Entry

variable {e e' : Entry} {id : PacketId} {p p' : Packet}

/--
Two entries that differ in one live packet, which is `p` in the first and `p'` in the second. The
other half of a pair is the same, live or lost.
-/
inductive Altered (p p' : Packet) : Entry → Entry → Prop
  | single : Altered p p' (.single p) (.single p')
  | first {other : Packet} {survivor : Option Side} (live : survivor ≠ some .second) :
    Altered p p' (.coded ⟨p, other, survivor⟩) (.coded ⟨p', other, survivor⟩)
  | second {other : Packet} {survivor : Option Side} (live : survivor ≠ some .first) :
    Altered p p' (.coded ⟨other, p, survivor⟩) (.coded ⟨other, p', survivor⟩)

theorem altered_of_update? {f : Packet → Packet} (hp : e.find? id = some p)
    (h : e.update? id f = some e') : Altered p (f p) e e' := by
  cases e with
  | single q =>
    simp only [update?] at h
    split at h
    · rename_i hid
      cases h
      simp only [find?, hid, if_true, Option.some.injEq] at hp
      rw [hp]
      exact .single
    · cases h
  | coded c =>
    obtain ⟨s, hs, rfl⟩ := Option.map_eq_some_iff.mp h
    simp only [find?, hs, Option.map_some, Option.some.injEq] at hp
    subst hp
    have hlive := (CodedPair.liveSide?_eq_some hs).2
    cases s with
    | first =>
      refine .first fun hlost => ?_
      simp [CodedPair.isLive, hlost] at hlive
    | second =>
      refine .second fun hlost => ?_
      simp [CodedPair.isLive, hlost] at hlive

theorem Altered.eq (h : Altered p p e e') : e' = e := by
  cases h with
  | single => rfl
  | first => rfl
  | second => rfl

/-- Packets of one number are live in the same places. -/
theorem Altered.liveIds (h : Altered p p' e e') (hid : p'.id = p.id) : e'.liveIds = e.liveIds := by
  cases h with
  | single => simp [hid]
  | @first other survivor _ =>
    cases survivor with
    | none => simp [CodedPair.livePackets, hid]
    | some left => cases left <;> simp [CodedPair.livePackets, CodedPair.half, hid]
  | @second other survivor _ =>
    cases survivor with
    | none => simp [CodedPair.livePackets, hid]
    | some left => cases left <;> simp [CodedPair.livePackets, CodedPair.half, hid]

theorem Altered.holds (h : Altered p p' e e') (hid : p'.id = p.id) (id : PacketId) :
    e'.holds id = e.holds id := by
  cases h with
  | single => simp only [Entry.holds, find?_single, hid]; split <;> rfl
  | first =>
    simp only [Entry.holds, find?, CodedPair.liveSide?, CodedPair.sideOf?, hid, Option.isSome_map]
    rfl
  | second =>
    simp only [Entry.holds, find?, CodedPair.liveSide?, CodedPair.sideOf?, hid, Option.isSome_map]
    rfl

end Entry

namespace Buffer

variable {now : Time} {b : Buffer} {p p' : Packet} {es : List Entry}

/-! ### One change -/

/-- A change goes to one entry, and the others stay around it. -/
theorem exists_updateFirst {id : PacketId} (f : Packet → Packet)
    (h : es.findSome? (Entry.find? id) = some p) :
    ∃ front e e' back, es = front ++ e :: back ∧ Entry.Altered p (f p) e e' ∧
      updateFirst id f es = front ++ e' :: back := by
  induction es with
  | nil => cases h
  | cons e rest ih =>
    rw [updateFirst]
    cases hu : e.update? id f with
    | some e' =>
      have hfound : (e.find? id).isSome = true := by
        rw [← Entry.update?_isSome e id f, hu]
        rfl
      obtain ⟨q, hq⟩ := Option.isSome_iff_exists.mp hfound
      obtain rfl : q = p := by
        rw [List.findSome?_cons, hq] at h
        exact Option.some_inj.mp h
      exact ⟨[], e, e', rest, rfl, Entry.altered_of_update? hq hu, rfl⟩
    | none =>
      rw [List.findSome?_cons, Entry.find?_of_update?_eq_none hu] at h
      obtain ⟨front, x, x', back, hrest, halt, hupd⟩ := ih h
      exact ⟨e :: front, x, x', back, by rw [hrest]; rfl, halt, by rw [hupd]; rfl⟩

theorem updateFirst_self {id : PacketId} (h : es.findSome? (Entry.find? id) = some p) :
    updateFirst id (fun _ => p) es = es := by
  obtain ⟨front, e, e', back, hes, halt, hupd⟩ := exists_updateFirst (fun _ => p) h
  rw [hupd, halt.eq, ← hes]

/--
Two buffers that differ in one live packet, which is `p` before and `p'` afterwards. All other
packets are the same, and everything is in its place.
-/
structure Altered (p p' : Packet) (before after : Buffer) : Prop where
  entry : ∃ front e e' back, before.entries = front ++ e :: back ∧ Entry.Altered p p' e e' ∧
    after.entries = front ++ e' :: back
  rest : ∃ es, after = { before with entries := es }
  found : after.find? p.id = some p'
  others : ∀ id, id ≠ p.id → after.find? id = before.find? id
  positions : after.positions = before.positions
  places : ∀ id, after.indexOf? id = before.indexOf? id

theorem altered_updateFirst (hb : Integrity b.entries) (hp : p ∈ b.livePackets)
    (hid : p'.id = p.id) :
    Altered p p' b { b with entries := updateFirst p.id (fun _ => p') b.entries } := by
  have hfound : b.entries.findSome? (Entry.find? p.id) = some p := find?_of_live hb hp
  have hfind (id : PacketId) :
      (updateFirst p.id (fun _ => p') b.entries).findSome? (Entry.find? id) =
        if id = p.id then (b.entries.findSome? (Entry.find? p.id)).map fun _ => p'
        else b.entries.findSome? (Entry.find? id) := find?_updateFirst (fun _ _ => hid) id
  obtain ⟨front, e, e', back, hes, halt, hupd⟩ := exists_updateFirst (fun _ => p') hfound
  have hids := halt.liveIds hid
  refine ⟨⟨front, e, e', back, hes, halt, hupd⟩, ⟨_, rfl⟩, ?_, fun id hne => ?_, ?_, fun id => ?_⟩
  · rw [find?, hfind, if_pos rfl, hfound]
    rfl
  · rw [find?, hfind, if_neg hne]
    rfl
  · rw [positions, positions, liveIds, liveIds, hupd, hes]
    simp only [List.flatMap_append, List.flatMap_cons, hids]
  · rw [indexOf?, indexOf?, hupd, hes, List.findIdx?_append, List.findIdx?_append,
      List.findIdx?_cons, List.findIdx?_cons, halt.holds hid]

theorem modify_of_fixed {id : PacketId} {g : Packet → Packet}
    (hp : (b.sweep now).find? id = some p) (hg : g p = p) :
    b.modify now id (fun q => .ok ((), g q)) = (.ok (), b.sweep now) := by
  have hself : updateFirst id (fun _ => p) (b.sweep now).entries = (b.sweep now).entries :=
    updateFirst_self hp
  rw [modify_of_found hp (f := fun q => .ok ((), g q)) rfl, hg, hself]

/-! ### What a request changes -/

/-- The answer is `a`, and the packet `p` was changed to `p'` and nothing else. -/
structure Changed {α : Type} (p p' : Packet) (a : α) (before : Buffer) (o : Outcome α) : Prop where
  answer : o.1 = .ok a
  altered : Altered p p' before o.2

/--
The node `n` was added to the list `ns` of the packet `p`, which `change` replaces, unless it was
there. A second addition at any later time does nothing but sweep.
-/
structure Added (now : Time) (p : Packet) (n : NodeId) (ns : List NodeId)
    (change : List NodeId → Packet) (add : Time → Buffer → Outcome Unit) (b : Buffer) : Prop where
  extended : ∃ ns', Packet.Extended n ns ns' ∧ Changed p (change ns') () (b.sweep now) (add now b)
  again : add now (add now b).2 = (.ok (), (add now b).2)
  later : ∀ time, (add time (add now b).2).2 = (add now b).2.sweep time

/-- What each request does to the packet `p` that it names, and to nothing else. -/
structure Updates (now : Time) (p : Packet) (b : Buffer) : Prop where
  setReplicas : ∀ n,
    Changed p { p with replicas := n } () (b.sweep now) (b.setReplicas now p.id n)
  splitReplicas : ∀ give ≤ p.replicas, ∃ left, p.replicas = left + give ∧
    Changed p { p with replicas := left } left (b.sweep now) (b.splitReplicas now p.id give)
  /-- More replicas than there are cannot be given away. -/
  overflow : ∀ give, p.replicas < give → b.splitReplicas now p.id give =
    (.error (.replicaOverflow p.id p.replicas give), b.sweep now)
  /-- One threshold is raised if the value beats it. The others read as before. -/
  updateThreshold : ∀ metric value, ∃ thresholds,
    Changed p { p with thresholds := thresholds } (p.beatsThreshold metric value) (b.sweep now)
      (b.updateThreshold now p.id metric value) ∧
    ∀ k, ({ p with thresholds := thresholds } : Packet).threshold k =
      if k = metric ∧ p.beatsThreshold metric value = true then value else p.threshold k
  markForwarded :
    Changed p { p with forwarded := true } () (b.sweep now) (b.markForwarded now p.id)
  addForwarder : ∀ n, Added now p n p.forwarders (fun ns => { p with forwarders := ns })
    (fun time => Buffer.addForwarder time p.id n) b
  addPreviousHop : ∀ n, Added now p n p.previousHops (fun ns => { p with previousHops := ns })
    (fun time => Buffer.addPreviousHop time p.id n) b

section

variable (hb : Integrity (b.sweep now).entries) (hp : p ∈ (b.sweep now).livePackets)
include hb hp

theorem changed_modify {α : Type} {a : α} {f : Packet → Except Fault (α × Packet)}
    (hf : f p = .ok (a, p')) (hid : p'.id = p.id) :
    Changed p p' a (b.sweep now) (b.modify now p.id f) := by
  rw [modify_of_found (find?_of_live hb hp) hf]
  exact ⟨rfl, altered_updateFirst hb hp hid⟩

/-- A change that is made at most once adds a node to a list. -/
theorem added_modify {n : NodeId} {ns : List NodeId} {change : List NodeId → Packet}
    {g : Packet → Packet} (hp' : g p = change (Packet.appendNew n ns))
    (hg : ∀ q, (g q).route = q.route ∧ (g q).stamp = q.stamp) (hgg : ∀ q, g (g q) = g q) :
    Added now p n ns change (fun time => modify time p.id fun q => .ok ((), g q)) b := by
  have hid : (g p).id = p.id := congrArg Prod.fst (hg p).2
  have hfound := find?_of_live hb hp
  have hmod : b.modify now p.id (fun q => .ok ((), g q)) = (.ok (), { b.sweep now with
      entries := updateFirst p.id (fun _ => g p) (b.sweep now).entries }) :=
    modify_of_found hfound rfl
  have hchanged := changed_modify (f := fun q => .ok ((), g q)) hb hp rfl hid
  refine ⟨⟨_, Packet.extended_appendNew n ns, hp' ▸ hchanged⟩, ?_, fun time => ?_⟩
  · -- The packet is as fresh as before, so the second time it is found where it was put.
    have hfresh : (b.modify now p.id fun q => .ok ((), g q)).2.sweep now =
        (b.modify now p.id fun q => .ok ((), g q)).2 := by
      rw [hmod]
      refine sweep_updateFirst fun q hq => ?_
      rw [← Option.some_inj.mp (hfound.symm.trans hq)]
      exact (hg p).2
    have hagain := hchanged.altered.found
    rw [← hfresh] at hagain
    rw [modify_of_fixed hagain (hgg p), hfresh]
  · have hafter : Integrity (b.modify now p.id fun q => .ok ((), g q)).2.entries := by
      refine hb.of_remains (remains_modify now p.id (fun q a q' hq => ?_) b)
      cases hq
      exact (hg q).1
    cases hq : ((b.modify now p.id fun q => .ok ((), g q)).2.sweep time).find? p.id with
    | none =>
      rw [modify, hq]
    | some q =>
      have hlive := mem_of_mem_livePackets_sweep (mem_livePackets_of_find? hq)
      have hq' := find?_of_live hafter hlive
      rw [(mem_liveIds_of_find? hq).1, hchanged.altered.found] at hq'
      rw [modify_of_fixed hq (by rw [← Option.some_inj.mp hq', hgg])]

/-- Every request on a live packet changes that packet as it says, and nothing else. -/
theorem updates_of_live : Updates now p b where
  setReplicas n := changed_modify hb hp rfl rfl
  splitReplicas give hle := by
    refine ⟨p.replicas - give, (Nat.sub_add_cancel hle).symm, changed_modify hb hp ?_ rfl⟩
    rw [if_neg (Nat.not_lt.mpr hle)]
  overflow give hlt := by
    simp only [Buffer.splitReplicas, modify, find?_of_live hb hp, if_pos hlt]
  updateThreshold metric value := by
    obtain ⟨thresholds, h⟩ := p.raiseThreshold_eq metric value
    refine ⟨thresholds, changed_modify hb hp (by rw [h]) rfl, fun k => ?_⟩
    rw [← h, Packet.threshold_raiseThreshold]
  markForwarded := changed_modify hb hp rfl rfl
  addForwarder n := by
    refine added_modify hb hp rfl (fun _ => ⟨rfl, rfl⟩) fun q => ?_
    simp only [Packet.addForwarder, Packet.appendNew_appendNew]
  addPreviousHop n := by
    refine added_modify hb hp rfl (fun _ => ⟨rfl, rfl⟩) fun q => ?_
    simp only [Packet.addPreviousHop, Packet.appendNew_appendNew]

end

/-- Of every buffer that requests can build, a request on a live packet changes that packet. -/
theorem updates_local (capacity : Nat) (lifetime : TimeSpan) (eviction : EvictionPolicy)
    (recording : Bool) (rs : List (Time × Request)) (now : Time) :
    let b := (Buffer.new capacity lifetime eviction recording).run rs
    ∀ p ∈ (b.sweep now).livePackets, Updates now p b := by
  intro b p hp
  have hb : Integrity b.entries := integrity_run capacity lifetime eviction recording rs
  exact updates_of_live (integrity_sweep hb now) hp

/-- The first packet of a pair has expired, and the second one is changed. -/
theorem updates_local_survivor :
    let first := Packet.generate ⟨1⟩ ⟨0⟩ ⟨1⟩ ⟨0.0⟩
    let second := Packet.generate ⟨2⟩ ⟨1⟩ ⟨0⟩ ⟨5.0⟩
    let b := (Buffer.new 3 ⟨10.0⟩ ⟨.front, false⟩ true).run [(⟨5.0⟩, .insertCoded first second)]
    (b.sweep ⟨12.0⟩).entries = [.coded ⟨{ first with inserted := ⟨5.0⟩ }, second, some .second⟩] ∧
      second ∈ (b.sweep ⟨12.0⟩).livePackets ∧ Updates ⟨12.0⟩ second b := by
  intro first second b
  have hlive : second ∈ (b.sweep ⟨12.0⟩).livePackets := by decide +kernel
  have hupdates := updates_local 3 ⟨10.0⟩ ⟨.front, false⟩ true _ ⟨12.0⟩ second hlive
  exact ⟨by decide +kernel, hlive, hupdates⟩

end Buffer

end OppNet
