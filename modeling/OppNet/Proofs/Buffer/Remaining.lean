import OppNet.Proofs.Binary64.Difference
import OppNet.Proofs.Buffer.Expiry
import OppNet.Proofs.Buffer.Timing

/-!
# OppNet.Proofs.Buffer.Remaining

What is left of the lifetime of a packet, under a lifetime that is finite and not zero.

* `TimeSpan.Left`: something is left, and it is not negative. `Packet.left_remaining?`: so it is of
  every packet that has not expired.
* `LeftAtDrop b`: it was so of whatever the history has recorded as evicted. `LeftAtDrop.perform`:
  every request keeps this.
* `Timely b`: what a buffer says about its packets, which ones it evicts, and what it has recorded
  about them. `LeftAtDrop.timely` puts these together.
-/

namespace OppNet

/-- What is left of a lifetime is known, and not negative. -/
def TimeSpan.Left (remaining : Option TimeSpan) : Prop :=
  ∃ left, remaining = some left ∧ 0.0 ≤ left.seconds

/-- A lifetime under which everything expires after a finite time. -/
structure TimeSpan.Limited (lifetime : TimeSpan) : Prop where
  nonzero : lifetime.isZero = false
  finite : lifetime.seconds.isFinite = true

namespace Packet

variable {now : Time} {lifetime : TimeSpan} {p : Packet}

theorem not_lt_age (hl : lifetime.Limited) (h : p.isExpired now lifetime = false) :
    ¬ lifetime < p.age now := by
  simpa [isExpired, hl.nonzero] using h

/-- A packet that has not expired is numerically not older than its lifetime. -/
theorem age_le (hl : lifetime.Limited) (h : p.isExpired now lifetime = false) :
    (p.age now).seconds ≤ lifetime.seconds :=
  TimeSpan.since_le_of_not_lt hl.finite (not_lt_age hl h)

theorem left_remaining? (hl : lifetime.Limited) (h : p.isExpired now lifetime = false) :
    TimeSpan.Left (p.remaining? now lifetime) := by
  refine ⟨lifetime - p.age now, ?_, TimeSpan.zero_le_sub_since hl.finite (not_lt_age hl h)⟩
  rw [remaining?, if_neg (by simp [hl.nonzero])]

end Packet

namespace History

variable {log : History}

/-- Where every eviction was recorded with what was left, the mean is over all of them. -/
theorem meanDropRemaining?_of_left
    (h : ∀ r ∈ log.backwards, r.kind = .dropped → TimeSpan.Left r.remaining) (now : Time)
    (width : TimeSpan) : ∃ spans : List Float,
      log.meanDropRemaining? now width = (Mean.ofList? spans).map TimeSpan.mk ∧
      spans.length = log.dropsIn now width ∧ ∀ x ∈ spans, 0.0 ≤ x := by
  have hdrops : ∀ r ∈ log.drops now width, TimeSpan.Left r.remaining := by
    intro r hr
    obtain ⟨hwindow, hkind⟩ := List.mem_filter.mp hr
    exact h r ((List.takeWhile_sublist _).subset hwindow) (of_decide_eq_true hkind)
  refine ⟨_, rfl, ?_, fun x hx => ?_⟩
  · rw [List.length_filterMap_eq_countP, dropsIn, List.countP_eq_length]
    intro r hr
    obtain ⟨left, hleft, -⟩ := hdrops r hr
    rw [hleft]
    rfl
  · obtain ⟨r, hr, hx⟩ := List.mem_filterMap.mp hx
    obtain ⟨left, hleft, hle⟩ := hdrops r hr
    rw [hleft] at hx
    cases hx
    exact hle

end History

namespace Buffer

variable {now : Time} {b : Buffer} {id : PacketId}

theorem lifetime_perform (now : Time) (b : Buffer) (r : Request) :
    (b.perform now r).2.lifetime = b.lifetime :=
  lifetime_run b [(now, r)]

theorem unexpired_of_mem_sweep {p : Packet} (h : p ∈ (b.sweep now).livePackets) :
    p.isExpired now b.lifetime = false := by
  rw [livePackets_sweep, List.mem_filter] at h
  simpa using h.2

/-! ### Answers -/

/-- The remaining lifetime is told of packets that are left after a sweep, so it is not negative. -/
theorem left_of_answer (hl : b.lifetime.Limited) {a : Answer}
    (h : (b.perform now (.ask (.remainingLifetime id))).1 = .ok a) :
    ∃ left, a = .spanOrNone (some left) ∧ 0.0 ≤ left.seconds := by
  obtain ⟨p, hp, rfl⟩ := about_eq_ok (b := b.sweep now) h
  have hlive := unexpired_of_mem_sweep (mem_livePackets_of_find? hp)
  obtain ⟨left, hleft, hle⟩ := Packet.left_remaining? hl hlive
  exact ⟨left, by rw [lifetime_sweep, hleft], hle⟩

/-! ### Evictions -/

/-- An entry was evicted at `now`: the policy's choice among what the sweep had left. -/
structure Evicts (now : Time) (victim : Entry) (b b' : Buffer) : Prop where
  choice : ∃ i, b.eviction.victimIndex? (b.sweep now).entries = some i ∧
    (b.sweep now).entries[i]? = some victim
  dropped : b'.counters.dropped = b.counters.dropped + 1
  unexpired : ∀ p ∈ victim.livePackets, p.isExpired now b.lifetime = false

/-- A request evicts nothing, or one entry, of which nothing has expired. -/
theorem perform_evicts (now : Time) (b : Buffer) (r : Request) :
    (b.perform now r).2.counters.dropped = b.counters.dropped ∨
      ∃ victim, Evicts now victim b (b.perform now r).2 := by
  have hr := performed_perform now b r
  have hs := dropped_sweep now b
  generalize b.perform now r = o at hr ⊢
  cases hr with
  | refused => exact .inl hs
  | looked => exact .inl hs
  | @placed _ _ room hroom =>
    cases hfull : (b.sweep now).isFull with
    | false =>
      left
      rw [hroom.kept hfull]
      exact hs
    | true =>
      obtain ⟨i, victim, hgave⟩ := hroom.evicted hfull
      have hchoice := hgave.choice
      rw [eviction_sweep] at hchoice
      refine .inr ⟨victim, ⟨i, hchoice, hgave.found⟩, ?_, fun p hp => ?_⟩
      · exact hgave.dropped.trans (congrArg (· + 1) hs)
      · refine unexpired_of_mem_sweep (List.mem_flatMap.mpr ⟨victim, ?_, hp⟩)
        exact List.mem_of_getElem? hgave.found
  | compacted => exact .inl hs
  | removed => exact .inl hs
  | halved => exact .inl hs
  | changed => exact .inl hs

/-! ### Records -/

/-- Whatever the history has recorded as evicted had some of its lifetime left. -/
def LeftAtDrop (b : Buffer) : Prop :=
  ∀ log, b.history = some log → ∀ r ∈ log.backwards, r.kind = .dropped → TimeSpan.Left r.remaining

theorem leftAtDrop_new (capacity : Nat) (lifetime : TimeSpan) (eviction : EvictionPolicy)
    (recording : Bool) : LeftAtDrop (new capacity lifetime eviction recording) := by
  intro log hlog r hr
  simp only [new] at hlog
  split at hlog
  · cases hlog
    cases hr
  · cases hlog

/-- What is evicted has been left by a sweep. -/
theorem Made.left {r : Record} (h : Made now (b.sweep now) r) (hl : b.lifetime.Limited)
    (hr : r.kind = .dropped) : TimeSpan.Left r.remaining := by
  obtain ⟨p, hp, heq⟩ := h.dropped hr
  rw [heq, lifetime_sweep]
  exact Packet.left_remaining? hl (unexpired_of_mem_sweep hp)

theorem LeftAtDrop.perform (h : b.LeftAtDrop) (hl : b.lifetime.Limited) (now : Time)
    (r : Request) : (b.perform now r).2.LeftAtDrop := by
  obtain ⟨rs, hmade, heq⟩ := logged_perform now b r
  intro log hlog record hrecord hkind
  rw [heq] at hlog
  obtain ⟨log', hlog', rfl⟩ := Option.map_eq_some_iff.mp hlog
  rcases List.mem_append.mp hrecord with hnew | hold
  · exact (hmade record hnew).left hl hkind
  · exact h log' hlog' record hold hkind

/-! ### All of it -/

/-- Nothing that a buffer tells of, evicts, or has recorded as evicted has outlived its lifetime. -/
structure Timely (b : Buffer) : Prop where
  answers : ∀ now id a, (b.perform now (.ask (.remainingLifetime id))).1 = .ok a →
    ∃ left, a = .spanOrNone (some left) ∧ 0.0 ≤ left.seconds
  victims : ∀ now r, (b.perform now r).2.counters.dropped = b.counters.dropped ∨
    ∃ victim, Evicts now victim b (b.perform now r).2
  records : b.LeftAtDrop
  /-- The mean is over all evictions in the window, and over nothing that is negative. -/
  means : ∀ log, b.history = some log → ∀ now width, ∃ spans : List Float,
    log.meanDropRemaining? now width = (Mean.ofList? spans).map TimeSpan.mk ∧
    spans.length = log.dropsIn now width ∧ ∀ x ∈ spans, 0.0 ≤ x

theorem LeftAtDrop.timely (h : b.LeftAtDrop) (hl : b.lifetime.Limited) : b.Timely where
  answers _ _ _ := left_of_answer hl
  victims now r := perform_evicts now b r
  records := h
  means log hlog := History.meanDropRemaining?_of_left (h log hlog)

end Buffer

end OppNet
