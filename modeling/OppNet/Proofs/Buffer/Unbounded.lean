import OppNet.Proofs.Buffer.Extra
import OppNet.Proofs.Buffer.Laziness
import OppNet.Proofs.Buffer.Unnoticed

/-!
# OppNet.Proofs.Buffer.Unbounded

A bound that is never reached. As long as nothing was dropped, a buffer with a capacity cannot be
told from one without, whatever policies the two have, except by asking for the space that is left.

* `unbounded policy b`: the same buffer without its capacity, and with another policy.
* `perform_unbounded`: a request that drops nothing does the same to both.
* `dropped_le_run`: what was dropped stays counted, so a total of zero says this of every request.
* `unreached_bound_invisible`: from this, whole runs answer alike and end alike.
-/

namespace OppNet.Buffer

variable {now : Time} {b : Buffer}

def unbounded (policy : EvictionPolicy) (b : Buffer) : Buffer :=
  { b with capacity := 0, eviction := policy }

/-- The questions about a capacity. -/
def Query.isAboutSpace : Query → Bool
  | .isFull | .availableSpace => true
  | _ => false

def Request.asksForSpace : Request → Bool
  | .ask q => q.isAboutSpace
  | _ => false

/-! ### What is dropped stays counted -/

theorem dropped_place (now : Time) (e : Entry) (d : Deed) (b : Buffer) :
    (b.place now e d).2.counters.dropped =
      b.counters.dropped + if b.isFull = true then 1 else 0 := by
  obtain ⟨room, hroom, he⟩ := place_eq now e d b
  have happend : (room.append now e d).counters.dropped = room.counters.dropped := rfl
  rw [he, happend]
  split
  · rename_i hfull
    obtain ⟨_, _, hgave⟩ := hroom.evicted hfull
    exact hgave.dropped
  · rename_i hfree
    rw [hroom.kept (Bool.not_eq_true _ ▸ hfree)]
    rfl

theorem dropped_le_perform (now : Time) (b : Buffer) (r : Request) :
    b.counters.dropped ≤ (b.perform now r).2.counters.dropped := by
  have hr := performed_perform now b r
  have hs := Nat.le_of_eq (dropped_sweep now b).symm
  generalize b.perform now r = o at hr ⊢
  cases hr with
  | refused => exact hs
  | looked => exact hs
  | placed _ hroom =>
    refine Nat.le_trans hs ?_
    cases hfull : (b.sweep now).isFull with
    | true =>
      obtain ⟨_, _, hgave⟩ := hroom.evicted hfull
      exact Nat.le_of_lt (Nat.lt_of_lt_of_eq (Nat.lt_succ_self _) hgave.dropped.symm)
    | false =>
      rw [hroom.kept hfull]
      exact Nat.le_refl _
  | compacted => exact hs
  | removed => exact hs
  | halved => exact hs
  | changed => exact hs

theorem dropped_le_run (rs : List (Time × Request)) (b : Buffer) :
    b.counters.dropped ≤ (b.run rs).counters.dropped := by
  induction rs generalizing b with
  | nil => exact Nat.le_refl _
  | cons r rest ih => exact Nat.le_trans (dropped_le_perform r.1 b r.2) (ih _)

/-! ### Operations without the capacity -/

section

variable (policy : EvictionPolicy)

theorem unnoticed_unbounded : Unnoticed (unbounded policy) where
  entries _ := rfl
  lifetime _ := rfl
  counters _ := rfl
  rebuilt _ _ _ := rfl
  noted _ _ _ := rfl
  recorded _ _ _ _ := rfl

theorem isFull_unbounded (b : Buffer) : (b.unbounded policy).isFull = false := rfl

/-- An entry that pushes out no other one comes in as it would without a bound. -/
theorem placesAlike_unbounded {b' : Buffer} (now : Time)
    (h : b'.counters.dropped = b.counters.dropped) :
    PlacesAlike now (unbounded policy) b b' := by
  rintro e d rfl
  have hfree : b.isFull = false := by
    cases hfull : b.isFull with
    | false => rfl
    | true =>
      rw [dropped_place, if_pos hfull] at h
      omega
  simp only [place, makeRoom_of_free hfree, makeRoom_of_free (isFull_unbounded policy b)]
  rfl

theorem answer_unbounded {q : Query} (h : q.isAboutSpace = false) (now : Time) (b : Buffer) :
    (b.unbounded policy).answer now q = b.answer now q := by
  cases q <;> first | rfl | cases h

/-- A request that drops nothing answers and acts as it would without a bound. -/
theorem perform_unbounded {r : Request} (hr : r.asksForSpace = false)
    (h : (b.perform now r).2.counters.dropped = b.counters.dropped) :
    (b.unbounded policy).perform now r = Prod.map id (unbounded policy) (b.perform now r) := by
  refine (unnoticed_unbounded policy).perform
    (placesAlike_unbounded policy now (h.trans (dropped_sweep now b).symm)) ?_
  rintro q rfl
  exact answer_unbounded policy hr now (b.sweep now)

theorem after_perform_unbounded {r : Request}
    (h : (b.perform now r).2.counters.dropped = b.counters.dropped) :
    ((b.unbounded policy).perform now r).2 = (b.perform now r).2.unbounded policy := by
  cases hr : r.asksForSpace with
  | false => rw [perform_unbounded policy hr h, Prod.map_snd]
  | true =>
    cases r <;> first | exact (unnoticed_unbounded policy).sweep now b | cases hr

/-! ### Runs without the capacity -/

theorem run_unbounded (rs : List (Time × Request)) {b : Buffer}
    (h : (b.run rs).counters.dropped = b.counters.dropped) :
    (b.unbounded policy).run rs = (b.run rs).unbounded policy := by
  induction rs generalizing b with
  | nil => rfl
  | cons r rest ih =>
    have hfirst := dropped_le_perform r.1 b r.2
    have hrest := dropped_le_run rest (b.perform r.1 r.2).2
    simp only [run] at h ⊢
    rw [after_perform_unbounded policy (by omega)]
    exact ih (by omega)

end

/--
A bound that is never reached cannot be seen. Where a buffer with a capacity has dropped nothing at
the end, every answer on the way is the one of a buffer without a capacity and with any other
policy, except to a question about the space that is left, and both have the same entries, totals,
records and notes at the end.
-/
theorem unreached_bound_invisible (capacity : Nat) (lifetime : TimeSpan)
    (policy policy' : EvictionPolicy) (recording : Bool) (rs : List (Time × Request))
    (h : ((Buffer.new capacity lifetime policy recording).run rs).counters.dropped = 0) :
    let bounded := Buffer.new capacity lifetime policy recording
    let free := Buffer.new 0 lifetime policy' recording
    (∀ before now r after, rs = before ++ (now, r) :: after → r.asksForSpace = false →
      ((bounded.run before).perform now r).1 = ((free.run before).perform now r).1) ∧
    (bounded.run rs).entries = (free.run rs).entries ∧
    (bounded.run rs).counters = (free.run rs).counters ∧
    (bounded.run rs).evictions = (free.run rs).evictions ∧
    (bounded.run rs).history = (free.run rs).history ∧
    (bounded.run rs).notes = (free.run rs).notes := by
  intro bounded free
  have hfree : free = bounded.unbounded policy' := rfl
  have hend : free.run rs = (bounded.run rs).unbounded policy' :=
    run_unbounded policy' rs h
  refine ⟨?_, by rw [hend]; rfl, by rw [hend]; rfl, by rw [hend]; rfl, by rw [hend]; rfl,
    by rw [hend]; rfl⟩
  intro before now r after hrs hr
  have hstart : bounded.counters.dropped = 0 := rfl
  -- The totals at both ends of the request lie between zero and what was dropped at the end.
  have hfirst := dropped_le_run before bounded
  have hstep := dropped_le_perform now (bounded.run before) r
  have hlast := dropped_le_run after ((bounded.run before).perform now r).2
  have hsplit : bounded.run rs = (((bounded.run before).perform now r).2).run after := by
    rw [hrs, run_append]
    rfl
  rw [hsplit] at h
  rw [hfree, run_unbounded policy' before (by omega), perform_unbounded policy' hr (by omega),
    Prod.map_fst, id]

/-- A buffer that is full twice, where an expiry and a refusal each spare it an eviction. -/
theorem full_without_dropping :
    let bounded := Buffer.new 2 ⟨10.0⟩ ⟨.front, true⟩ true
    let free := Buffer.new 0 ⟨10.0⟩ ⟨.oldest, false⟩ true
    let before : List (Time × Request) :=
      [(⟨0.0⟩, .insert (.generate ⟨0⟩ ⟨0⟩ ⟨1⟩ ⟨0.0⟩)),
        (⟨5.0⟩, .insert (.generate ⟨1⟩ ⟨0⟩ ⟨1⟩ ⟨5.0⟩)),
        (⟨12.0⟩, .insert (.generate ⟨2⟩ ⟨1⟩ ⟨0⟩ ⟨12.0⟩))]
    let again : Request := .insert (.generate ⟨1⟩ ⟨0⟩ ⟨1⟩ ⟨5.0⟩)
    let b := (bounded.run before).perform ⟨13.0⟩ again
    let b' := (free.run before).perform ⟨13.0⟩ again
    b.1 = .error (.duplicatePacket ⟨1⟩) ∧ b.2.isFull = true ∧ b'.2.isFull = false ∧
      b.1 = b'.1 ∧ b.2.counters = b'.2.counters := by
  intro bounded free before again b b'
  obtain ⟨hanswers, _, hcounters, _⟩ := unreached_bound_invisible 2 ⟨10.0⟩ ⟨.front, true⟩
    ⟨.oldest, false⟩ true (before ++ [(⟨13.0⟩, again)]) (by decide +kernel)
  rw [run_concat, run_concat] at hcounters
  exact ⟨by decide +kernel, by decide +kernel, by decide +kernel,
    hanswers before ⟨13.0⟩ again [] rfl rfl, hcounters⟩

end OppNet.Buffer
