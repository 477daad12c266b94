import OppNet.Proofs.Buffer.Request
import OppNet.Proofs.History

/-!
# OppNet.Proofs.Buffer.Timing

What a request records, and when: at the time of the request, whatever it does.

* `Made now b r`: a record made at `now` of what happened to `b`; an evicted entry is recorded by
  what is left of one of the packets of `b`.
* `Logged P b b'`: all that `b'` has recorded since `b` satisfies `P`. `logged_perform`: after
  every request it is made at the time of the request, of the swept buffer.
* `Driven start ts b`: the times `ts` at which a buffer was used. `Driven.ordered`: if none of them
  is before an earlier one, the records are in order and none is later than the latest use.
-/

namespace OppNet

namespace Buffer

variable {now : Time} {b b' b'' start : Buffer} {ts : List Time} {P : Record → Prop}

/-- A record made at `now` of what happened to a buffer. -/
structure Made (now : Time) (b : Buffer) (r : Record) : Prop where
  time : r.time = now
  dropped : r.kind = .dropped → ∃ p ∈ b.livePackets, r.remaining = p.remaining? now b.lifetime

/-- What `b'` has recorded since `b` satisfies `P`. -/
def Logged (P : Record → Prop) (b b' : Buffer) : Prop :=
  ∃ rs : List Record, (∀ r ∈ rs, P r) ∧ b'.history = b.history.map (History.prepend rs)

theorem Logged.of_eq (h : b'.history = b.history) : Logged P b b' := by
  refine ⟨[], nofun, h.trans ?_⟩
  cases b.history <;> rfl

theorem Logged.refl (b : Buffer) : Logged P b b := .of_eq rfl

theorem Logged.trans (h : Logged P b b') (h' : Logged P b' b'') : Logged P b b'' := by
  obtain ⟨rs, hrs, he⟩ := h
  obtain ⟨rs', hrs', he'⟩ := h'
  refine ⟨rs' ++ rs, fun r hr => (List.mem_append.mp hr).elim (hrs' r) (hrs r), ?_⟩
  rw [he', he, Option.map_map]
  refine congrArg (Option.map · _) (funext fun h => ?_)
  exact congrArg History.mk (List.append_assoc _ _ _).symm

theorem logged_record {remaining : Option TimeSpan} {kind : RecordKind}
    (h : P ⟨now, remaining, kind⟩) (b : Buffer) : Logged P b (b.record now remaining kind) :=
  ⟨[⟨now, remaining, kind⟩], fun _ hr => by rwa [List.mem_singleton.mp hr], rfl⟩

theorem logged_settle (now : Time) (b₀ b : Buffer) (x : Expiry) :
    Logged (Made now b₀) b (settle now b x) := by
  cases x with
  | fresh => exact .refl b
  | half lost rest => exact .of_eq rfl
  | gone lost => exact logged_record ⟨rfl, nofun⟩ _

theorem logged_sweep (now : Time) (b₀ b : Buffer) : Logged (Made now b₀) b (b.sweep now) := by
  rw [sweep_eq]
  refine Logged.trans ?_ (.of_eq rfl)
  refine List.foldlRecOn (motive := Logged (Made now b₀) b) _ _ (.refl b) fun b' h x _ => ?_
  exact h.trans (logged_settle now b₀ b' x)

theorem made_dropped {victim : Entry} (h : victim ∈ b.entries) :
    Made now b ⟨now, b.remainingSince now victim.created, .dropped⟩ := by
  refine ⟨rfl, fun _ => ?_⟩
  obtain ⟨p, hp, hcreated⟩ := victim.exists_created
  refine ⟨p, List.mem_flatMap.mpr ⟨victim, h, hp⟩, ?_⟩
  simp only [remainingSince, ← hcreated]
  rfl

theorem logged_makeRoom {room : Buffer} (h : b.makeRoom now = .ok room) :
    Logged (Made now b) b room := by
  unfold makeRoom at h
  split at h
  · split at h
    · cases h
    · next victim rest hevict =>
      cases h
      obtain ⟨i, -, hvictim, -⟩ := EvictionPolicy.evict_eq_ok hevict
      exact logged_record (made_dropped (List.mem_of_getElem? hvictim)) _
  · cases h
    exact .refl b

theorem logged_place (now : Time) (e : Entry) (d : Deed) (b : Buffer) :
    Logged (Made now b) b (b.place now e d).2 := by
  unfold place
  cases h : b.makeRoom now with
  | error f => exact .refl b
  | ok room => exact (logged_makeRoom h).trans (logged_record ⟨rfl, nofun⟩ _)

theorem logged_modify {α : Type} (now : Time) (id : PacketId)
    (f : Packet → Except Fault (α × Packet)) (b : Buffer) :
    Logged (Made now (b.sweep now)) b (b.modify now id f).2 := by
  have hs := logged_sweep now (b.sweep now) b
  rcases modify_cases now id f b with ⟨_, he⟩ | ⟨_, _, _, _, he⟩ | ⟨_, _, _, _, _, he⟩
  · rw [he]; exact hs
  · rw [he]; exact hs
  · rw [he]; exact hs.trans (.of_eq rfl)

/-- A request makes records of its own time only, and of what the sweep has left. -/
theorem logged_perform (now : Time) (b : Buffer) (r : Request) :
    Logged (Made now (b.sweep now)) b (b.perform now r).2 := by
  have hs := logged_sweep now (b.sweep now) b
  cases r with
  | insert p =>
    simp only [perform, Outcome.map, insert]
    split
    · exact hs
    · exact hs.trans (logged_place now _ _ _)
  | insertCoded p q =>
    simp only [perform, Outcome.map, insertCoded]
    split
    · exact hs
    · split
      · exact hs
      · split
        · exact hs
        · exact hs.trans (logged_place now _ _ _)
  | compact x y =>
    rcases compact_cases now x y b with ⟨_, he⟩ | ⟨_, _, _, _, _, _, he⟩
    · simp only [perform, he]; exact hs
    · simp only [perform, he]; exact hs.trans (.of_eq rfl)
  | remove id =>
    rcases remove_cases now id b with ⟨_, he⟩ | ⟨_, _, _, he⟩ | ⟨_, _, _, _, he⟩
    · simp only [perform, he]; exact hs
    · simp only [perform, he]; exact hs.trans (.of_eq rfl)
    · simp only [perform, he]; exact hs.trans (.of_eq rfl)
  | setReplicas id | splitReplicas id | updateThreshold id | markForwarded id | addForwarder id
  | addPreviousHop id => exact logged_modify now id _ b
  | removeExpired | ask => exact hs

/-! ### The times at which a buffer is used -/

/-- The buffers that come of `start` by requests at the times `ts`, the latest one first. Notes may
be taken from them in between. -/
inductive Driven (start : Buffer) : List Time → Buffer → Prop
  | new : Driven start [] start
  | perform {ts : List Time} {b : Buffer} (h : Driven start ts b) (now : Time) (r : Request) :
    Driven start (now :: ts) (b.perform now r).2
  | silenced {ts : List Time} {b : Buffer} (h : Driven start ts b) :
    Driven start ts { b with notes := [] }

/-- Where time never goes back, the records are in order, and each is of a time of use. -/
theorem Driven.ordered (h : Driven start ts b) (hstart : start.history = some .empty)
    (hts : ts.Pairwise fun later earlier => earlier ≤ later) :
    ∃ log, b.history = some log ∧ log.Ordered ∧ ∀ r ∈ log.backwards, r.time ∈ ts := by
  induction h with
  | new => exact ⟨_, hstart, History.ordered_empty, nofun⟩
  | @perform ts b _ now r ih =>
    obtain ⟨hpast, hrest⟩ := List.pairwise_cons.mp hts
    obtain ⟨log, hlog, hordered, htimes⟩ := ih hrest
    obtain ⟨rs, hmade, he⟩ := logged_perform now b r
    refine ⟨log.prepend rs, by rw [he, hlog]; rfl, ?_, fun r hr => ?_⟩
    · exact hordered.prepend (fun r hr => (hmade r hr).time) fun r hr => hpast _ (htimes r hr)
    · rcases List.mem_append.mp hr with hr | hr
      · rw [(hmade r hr).time]
        exact List.mem_cons_self
      · exact List.mem_cons_of_mem _ (htimes r hr)
  | silenced _ ih => exact ih hts

end Buffer

end OppNet
