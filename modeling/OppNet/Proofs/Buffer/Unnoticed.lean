import OppNet.Buffer.Request
import OppNet.Proofs.Buffer.Sweep

/-!
# OppNet.Proofs.Buffer.Unnoticed

Changes of a buffer that go unnoticed: an operation does the same before such a change as after it.

* `Unnoticed g`: the change `g` leaves alone what operations look at, and can be put off until
  after their bookkeeping.
* `PlacesAlike now g b b'`: placing an entry, which is where a buffer looks at everything else that
  it has, does not notice the change either.
* `Unnoticed.perform`: then no request does.
-/

namespace OppNet.Buffer

/-- A change that keeps the entries, the totals and the lifetime, and leaves room for others. -/
structure Unnoticed (g : Buffer → Buffer) : Prop where
  entries : ∀ b, (g b).entries = b.entries
  lifetime : ∀ b, (g b).lifetime = b.lifetime
  counters : ∀ b, (g b).counters = b.counters
  rebuilt : ∀ b es counters,
    g { b with entries := es, counters := counters } =
      { g b with entries := es, counters := counters }
  noted : ∀ now d b, g (b.note now d) = (g b).note now d
  recorded : ∀ now remaining kind b,
    g (b.record now remaining kind) = (g b).record now remaining kind

/-- Placing an entry in `b`, if that leads to `b'`, does the same before the change as after it. -/
def PlacesAlike (now : Time) (g : Buffer → Buffer) (b b' : Buffer) : Prop :=
  ∀ e d, b' = (b.place now e d).2 → (g b).place now e d = Prod.map id g (b.place now e d)

/-- What comes back of an operation is not about the buffer that is left. -/
theorem Outcome.map_prodMap {α : Type} (f : α → Answer) (g : Buffer → Buffer) (o : Outcome α) :
    Outcome.map f (Prod.map id g o) = Prod.map id g (Outcome.map f o) := rfl

namespace Unnoticed

variable {now : Time} {g : Buffer → Buffer} {b : Buffer} (hg : Unnoticed g)
include hg

theorem noted_rebuilt (now : Time) (d : Deed) (b : Buffer) (es : List Entry)
    (counters : Counters) :
    g ({ b with entries := es, counters := counters }.note now d) =
      { g b with entries := es, counters := counters }.note now d := by
  rw [hg.noted]
  exact congrArg (note now d) (hg.rebuilt b es counters)

theorem settle (b : Buffer) (x : Expiry) :
    Buffer.settle now (g b) x = g (Buffer.settle now b x) := by
  cases x with
  | fresh => rfl
  | half lost rest => exact (hg.noted _ _ _).symm
  | gone lost =>
    simp only [Buffer.settle, hg.entries, hg.counters]
    rw [hg.noted, hg.recorded]
    exact congrArg (fun b' => (record now _ .expired b').note now _) (hg.rebuilt b _ _).symm

theorem sweep (now : Time) (b : Buffer) : (g b).sweep now = g (b.sweep now) := by
  rw [sweep_eq, sweep_eq, hg.entries, hg.lifetime, List.foldl_hom g fun b x => hg.settle b x]
  simp only [hg.counters]
  exact (hg.rebuilt _ _ _).symm

theorem holds (b : Buffer) (id : PacketId) : (g b).holds id = b.holds id := by
  rw [Buffer.holds, Buffer.holds, hg.entries]

theorem insert {p : Packet} (h : PlacesAlike now g (b.sweep now) (b.insert now p).2) :
    (g b).insert now p = Prod.map id g (b.insert now p) := by
  simp only [Buffer.insert, hg.sweep, hg.holds] at h ⊢
  cases hold : (b.sweep now).holds p.id with
  | true => rfl
  | false =>
    rw [hold] at h
    exact h _ _ rfl

theorem insertCoded {p q : Packet}
    (h : PlacesAlike now g (b.sweep now) (b.insertCoded now p q).2) :
    (g b).insertCoded now p q = Prod.map id g (b.insertCoded now p q) := by
  simp only [Buffer.insertCoded, hg.sweep, hg.holds, hg.entries] at h ⊢
  cases hc : CodedPair.combine { p with inserted := now } { q with inserted := now } with
  | error f => rfl
  | ok pair =>
    cases hcoded : (b.sweep now).entries.any (Entry.combines p.id q.id) with
    | true => rfl
    | false =>
      cases hfind : [p.id, q.id].find? ((b.sweep now).holds ·) with
      | some id => rfl
      | none =>
        simp only [hc, hcoded, hfind] at h ⊢
        exact h _ _ rfl

theorem compact (now : Time) (x y : PacketId) (b : Buffer) :
    (g b).compact now x y = Prod.map id g (b.compact now x y) := by
  simp only [Buffer.compact, hg.sweep, findSingle?, hg.entries, hg.counters]
  split
  · rfl
  · rfl
  · split
    · rfl
    · exact Prod.ext rfl (hg.noted_rebuilt now _ _ _ _).symm

theorem remove (now : Time) (x : PacketId) (b : Buffer) :
    (g b).remove now x = Prod.map id g (b.remove now x) := by
  simp only [Buffer.remove, hg.sweep, entryOf?, hg.entries, hg.counters]
  split
  · rfl
  · split
    · exact Prod.ext rfl (hg.noted_rebuilt now _ _ _ _).symm
    · exact Prod.ext rfl (hg.noted_rebuilt now _ _ _ _).symm

theorem modify {α : Type} (now : Time) (x : PacketId) (f : Packet → Except Fault (α × Packet))
    (b : Buffer) : (g b).modify now x f = Prod.map id g (b.modify now x f) := by
  simp only [Buffer.modify, hg.sweep, find?, hg.entries, hg.counters]
  split
  · rfl
  · split
    · rfl
    · exact Prod.ext rfl (hg.rebuilt (b.sweep now) _ _).symm

/-- A request does not notice the change, if it is no question that does. -/
theorem perform {r : Request} (h : PlacesAlike now g (b.sweep now) (b.perform now r).2)
    (hask : ∀ q, r = .ask q → (g (b.sweep now)).answer now q = (b.sweep now).answer now q) :
    (g b).perform now r = Prod.map id g (b.perform now r) := by
  cases r with
  | insert p => simp only [Buffer.perform, hg.insert h, Outcome.map_prodMap]
  | insertCoded p q => simp only [Buffer.perform, hg.insertCoded h, Outcome.map_prodMap]
  | compact x y => simp only [Buffer.perform, hg.compact, Outcome.map_prodMap]
  | remove x =>
    simp only [Buffer.perform, hg.remove]
    rfl
  | removeExpired =>
    simp only [Buffer.perform, removeExpired, hg.sweep, hg.counters]
    rfl
  | setReplicas x | splitReplicas x | updateThreshold x | markForwarded x | addForwarder x
  | addPreviousHop x =>
    exact congrArg (Outcome.map _) (hg.modify now x _ b)
  | ask q =>
    simp only [Buffer.perform, hg.sweep, hask q rfl]
    rfl

end Unnoticed

end OppNet.Buffer
