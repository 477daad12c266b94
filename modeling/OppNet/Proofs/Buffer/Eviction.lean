import OppNet.Proofs.Buffer.Update

/-!
# OppNet.Proofs.Buffer.Eviction

One eviction as a whole: what is given up, what is left and how it is counted.

* `giveUp`: an eviction with its tally. `makeRoom_giveUp`: a full buffer goes through one.
* `Choice.unique`: a policy has one choice at most.
* `Counted victim before after`: one eviction more, under where the victim comes from.
* `evicts_choice`: every policy, on every list of entries.
-/

namespace OppNet

/-- One eviction more: of an entry that was carried for other nodes, or of one that was not. -/
structure EvictionTally.Counted (victim : Entry) (before after : EvictionTally) : Prop where
  relayed : victim.isRelayed = true → after = { before with relayed := before.relayed + 1 }
  source : victim.isRelayed = false → after = { before with source := before.source + 1 }

namespace EvictionPolicy

variable {policy : EvictionPolicy} {es : List Entry} {tally : EvictionTally}

/-- What is given up or why nothing can be, the entries that are left, and the tally afterwards. -/
def giveUp (policy : EvictionPolicy) (es : List Entry) (tally : EvictionTally) :
    Except Fault Entry × List Entry × EvictionTally :=
  match policy.evict es with
  | .error f => (.error f, es, tally)
  | .ok (victim, rest) => (.ok victim, rest, tally.add victim)

/-- Of two choices each is preferred to the other, and then they are in one place. -/
theorem Choice.unique {i j : Nat} {victim victim' : Entry} (h : policy.Choice es i victim)
    (h' : policy.Choice es j victim') : i = j := by
  have hij := h.preferred j victim' h'.found h'.eligible
  have hji := h'.preferred i victim h.found h.eligible
  cases hrule : policy.rule with
  | front =>
    rw [hrule] at hij hji
    exact Nat.le_antisymm hij hji
  | tail =>
    rw [hrule] at hij hji
    exact Nat.le_antisymm hji hij
  | oldest =>
    rw [hrule] at hij hji
    have heq := Std.le_antisymm hji.1 hij.1
    exact Nat.le_antisymm (hij.2 heq) (hji.2 heq.symm)
  | youngest =>
    rw [hrule] at hij hji
    have heq := Std.le_antisymm hij.1 hji.1
    exact Nat.le_antisymm (hij.2 heq) (hji.2 heq.symm)

theorem counted_add (victim : Entry) (tally : EvictionTally) :
    EvictionTally.Counted victim tally (tally.add victim) :=
  ⟨fun h => by rw [EvictionTally.add, if_pos h],
    fun h => by rw [EvictionTally.add, if_neg (Bool.eq_false_iff.mp h)]⟩

theorem giveUp_of_found {i : Nat} {victim : Entry} (hi : policy.victimIndex? es = some i)
    (hvictim : es[i]? = some victim) (tally : EvictionTally) :
    policy.giveUp es tally = (.ok victim, es.eraseIdx i, tally.add victim) := by
  simp only [giveUp, evict, hi, hvictim]

theorem giveUp_nil (policy : EvictionPolicy) (tally : EvictionTally) :
    policy.giveUp [] tally = (.error .emptyBufferEviction, [], tally) := by
  unfold giveUp evict
  cases policy.victimIndex? [] <;> rfl

/-- A full buffer gives up one entry and counts it. -/
theorem makeRoom_giveUp {b : Buffer} (hfull : b.isFull = true) (now : Time) :
    ∃ victim room, b.makeRoom now = .ok room ∧
      b.eviction.giveUp b.entries b.evictions = (.ok victim, room.entries, room.evictions) := by
  obtain ⟨room, hroom⟩ := Buffer.exists_makeRoom now b
  obtain ⟨i, victim, h⟩ := (Buffer.makeRoom_eq_ok hroom).evicted hfull
  refine ⟨victim, room, hroom, ?_⟩
  rw [giveUp_of_found h.choice h.found, h.entries, h.evictions]

/--
Every policy gives up its one choice, counts it, and leaves the other entries in their order. It
gives up nothing only if there is nothing.
-/
theorem evicts_choice (policy : EvictionPolicy) (tally : EvictionTally) :
    policy.giveUp [] tally = (.error .emptyBufferEviction, [], tally) ∧
    (∀ es : List Entry, es ≠ [] → ∃ i victim tally', policy.Choice es i victim ∧
      (∀ j e, policy.Choice es j e → i = j) ∧ tally.Counted victim tally' ∧
      policy.giveUp es tally = (.ok victim, es.eraseIdx i, tally')) ∧
    ∀ (b : Buffer) (now : Time), b.isFull = true → b.eviction = policy → b.evictions = tally →
      ∃ victim room, b.makeRoom now = .ok room ∧
        policy.giveUp b.entries tally = (.ok victim, room.entries, room.evictions) := by
  refine ⟨giveUp_nil policy tally, fun es hne => ?_, ?_⟩
  · obtain ⟨i, hi⟩ := policy.exists_victimIndex? hne
    obtain ⟨victim, hchoice⟩ := exists_choice hi
    exact ⟨i, victim, tally.add victim, hchoice, fun _ _ => hchoice.unique,
      counted_add victim tally, giveUp_of_found hi hchoice.found tally⟩
  · rintro b now hfull rfl rfl
    exact makeRoom_giveUp hfull now

/-- Nothing here is relayed, so a policy that spares it finds the first of the oldest all the same. -/
example :
    let es := [5.0, 3.0, 3.0].map fun t => Entry.single (.generate ⟨0⟩ ⟨0⟩ ⟨1⟩ ⟨t⟩)
    (EvictionPolicy.mk .oldest true).victimIndex? es = some 1 := by
  decide +kernel

/-- A NaN with a sign is older than any number, and one without a sign is younger. -/
example :
    let times : List Time := [⟨1.0⟩, ⟨⟨0xfff8000000000000⟩⟩, ⟨⟨0x7ff8000000000000⟩⟩]
    let es := times.map fun t => Entry.single (.generate ⟨0⟩ ⟨0⟩ ⟨1⟩ t)
    (EvictionPolicy.mk .oldest false).victimIndex? es = some 1 ∧
      (EvictionPolicy.mk .youngest false).victimIndex? es = some 2 := by
  decide +kernel

end EvictionPolicy

end OppNet
