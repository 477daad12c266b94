import OppNet.Proofs.Binary64.Merit
import OppNet.Proofs.Scheduling

/-!
# OppNet.Proofs.Scheduling.Ranking

What the policies go by, and what is left of it in a priority.

* `Unfit`, `Precedes`, `Tied`: what each policy asks of an offer, which of two offers it sends
  first, and which two it cannot tell apart.
* `rank_cases`: an offer is unfit, or it is `Ranked`. `Ranked.compare`: priorities compare as the
  offers do.
-/

namespace OppNet.SchedulingPolicy

open Binary64 (Above Level)

/-! ### What policies go by -/

/-- What a policy values an offer by, besides its place in the buffer. -/
def valueOf? : SchedulingPolicy → Option (UtilityHint → Float)
  | fifo | lifo => none
  | grtrMax => some fun h => h.receiver
  | grtrSort => some fun h => h.receiver - h.sender
  | hnuv => some fun h => (h.receiver - h.sender) / (h.receiver + h.sender)

/-- Why an offer cannot be ranked. -/
inductive Unfit (policy : SchedulingPolicy) (slotOf : PacketId → Option Nat) (o : Offer) :
    Fault → Prop
  | absent (hs : slotOf o.packet = none) : Unfit policy slotOf o (.packetNotFound o.packet)
  | unhinted {slot : Nat} (hs : slotOf o.packet = some slot) (hu : policy.usesUtilities = true)
    (hh : o.hint = none) : Unfit policy slotOf o (.missingUtility o.packet)
  | zeroSum {slot : Nat} {hint : UtilityHint} (hs : slotOf o.packet = some slot)
    (hp : policy = .hnuv) (hh : o.hint = some hint)
    (hz : (hint.receiver + hint.sender == 0.0) = true) :
    Unfit policy slotOf o (.zeroDenominator o.packet)

/-- The one offer goes before the other one. -/
inductive Precedes (policy : SchedulingPolicy) (slotOf : PacketId → Option Nat)
    (o o' : Offer) : Prop
  | nearer {k k' : Nat} (hp : policy = .fifo) (hs : slotOf o.packet = some k)
    (hs' : slotOf o'.packet = some k') (h : k < k')
  | farther {k k' : Nat} (hp : policy = .lifo) (hs : slotOf o.packet = some k)
    (hs' : slotOf o'.packet = some k') (h : k' < k)
  | better {k k' : Nat} {value : UtilityHint → Float} {hint hint' : UtilityHint}
    (hv : policy.valueOf? = some value) (hs : slotOf o.packet = some k)
    (hs' : slotOf o'.packet = some k') (hh : o.hint = some hint) (hh' : o'.hint = some hint')
    (h : Above (value hint) (value hint') ∨ Level (value hint) (value hint') ∧ k < k')

/-- Neither offer goes before the other one. -/
inductive Tied (policy : SchedulingPolicy) (slotOf : PacketId → Option Nat)
    (o o' : Offer) : Prop
  | place {k : Nat} (hv : policy.valueOf? = none) (hs : slotOf o.packet = some k)
    (hs' : slotOf o'.packet = some k)
  | value {k : Nat} {value : UtilityHint → Float} {hint hint' : UtilityHint}
    (hv : policy.valueOf? = some value) (hs : slotOf o.packet = some k)
    (hs' : slotOf o'.packet = some k) (hh : o.hint = some hint) (hh' : o'.hint = some hint')
    (h : Level (value hint) (value hint'))

/-- The priority of an offer that can be ranked. -/
inductive Ranked (policy : SchedulingPolicy) (slotOf : PacketId → Option Nat) (o : Offer) :
    Priority → Prop
  | front {k : Nat} (hp : policy = .fifo) (hs : slotOf o.packet = some k) :
    Ranked policy slotOf o ⟨0.0, k⟩
  | back {k : Nat} (hp : policy = .lifo) (hs : slotOf o.packet = some k) :
    Ranked policy slotOf o ⟨0.0, -k⟩
  | valued {k : Nat} {value : UtilityHint → Float} {hint : UtilityHint}
    (hv : policy.valueOf? = some value) (hs : slotOf o.packet = some k) (hh : o.hint = some hint) :
    Ranked policy slotOf o ⟨value hint, k⟩

variable {policy : SchedulingPolicy} {slotOf : PacketId → Option Nat} {o o' : Offer}
  {offers : List Offer} {p p' : Priority} {f g : Fault}

theorem Unfit.unique (h : Unfit policy slotOf o f) (h' : Unfit policy slotOf o g) : f = g := by
  cases h with
  | absent hs => cases h' <;> simp_all
  | unhinted hs _ hh => cases h' <;> simp_all
  | zeroSum hs _ hh => cases h' <;> simp_all

theorem Unfit.ne_tie (h : Unfit policy slotOf o f) (a b : PacketId) : f ≠ .tiedSortKeys a b := by
  cases h <;> nofun

/-- Nothing keeps the offer from being ranked. -/
def Fit (policy : SchedulingPolicy) (slotOf : PacketId → Option Nat) (o : Offer) : Prop :=
  ∀ f, ¬ Unfit policy slotOf o f

theorem fit_of_place {k : Nat} (hs : slotOf o.packet = some k)
    (hu : policy.usesUtilities = false) : Fit policy slotOf o := by
  intro f h
  cases h with
  | absent hnone =>
    rw [hs] at hnone
    cases hnone
  | unhinted _ huses _ =>
    rw [hu] at huses
    cases huses
  | zeroSum _ hp _ _ =>
    subst hp
    cases hu

theorem fit_of_value {k : Nat} {hint : UtilityHint} (hs : slotOf o.packet = some k)
    (hh : o.hint = some hint)
    (hz : policy = .hnuv → (hint.receiver + hint.sender == 0.0) = false) :
    Fit policy slotOf o := by
  intro f h
  cases h with
  | absent hnone =>
    rw [hs] at hnone
    cases hnone
  | unhinted _ _ hnone =>
    rw [hh] at hnone
    cases hnone
  | zeroSum _ hp hh' hsum =>
    obtain rfl := Option.some_inj.mp (hh.symm.trans hh')
    rw [hz hp] at hsum
    cases hsum

/-- An offer is unfit, and refused for that, or it is ranked. -/
theorem rank_cases (policy : SchedulingPolicy) (slotOf : PacketId → Option Nat) (o : Offer) :
    (∃ f, policy.rank slotOf o = .error f ∧ Unfit policy slotOf o f) ∨
    ∃ p, policy.rank slotOf o = .ok ⟨o.packet, p⟩ ∧ Ranked policy slotOf o p ∧
      Fit policy slotOf o := by
  unfold rank
  cases hs : slotOf o.packet with
  | none => exact .inl ⟨_, rfl, .absent hs⟩
  | some k =>
    cases policy with
    | fifo => exact .inr ⟨_, rfl, .front rfl hs, fit_of_place hs rfl⟩
    | lifo => exact .inr ⟨_, rfl, .back rfl hs, fit_of_place hs rfl⟩
    | grtrMax | grtrSort =>
      cases hh : o.hint with
      | none => exact .inl ⟨_, by simp only [priority, hh]; rfl, .unhinted hs rfl hh⟩
      | some hint =>
        refine .inr ⟨_, by simp only [priority, hh]; rfl, .valued rfl hs hh,
          fit_of_value hs hh fun h => ?_⟩
        cases h
    | hnuv =>
      cases hh : o.hint with
      | none => exact .inl ⟨_, by simp only [priority, hh]; rfl, .unhinted hs rfl hh⟩
      | some hint =>
        cases hz : hint.receiver + hint.sender == 0.0 with
        | true =>
          exact .inl ⟨_, by simp only [priority, hh, merit, hz]; rfl, .zeroSum hs rfl hh hz⟩
        | false =>
          exact .inr ⟨_, by simp only [priority, hh, merit, hz]; rfl, .valued rfl hs hh,
            fit_of_value hs hh fun _ => hz⟩

/-! ### Priorities -/

instance : Std.TransCmp Priority.compare :=
  have : Std.TransCmp fun p q : Priority => Binary64.meritCompare p.merit q.merit :=
    inferInstanceAs (Std.TransCmp (compareOn fun p : Priority => Binary64.meritRank p.merit))
  inferInstanceAs (Std.TransCmp (compareLex
    (fun p q : Priority => Binary64.meritCompare q.merit p.merit) (compareOn Priority.slot)))

theorem compare_slots (m : Float) (j k : Int) :
    Priority.compare ⟨m, j⟩ ⟨m, k⟩ = Ord.compare j k := by
  have hself : Binary64.meritCompare m m = .eq := Std.ReflCmp.compare_self
  rw [Priority.compare, hself]
  rfl

theorem compare_eq_lt_iff {m m' : Float} {k k' : Nat} :
    Priority.compare ⟨m, k⟩ ⟨m', k'⟩ = .lt ↔ Above m m' ∨ Level m m' ∧ k < k' := by
  rw [Priority.compare, Ordering.then_eq_lt, Binary64.meritCompare_eq_lt,
    Std.OrientedCmp.eq_comm, Binary64.meritCompare_eq_eq, Int.compare_eq_lt, Int.ofNat_lt]

theorem compare_eq_eq_iff {m m' : Float} {k k' : Nat} :
    Priority.compare ⟨m, k⟩ ⟨m', k'⟩ = .eq ↔ Level m m' ∧ k = k' := by
  rw [Priority.compare, Ordering.then_eq_eq, Std.OrientedCmp.eq_comm, Binary64.meritCompare_eq_eq,
    Int.compare_eq_eq, Int.ofNat_inj]

section Offers

variable {k k' : Nat} {value : UtilityHint → Float} {hint hint' : UtilityHint}
  (hs : slotOf o.packet = some k) (hs' : slotOf o'.packet = some k')
include hs hs'

theorem precedes_fifo_iff : Precedes .fifo slotOf o o' ↔ k < k' := by
  constructor
  · intro h
    cases h with
    | nearer _ ht ht' h =>
      obtain rfl := Option.some_inj.mp (hs.symm.trans ht)
      obtain rfl := Option.some_inj.mp (hs'.symm.trans ht')
      exact h
    | farther hp => cases hp
    | better hv => cases hv
  · exact .nearer rfl hs hs'

theorem precedes_lifo_iff : Precedes .lifo slotOf o o' ↔ k' < k := by
  constructor
  · intro h
    cases h with
    | nearer hp => cases hp
    | farther _ ht ht' h =>
      obtain rfl := Option.some_inj.mp (hs.symm.trans ht)
      obtain rfl := Option.some_inj.mp (hs'.symm.trans ht')
      exact h
    | better hv => cases hv
  · exact .farther rfl hs hs'

theorem tied_place_iff (hv : policy.valueOf? = none) : Tied policy slotOf o o' ↔ k = k' := by
  constructor
  · intro h
    cases h with
    | place _ ht ht' =>
      obtain rfl := Option.some_inj.mp (hs.symm.trans ht)
      exact (Option.some_inj.mp (hs'.symm.trans ht')).symm
    | value hv' =>
      rw [hv] at hv'
      cases hv'
  · rintro rfl
    exact .place hv hs hs'

variable (hv : policy.valueOf? = some value) (hh : o.hint = some hint) (hh' : o'.hint = some hint')
include hv hh hh'

theorem precedes_value_iff : Precedes policy slotOf o o' ↔
    Above (value hint) (value hint') ∨ Level (value hint) (value hint') ∧ k < k' := by
  constructor
  · intro h
    cases h with
    | nearer hp =>
      subst hp
      cases hv
    | farther hp =>
      subst hp
      cases hv
    | better hw ht ht' hg hg' h =>
      obtain rfl := Option.some_inj.mp (hv.symm.trans hw)
      obtain rfl := Option.some_inj.mp (hs.symm.trans ht)
      obtain rfl := Option.some_inj.mp (hs'.symm.trans ht')
      obtain rfl := Option.some_inj.mp (hh.symm.trans hg)
      obtain rfl := Option.some_inj.mp (hh'.symm.trans hg')
      exact h
  · exact .better hv hs hs' hh hh'

theorem tied_value_iff : Tied policy slotOf o o' ↔
    Level (value hint) (value hint') ∧ k = k' := by
  constructor
  · intro h
    cases h with
    | place hv' =>
      rw [hv] at hv'
      cases hv'
    | value hw ht ht' hg hg' h =>
      obtain rfl := Option.some_inj.mp (hv.symm.trans hw)
      obtain rfl := Option.some_inj.mp (hs.symm.trans ht)
      obtain rfl := Option.some_inj.mp (hh.symm.trans hg)
      obtain rfl := Option.some_inj.mp (hh'.symm.trans hg')
      exact ⟨h, (Option.some_inj.mp (hs'.symm.trans ht')).symm⟩
  · rintro ⟨h, rfl⟩
    exact .value hv hs hs' hh hh' h

end Offers

/-- Priorities compare as the offers do. -/
theorem Ranked.compare (h : Ranked policy slotOf o p) (h' : Ranked policy slotOf o' p') :
    (p.compare p' = .lt ↔ Precedes policy slotOf o o') ∧
    (p.compare p' = .eq ↔ Tied policy slotOf o o') := by
  cases h with
  | @front k hp hs =>
    subst hp
    cases h' with
    | front _ hs' =>
      rw [compare_slots, precedes_fifo_iff hs hs', tied_place_iff hs hs' rfl, Int.compare_eq_lt,
        Int.compare_eq_eq]
      omega
    | back hp => cases hp
    | valued hv => cases hv
  | @back k hp hs =>
    subst hp
    cases h' with
    | front hp => cases hp
    | back _ hs' =>
      rw [compare_slots, precedes_lifo_iff hs hs', tied_place_iff hs hs' rfl, Int.compare_eq_lt,
        Int.compare_eq_eq]
      omega
    | valued hv => cases hv
  | valued hv hs hh =>
    cases h' with
    | front hp =>
      subst hp
      cases hv
    | back hp =>
      subst hp
      cases hv
    | valued hv' hs' hh' =>
      obtain rfl := Option.some_inj.mp (hv.symm.trans hv')
      rw [compare_eq_lt_iff, compare_eq_eq_iff, precedes_value_iff hs hs' hv hh hh',
        tied_value_iff hs hs' hv hh hh']
      exact ⟨Iff.rfl, Iff.rfl⟩

theorem Precedes.exists_ranked (h : Precedes policy slotOf o o') :
    ∃ p p', Ranked policy slotOf o p ∧ Ranked policy slotOf o' p' ∧ p.compare p' = .lt := by
  have hboth : ∃ p p', Ranked policy slotOf o p ∧ Ranked policy slotOf o' p' := by
    cases h with
    | nearer hp hs hs' => exact ⟨_, _, .front hp hs, .front hp hs'⟩
    | farther hp hs hs' => exact ⟨_, _, .back hp hs, .back hp hs'⟩
    | better hv hs hs' hh hh' => exact ⟨_, _, .valued hv hs hh, .valued hv hs' hh'⟩
  obtain ⟨p, p', hp, hp'⟩ := hboth
  exact ⟨p, p', hp, hp', (hp.compare hp').1.mpr h⟩

theorem Precedes.asymm (h : Precedes policy slotOf o o') : ¬ Precedes policy slotOf o' o := by
  obtain ⟨p, p', hp, hp', hlt⟩ := h.exists_ranked
  intro h'
  exact Std.OrientedCmp.not_lt_of_lt hlt ((hp'.compare hp).1.mpr h')

theorem Precedes.not_tied (h : Precedes policy slotOf o o') : ¬ Tied policy slotOf o o' := by
  obtain ⟨p, p', hp, hp', hlt⟩ := h.exists_ranked
  intro h'
  rw [(hp.compare hp').2.mpr h'] at hlt
  cases hlt

theorem Tied.exists_ranked (h : Tied policy slotOf o o') :
    ∃ p p', Ranked policy slotOf o p ∧ Ranked policy slotOf o' p' := by
  cases h with
  | place hv hs hs' =>
    cases policy with
    | fifo => exact ⟨_, _, .front rfl hs, .front rfl hs'⟩
    | lifo => exact ⟨_, _, .back rfl hs, .back rfl hs'⟩
    | _ => cases hv
  | value hv hs hs' hh hh' => exact ⟨_, _, .valued hv hs hh, .valued hv hs' hh'⟩

theorem Tied.symm (h : Tied policy slotOf o o') : Tied policy slotOf o' o := by
  obtain ⟨p, p', hp, hp'⟩ := h.exists_ranked
  exact (hp'.compare hp).2.mp (Std.OrientedCmp.eq_symm ((hp.compare hp').2.mpr h))

end OppNet.SchedulingPolicy
