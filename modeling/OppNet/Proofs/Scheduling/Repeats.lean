import OppNet.Proofs.Scheduling.Strict

/-!
# OppNet.Proofs.Scheduling.Repeats

What becomes of a packet that is offered more than once. An order lists all that was offered, so it
lists such a packet more than once, unless there is no order.

* `ValuedApart`: the policy goes by more than the place of the two offers, and tells them apart.
* `exists_order_iff`: there is an order if no two offers of one place are left untold.
* `computeOrder_repeats`: a repeat that is valued apart goes unreported, and every other one is a
  fault.
-/

namespace OppNet.SchedulingPolicy

open Binary64 (Level)

variable {policy : SchedulingPolicy} {slotOf : PacketId → Option Nat} {o o' : Offer}
  {offers : List Offer} {a b : PacketId}

/-- The policy values both offers, and not alike. -/
def ValuedApart (policy : SchedulingPolicy) (o o' : Offer) : Prop :=
  ∃ value hint hint', policy.valueOf? = some value ∧ o.hint = some hint ∧ o'.hint = some hint' ∧
    ¬ Level (value hint) (value hint')

theorem not_valuedApart_self (policy : SchedulingPolicy) (o : Offer) :
    ¬ ValuedApart policy o o := by
  rintro ⟨value, hint, hint', -, hh, hh', hlevel⟩
  obtain rfl := Option.some_inj.mp (hh.symm.trans hh')
  exact hlevel (Binary64.meritCompare_eq_eq.mp Std.ReflCmp.compare_self)

theorem Fit.exists_slot (h : Fit policy slotOf o) : ∃ k, slotOf o.packet = some k := by
  cases hs : slotOf o.packet with
  | none => exact absurd (.absent hs) (h _)
  | some k => exact ⟨k, rfl⟩

theorem usesUtilities_of_value {value : UtilityHint → Float} (hv : policy.valueOf? = some value) :
    policy.usesUtilities = true := by
  cases policy with
  | fifo => cases hv
  | lifo => cases hv
  | _ => rfl

theorem Fit.exists_hint {value : UtilityHint → Float} (h : Fit policy slotOf o)
    (hv : policy.valueOf? = some value) : ∃ hint, o.hint = some hint := by
  obtain ⟨k, hs⟩ := h.exists_slot
  cases hh : o.hint with
  | none => exact absurd (.unhinted hs (usesUtilities_of_value hv) hh) (h _)
  | some hint => exact ⟨hint, rfl⟩

theorem not_tied_iff (ho : Fit policy slotOf o) (ho' : Fit policy slotOf o') :
    ¬ Tied policy slotOf o o' ↔ (slotOf o.packet = slotOf o'.packet → ValuedApart policy o o') := by
  obtain ⟨k, hs⟩ := ho.exists_slot
  obtain ⟨k', hs'⟩ := ho'.exists_slot
  rw [hs, hs', Option.some_inj]
  cases hv : policy.valueOf? with
  | none =>
    rw [tied_place_iff hs hs' hv]
    refine ⟨fun hne heq => absurd heq hne, fun h heq => ?_⟩
    obtain ⟨_, _, _, hv', -⟩ := h heq
    rw [hv] at hv'
    cases hv'
  | some value =>
    obtain ⟨hint, hh⟩ := ho.exists_hint hv
    obtain ⟨hint', hh'⟩ := ho'.exists_hint hv
    rw [tied_value_iff hs hs' hv hh hh']
    constructor
    · intro hne heq
      exact ⟨value, hint, hint', hv, hh, hh', fun hlevel => hne ⟨hlevel, heq⟩⟩
    · rintro h ⟨hlevel, heq⟩
      obtain ⟨_, _, _, hw, hg, hg', hapart⟩ := h heq
      obtain rfl := Option.some_inj.mp (hv.symm.trans hw)
      obtain rfl := Option.some_inj.mp (hh.symm.trans hg)
      obtain rfl := Option.some_inj.mp (hh'.symm.trans hg')
      exact hapart hlevel

/-- Any two of the offers that are for one place are valued apart. -/
def Distinguished (policy : SchedulingPolicy) (slotOf : PacketId → Option Nat)
    (offers : List Offer) : Prop :=
  offers.Pairwise fun o o' => slotOf o.packet = slotOf o'.packet → ValuedApart policy o o'

theorem distinguished_iff (hfit : ∀ o ∈ offers, Fit policy slotOf o) :
    Distinguished policy slotOf offers ↔
      offers.Pairwise fun o o' => ¬ Tied policy slotOf o o' :=
  List.Pairwise.iff_of_mem fun ho ho' => (not_tied_iff (hfit _ ho) (hfit _ ho')).symm

theorem Distinguished.nodup (h : Distinguished policy slotOf offers) : offers.Nodup := by
  refine h.imp fun {o o'} happart => ?_
  rintro rfl
  exact not_valuedApart_self policy o (happart rfl)

/-- A policy that goes by places only has no other way to tell offers apart. -/
theorem Distinguished.nodup_packets (h : Distinguished policy slotOf offers)
    (hv : policy.valueOf? = none) : (offers.map (·.packet)).Nodup := by
  refine List.pairwise_map.mpr (h.imp fun {o o'} happart heq => ?_)
  obtain ⟨_, _, _, hv', -⟩ := happart (congrArg slotOf heq)
  rw [hv] at hv'
  cases hv'

theorem HasTie.not_distinguished (h : HasTie policy slotOf offers a b)
    (hfit : ∀ o ∈ offers, Fit policy slotOf o) : ¬ Distinguished policy slotOf offers := by
  obtain ⟨o, o', rest, hperm, htie, -, -⟩ := h
  rw [distinguished_iff hfit, hperm.pairwise_iff fun hne ht => hne ht.symm]
  intro hdistinct
  exact (List.pairwise_cons.mp hdistinct).1 o' List.mem_cons_self htie

theorem Arranged.distinguished {sorted : List Offer} (h : Arranged policy slotOf offers sorted)
    (hfit : ∀ o ∈ offers, Fit policy slotOf o) : Distinguished policy slotOf offers := by
  rw [distinguished_iff hfit, ← h.1.pairwise_iff fun hne ht => hne ht.symm]
  exact h.2.imp Precedes.not_tied

theorem exists_order_iff : (∃ ids, policy.order slotOf offers = .ok (some ids)) ↔
    offers ≠ [] ∧ (∀ o ∈ offers, Fit policy slotOf o) ∧ Distinguished policy slotOf offers := by
  have houtcome := order_outcome policy slotOf offers
  constructor
  · rintro ⟨ids, h⟩
    obtain ⟨hne, hfit, sorted, harranged, -⟩ := order_eq_some_iff.mp h
    exact ⟨hne, hfit, harranged.distinguished hfit⟩
  · rintro ⟨hne, hfit, hdistinguished⟩
    generalize policy.order slotOf offers = outcome at houtcome ⊢
    cases houtcome with
    | nothing => exact absurd rfl hne
    | refused hunfit => exact absurd hfit hunfit.not_forall_fit
    | tied _ htie => exact absurd hdistinguished (htie.not_distinguished hfit)
    | arranged => exact ⟨_, rfl⟩

theorem order_fails_iff : (∃ f, policy.order slotOf offers = .error f) ↔
    ¬ ((∀ o ∈ offers, Fit policy slotOf o) ∧ Distinguished policy slotOf offers) := by
  have houtcome := order_outcome policy slotOf offers
  generalize policy.order slotOf offers = outcome at houtcome ⊢
  cases houtcome with
  | nothing => exact iff_of_false nofun (not_not.mpr ⟨nofun, .nil⟩)
  | refused hunfit => exact iff_of_true ⟨_, rfl⟩ fun h => hunfit.not_forall_fit h.1
  | tied hfit htie => exact iff_of_true ⟨_, rfl⟩ fun h => htie.not_distinguished hfit h.2
  | arranged _ hfit h => exact iff_of_false nofun (not_not.mpr ⟨hfit, h.distinguished hfit⟩)

end OppNet.SchedulingPolicy

namespace OppNet.Scheduler

open SchedulingPolicy

/-- What is listed is what was added, so that a packet added twice is either reported or listed
twice. It is reported if an offer is unfit, or if two of one place are not valued apart: always, if
the policy goes by places, or if the very same offer was added twice. -/
theorem computeOrder_repeats (policy : SchedulingPolicy) (slotOf : PacketId → Option Nat)
    (offers : List Offer) :
    let outcome := ((gather policy offers).computeOrder slotOf).1
    let added := offers.map (·.packet)
    (∀ ids, outcome = .ok (some ids) → ids.Perm added) ∧
    ((∃ f, outcome = .error f) ↔
      ¬ ((∀ o ∈ offers, Fit policy slotOf o) ∧ Distinguished policy slotOf offers)) ∧
    ((∃ ids, outcome = .ok (some ids) ∧ ¬ ids.Nodup) ↔
      ¬ added.Nodup ∧ (∀ o ∈ offers, Fit policy slotOf o) ∧
        Distinguished policy slotOf offers) ∧
    (policy.usesUtilities = false → ¬ added.Nodup → ∃ f, outcome = .error f) ∧
    (¬ offers.Nodup → ∃ f, outcome = .error f) := by
  intro outcome added
  have houtcome : outcome = policy.order slotOf offers :=
    congrArg Prod.fst (computeOrder_gather policy slotOf offers)
  rw [houtcome]
  refine ⟨fun ids => order_perm, order_fails_iff, ⟨?_, ?_⟩, fun huses hrepeated => ?_,
    fun hrepeated => ?_⟩
  · rintro ⟨ids, h, hrepeated⟩
    obtain ⟨-, hfit, hdistinguished⟩ := exists_order_iff.mp ⟨ids, h⟩
    exact ⟨fun hnodup => hrepeated ((order_perm h).nodup_iff.mpr hnodup), hfit, hdistinguished⟩
  · rintro ⟨hrepeated, hfit, hdistinguished⟩
    have hne : offers ≠ [] := by
      rintro rfl
      exact hrepeated .nil
    obtain ⟨ids, h⟩ := exists_order_iff.mpr ⟨hne, hfit, hdistinguished⟩
    exact ⟨ids, h, fun hnodup => hrepeated ((order_perm h).nodup_iff.mp hnodup)⟩
  · refine order_fails_iff.mpr fun ⟨_, hdistinguished⟩ => hrepeated ?_
    refine hdistinguished.nodup_packets ?_
    cases hv : policy.valueOf? with
    | none => rfl
    | some value =>
      rw [usesUtilities_of_value hv] at huses
      cases huses
  · exact order_fails_iff.mpr fun ⟨_, hdistinguished⟩ => hrepeated hdistinguished.nodup

/-- One packet offered twice, with two utilities of the receiver. -/
def repeatedOffers : List Offer := [⟨⟨1⟩, some ⟨0.25, 0.5⟩⟩, ⟨⟨1⟩, some ⟨0.25, 0.75⟩⟩]

/-- The packet is listed twice by a policy that values the offers apart, and reported by one that
goes by places. -/
theorem computeOrder_repeated_offers :
    let slotOf (id : PacketId) : Option Nat := if id = ⟨1⟩ then some 0 else none
    let outcome (policy : SchedulingPolicy) :=
      ((gather policy repeatedOffers).computeOrder slotOf).1
    outcome .grtrMax = .ok (some [⟨1⟩, ⟨1⟩]) ∧
      [⟨1⟩, ⟨1⟩].Perm (repeatedOffers.map (·.packet)) ∧ ∃ f, outcome .fifo = .error f := by
  intro slotOf outcome
  have h : outcome .grtrMax = .ok (some [⟨1⟩, ⟨1⟩]) := by decide +kernel
  exact ⟨h, (computeOrder_repeats .grtrMax slotOf repeatedOffers).1 _ h,
    (computeOrder_repeats .fifo slotOf repeatedOffers).2.2.2.1 rfl (by decide)⟩

/-- An order may list a packet twice. -/
theorem computeOrder_lists_twice :
    ¬ ∀ (policy : SchedulingPolicy) (slotOf : PacketId → Option Nat) (offers : List Offer)
      (ids : List PacketId),
      ((gather policy offers).computeOrder slotOf).1 = .ok (some ids) → ids.Nodup := by
  intro h
  have hnodup := h .grtrMax (fun id => if id = ⟨1⟩ then some 0 else none) repeatedOffers
    [⟨1⟩, ⟨1⟩] (by decide +kernel)
  exact absurd hnodup (by decide)

end OppNet.Scheduler
