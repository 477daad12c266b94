import Mathlib.Data.List.Perm.Basic
import OppNet.Proofs.Scheduling.Ranking

/-!
# OppNet.Proofs.Scheduling.Strict

A scheduler sorts strictly, or says why it cannot.

* `Ascending.strict`: ties are looked for between neighbours only, which is enough once all offers
  are sorted.
* `FirstUnfit`, `HasTie`, `Arranged`: what a scheduler may find among the offers. `order_outcome`:
  one of them it does find.
* `computeOrder_strict`: which of them a scheduler answers with, whatever was added to it.
-/

namespace OppNet.SchedulingPolicy

variable {policy : SchedulingPolicy} {slotOf : PacketId → Option Nat} {o o' : Offer}
  {offers : List Offer} {f g : Fault}

/-! ### Sorting -/

/-- Sorted, as far as priorities tell. -/
def Ascending (rs : List RankedOffer) : Prop :=
  rs.Pairwise fun r s => (r.priority.compare s.priority).isLE = true

theorem Ascending.insertRanked {r : RankedOffer} {rs : List RankedOffer} (h : Ascending rs) :
    Ascending (insertRanked r rs) := by
  induction rs with
  | nil => exact List.pairwise_singleton _ r
  | cons x rest ih =>
    obtain ⟨hx, hrest⟩ := List.pairwise_cons.mp h
    rw [SchedulingPolicy.insertRanked]
    split
    · rename_i hle
      refine List.pairwise_cons.mpr ⟨fun y hy => ?_, h⟩
      rcases List.mem_cons.mp hy with rfl | hy
      · exact hle
      · exact Std.TransCmp.isLE_trans hle (hx y hy)
    · rename_i hgt
      have hlt : x.priority.compare r.priority = .lt := Std.OrientedCmp.lt_of_not_isLE hgt
      refine List.pairwise_cons.mpr ⟨fun y hy => ?_, ih hrest⟩
      rcases List.mem_cons.mp ((insertRanked_perm r rest).mem_iff.mp hy) with rfl | hy
      · exact Ordering.isLE_of_eq_lt hlt
      · exact hx y hy

theorem ascending_sortRanked (rs : List RankedOffer) : Ascending (sortRanked rs) := by
  induction rs with
  | nil => exact .nil
  | cons r rest ih => exact ih.insertRanked

/-- In a sorted list, without a tie between neighbours there is none at all. -/
theorem Ascending.strict {rs : List RankedOffer} (h : Ascending rs) (ht : firstTie? rs = none) :
    rs.Pairwise fun r s => r.priority.compare s.priority = .lt := by
  induction rs with
  | nil => exact .nil
  | cons x rest ih =>
    obtain ⟨hx, hrest⟩ := List.pairwise_cons.mp h
    cases rest with
    | nil => exact List.pairwise_singleton _ x
    | cons y rest =>
      rw [firstTie?] at ht
      split at ht
      · cases ht
      · rename_i hne
        have hstrict := ih hrest ht
        have hxy : x.priority.compare y.priority = .lt :=
          (Ordering.isLE_iff_eq_lt_or_eq_eq.mp (hx y List.mem_cons_self)).resolve_right hne
        refine List.pairwise_cons.mpr ⟨fun z hz => ?_, hstrict⟩
        rcases List.mem_cons.mp hz with rfl | hz
        · exact hxy
        · exact Std.TransCmp.lt_trans hxy ((List.pairwise_cons.mp hstrict).1 z hz)

theorem firstTie?_eq_some {rs : List RankedOffer} {a b : PacketId}
    (h : firstTie? rs = some (a, b)) : ∃ x y rest, rs.Perm (x :: y :: rest) ∧
      x.priority.compare y.priority = .eq ∧ x.packet = a ∧ y.packet = b := by
  induction rs with
  | nil => cases h
  | cons x rest ih =>
    cases rest with
    | nil => cases h
    | cons y rest =>
      rw [firstTie?] at h
      split at h
      · rename_i heq
        cases h
        exact ⟨x, y, rest, .refl _, heq, rfl, rfl⟩
      · obtain ⟨u, v, others, hperm, htie⟩ := ih h
        refine ⟨u, v, x :: others, (hperm.cons x).trans ?_, htie⟩
        exact (List.Perm.swap u x _).trans ((List.Perm.swap v x _).cons u)

/-! ### Ranking -/

/-- The first of the offers that is unfit, and why. -/
inductive FirstUnfit (policy : SchedulingPolicy) (slotOf : PacketId → Option Nat) :
    List Offer → Fault → Prop
  | here {o : Offer} {f : Fault} (h : Unfit policy slotOf o f) (rest : List Offer) :
    FirstUnfit policy slotOf (o :: rest) f
  | later {o : Offer} {rest : List Offer} {f : Fault} (ho : Fit policy slotOf o)
    (h : FirstUnfit policy slotOf rest f) : FirstUnfit policy slotOf (o :: rest) f

theorem FirstUnfit.exists_unfit (h : FirstUnfit policy slotOf offers f) :
    ∃ o ∈ offers, Unfit policy slotOf o f := by
  induction h with
  | here h => exact ⟨_, List.mem_cons_self, h⟩
  | later _ _ ih =>
    obtain ⟨o, ho, h⟩ := ih
    exact ⟨o, List.mem_cons_of_mem _ ho, h⟩

theorem FirstUnfit.not_forall_fit (h : FirstUnfit policy slotOf offers f) :
    ¬ ∀ o ∈ offers, Fit policy slotOf o := by
  intro hfit
  obtain ⟨o, ho, hunfit⟩ := h.exists_unfit
  exact hfit o ho f hunfit

theorem FirstUnfit.unique (h : FirstUnfit policy slotOf offers f)
    (h' : FirstUnfit policy slotOf offers g) : f = g := by
  induction h with
  | here h =>
    cases h' with
    | here h' => exact h.unique h'
    | later ho => exact absurd h (ho _)
  | later ho _ ih =>
    cases h' with
    | here h' => exact absurd h' (ho _)
    | later _ h' => exact ih h'

/-- The ranked offer stands for the offer. -/
def RankOf (policy : SchedulingPolicy) (slotOf : PacketId → Option Nat) (r : RankedOffer)
    (o : Offer) : Prop :=
  r.packet = o.packet ∧ Ranked policy slotOf o r.priority

theorem rankAll_cases (policy : SchedulingPolicy) (slotOf : PacketId → Option Nat)
    (offers : List Offer) :
    (∃ f, policy.rankAll slotOf offers = .error f ∧ FirstUnfit policy slotOf offers f) ∨
    ∃ rs, policy.rankAll slotOf offers = .ok rs ∧
      List.Forall₂ (RankOf policy slotOf) rs offers ∧ ∀ o ∈ offers, Fit policy slotOf o := by
  induction offers with
  | nil => exact .inr ⟨[], rfl, .nil, nofun⟩
  | cons o rest ih =>
    rw [rankAll]
    rcases rank_cases policy slotOf o with ⟨f, hrank, hunfit⟩ | ⟨p, hrank, hranked, hfit⟩
    · rw [hrank]
      exact .inl ⟨f, rfl, .here hunfit rest⟩
    · rw [hrank]
      rcases ih with ⟨f, hrest, hunfit⟩ | ⟨rs, hrest, hranks, hfits⟩
      · rw [hrest]
        exact .inl ⟨f, rfl, .later hfit hunfit⟩
      · rw [hrest]
        refine .inr ⟨_, rfl, .cons ⟨rfl, hranked⟩ hranks, fun o' ho' => ?_⟩
        rcases List.mem_cons.mp ho' with rfl | ho'
        · exact hfit
        · exact hfits o' ho'

theorem map_packet_eq {rs : List RankedOffer} (h : List.Forall₂ (RankOf policy slotOf) rs offers) :
    rs.map (·.packet) = offers.map (·.packet) := by
  induction h with
  | nil => rfl
  | cons hr _ ih => rw [List.map_cons, List.map_cons, hr.1, ih]

theorem exists_rankOf {rs : List RankedOffer} (h : List.Forall₂ (RankOf policy slotOf) rs offers)
    (ho : o ∈ offers) : ∃ r ∈ rs, RankOf policy slotOf r o := by
  induction h with
  | nil => cases ho
  | cons hr _ ih =>
    rcases List.mem_cons.mp ho with rfl | ho
    · exact ⟨_, List.mem_cons_self, hr⟩
    · obtain ⟨r, hmem, hro⟩ := ih ho
      exact ⟨r, List.mem_cons_of_mem _ hmem, hro⟩

theorem pairwise_precedes {rs : List RankedOffer}
    (h : List.Forall₂ (RankOf policy slotOf) rs offers)
    (hrs : rs.Pairwise fun r s => r.priority.compare s.priority = .lt) :
    offers.Pairwise (Precedes policy slotOf) := by
  induction h with
  | nil => exact .nil
  | cons hr hrest ih =>
    obtain ⟨hfirst, hrs⟩ := List.pairwise_cons.mp hrs
    refine List.pairwise_cons.mpr ⟨fun o' ho' => ?_, ih hrs⟩
    obtain ⟨s, hs, hso⟩ := exists_rankOf hrest ho'
    exact (hr.2.compare hso.2).1.mp (hfirst s hs)

/-! ### The order -/

/-- All the offers, each one before those that it precedes and no other way round. -/
def Arranged (policy : SchedulingPolicy) (slotOf : PacketId → Option Nat) (offers : List Offer)
    (sorted : List Offer) : Prop :=
  sorted.Perm offers ∧ sorted.Pairwise (Precedes policy slotOf)

/-- Two of the offers, of these packets, cannot be told apart. -/
def HasTie (policy : SchedulingPolicy) (slotOf : PacketId → Option Nat) (offers : List Offer)
    (a b : PacketId) : Prop :=
  ∃ o o' rest, offers.Perm (o :: o' :: rest) ∧ Tied policy slotOf o o' ∧ o.packet = a ∧
    o'.packet = b

variable {sorted sorted' offers' : List Offer} {a b : PacketId}

theorem Arranged.unique (h : Arranged policy slotOf offers sorted)
    (h' : Arranged policy slotOf offers sorted') : sorted = sorted' :=
  (h.1.trans h'.1.symm).eq_of_pairwise (fun _ _ _ _ hab hba => absurd hba hab.asymm) h.2 h'.2

theorem Arranged.not_hasTie (h : Arranged policy slotOf offers sorted) :
    ¬ HasTie policy slotOf offers a b := by
  rintro ⟨o, o', rest, hperm, htie, -, -⟩
  have hdistinct : sorted.Pairwise fun o o' => ¬ Tied policy slotOf o o' :=
    h.2.imp Precedes.not_tied
  have hrest := ((h.1.trans hperm).pairwise_iff fun hne ht => hne ht.symm).mp hdistinct
  exact (List.pairwise_cons.mp hrest).1 o' List.mem_cons_self htie

/-- Two ranked offers of one priority stand for two offers that are tied. -/
theorem hasTie_of_firstTie? {rs : List RankedOffer}
    (h : List.Forall₂ (RankOf policy slotOf) rs sorted) (hperm : sorted.Perm offers)
    (ht : firstTie? rs = some (a, b)) : HasTie policy slotOf offers a b := by
  obtain ⟨x, y, rest, hsplit, heq, rfl, rfl⟩ := firstTie?_eq_some ht
  obtain ⟨others, hothers, hothersPerm⟩ := List.perm_comp_forall₂ hsplit.symm h
  cases hothers with
  | cons hx hothers =>
    cases hothers with
    | cons hy _ =>
      exact ⟨_, _, _, (hothersPerm.trans hperm).symm, (hx.2.compare hy.2).2.mp heq, hx.1.symm,
        hy.1.symm⟩

/-- The possible outcomes of an order. -/
inductive Outcome (policy : SchedulingPolicy) (slotOf : PacketId → Option Nat) :
    List Offer → Except Fault (Option (List PacketId)) → Prop
  | nothing : Outcome policy slotOf [] (.ok none)
  | refused {offers : List Offer} {f : Fault} (h : FirstUnfit policy slotOf offers f) :
    Outcome policy slotOf offers (.error f)
  | tied {offers : List Offer} {a b : PacketId} (hfit : ∀ o ∈ offers, Fit policy slotOf o)
    (h : HasTie policy slotOf offers a b) :
    Outcome policy slotOf offers (.error (.tiedSortKeys a b))
  | arranged {offers sorted : List Offer} (hne : offers ≠ [])
    (hfit : ∀ o ∈ offers, Fit policy slotOf o) (h : Arranged policy slotOf offers sorted) :
    Outcome policy slotOf offers (.ok (some (sorted.map (·.packet))))

theorem order_outcome (policy : SchedulingPolicy) (slotOf : PacketId → Option Nat)
    (offers : List Offer) : Outcome policy slotOf offers (policy.order slotOf offers) := by
  unfold order
  split
  · rename_i hempty
    obtain rfl := List.isEmpty_iff.mp hempty
    exact .nothing
  · rename_i hne
    have hne : offers ≠ [] := fun h => hne (List.isEmpty_iff.mpr h)
    rcases rankAll_cases policy slotOf offers with ⟨f, hrank, hunfit⟩ | ⟨rs, hrank, hranks, hfit⟩
    · rw [hrank]
      exact .refused hunfit
    · rw [hrank]
      dsimp only
      -- The ranked offers in their sorted order stand for the offers in some order.
      obtain ⟨sorted, hsorted, hperm⟩ := List.perm_comp_forall₂ (sortRanked_perm rs) hranks
      split
      · rename_i htie
        exact .tied hfit (hasTie_of_firstTie? hsorted hperm htie)
      · rename_i htie
        have hstrict := (ascending_sortRanked rs).strict htie
        have harranged : Arranged policy slotOf offers sorted :=
          ⟨hperm, pairwise_precedes hsorted hstrict⟩
        rw [map_packet_eq hsorted]
        exact .arranged hne hfit harranged

theorem order_eq_none_iff : policy.order slotOf offers = .ok none ↔ offers = [] := by
  refine ⟨order_eq_none, ?_⟩
  rintro rfl
  rfl

theorem order_eq_error_iff (hf : ∀ a b, f ≠ .tiedSortKeys a b) :
    policy.order slotOf offers = .error f ↔ FirstUnfit policy slotOf offers f := by
  have houtcome := order_outcome policy slotOf offers
  constructor
  · intro h
    rw [h] at houtcome
    cases houtcome with
    | refused hunfit => exact hunfit
    | tied => exact absurd rfl (hf _ _)
  · intro h
    generalize policy.order slotOf offers = outcome at houtcome
    cases houtcome with
    | nothing => cases h
    | refused hunfit => rw [hunfit.unique h]
    | tied hfit => exact absurd hfit h.not_forall_fit
    | arranged _ hfit => exact absurd hfit h.not_forall_fit

theorem order_eq_tied (h : policy.order slotOf offers = .error (.tiedSortKeys a b)) :
    (∀ o ∈ offers, Fit policy slotOf o) ∧ HasTie policy slotOf offers a b := by
  have houtcome := order_outcome policy slotOf offers
  rw [h] at houtcome
  cases houtcome with
  | refused hunfit =>
    obtain ⟨o, -, ho⟩ := hunfit.exists_unfit
    exact absurd rfl (ho.ne_tie a b)
  | tied hfit htie => exact ⟨hfit, htie⟩

theorem exists_order_eq_tied (hfit : ∀ o ∈ offers, Fit policy slotOf o)
    (h : HasTie policy slotOf offers a b) :
    ∃ a b, policy.order slotOf offers = .error (.tiedSortKeys a b) := by
  have houtcome := order_outcome policy slotOf offers
  generalize policy.order slotOf offers = outcome at houtcome ⊢
  cases houtcome with
  | nothing =>
    obtain ⟨_, _, _, hperm, -⟩ := h
    cases hperm.nil_eq
  | refused hunfit => exact absurd hfit hunfit.not_forall_fit
  | tied => exact ⟨_, _, rfl⟩
  | arranged _ _ harranged => exact absurd h harranged.not_hasTie

theorem order_eq_some_iff {ids : List PacketId} : policy.order slotOf offers = .ok (some ids) ↔
    offers ≠ [] ∧ (∀ o ∈ offers, Fit policy slotOf o) ∧
      ∃ sorted, Arranged policy slotOf offers sorted ∧ ids = sorted.map (·.packet) := by
  have houtcome := order_outcome policy slotOf offers
  constructor
  · intro h
    rw [h] at houtcome
    cases houtcome with
    | arranged hne hfit harranged => exact ⟨hne, hfit, _, harranged, rfl⟩
  · rintro ⟨hne, hfit, sorted, harranged, rfl⟩
    generalize policy.order slotOf offers = outcome at houtcome ⊢
    cases houtcome with
    | nothing => exact absurd rfl hne
    | refused hunfit => exact absurd hfit hunfit.not_forall_fit
    | tied _ htie => exact absurd htie harranged.not_hasTie
    | arranged _ _ h => rw [h.unique harranged]

theorem order_eq_some_of_perm {ids : List PacketId} (hperm : offers'.Perm offers)
    (h : policy.order slotOf offers = .ok (some ids)) :
    policy.order slotOf offers' = .ok (some ids) := by
  obtain ⟨hne, hfit, sorted, harranged, rfl⟩ := order_eq_some_iff.mp h
  refine order_eq_some_iff.mpr ⟨?_, fun o ho => hfit o (hperm.mem_iff.mp ho), sorted, ?_, rfl⟩
  · rintro rfl
    exact hne hperm.nil_eq.symm
  · exact ⟨harranged.1.trans hperm.symm, harranged.2⟩

end OppNet.SchedulingPolicy

namespace OppNet.Scheduler

open SchedulingPolicy

/-- A scheduler to which the offers were added, one after another. -/
def gather (policy : SchedulingPolicy) (offers : List Offer) : Scheduler :=
  offers.foldl (fun s o => s.add o) (new policy)

theorem foldl_add (offers : List Offer) (s : Scheduler) :
    offers.foldl (fun s o => s.add o) s = ⟨s.policy, s.offers ++ offers⟩ := by
  induction offers generalizing s with
  | nil => rw [List.foldl_nil, List.append_nil]
  | cons o rest ih => rw [List.foldl_cons, ih, add, List.append_assoc, List.singleton_append]

theorem computeOrder_gather (policy : SchedulingPolicy) (slotOf : PacketId → Option Nat)
    (offers : List Offer) :
    (gather policy offers).computeOrder slotOf = (policy.order slotOf offers, new policy) := by
  rw [gather, foldl_add]
  rfl

/-- A scheduler has no order for want of offers; it refuses the first offer that is unfit; failing
that, it refuses a tie; failing that, each packet it sends precedes all that it sends later. Whoever
adds the same offers in another order is given the same order to send them in. -/
theorem computeOrder_strict (policy : SchedulingPolicy) (slotOf : PacketId → Option Nat)
    (offers : List Offer) :
    let outcome (offers : List Offer) := ((gather policy offers).computeOrder slotOf).1
    (outcome offers = .ok none ↔ offers = []) ∧
    (∀ f, (∀ a b, f ≠ .tiedSortKeys a b) →
      (outcome offers = .error f ↔ FirstUnfit policy slotOf offers f)) ∧
    ((∃ a b, outcome offers = .error (.tiedSortKeys a b)) ↔
      (∀ o ∈ offers, Fit policy slotOf o) ∧ ∃ a b, HasTie policy slotOf offers a b) ∧
    (∀ a b, outcome offers = .error (.tiedSortKeys a b) → HasTie policy slotOf offers a b) ∧
    (∀ ids, outcome offers = .ok (some ids) ↔
      offers ≠ [] ∧ (∀ o ∈ offers, Fit policy slotOf o) ∧
        ∃ sorted, Arranged policy slotOf offers sorted ∧ ids = sorted.map (·.packet)) ∧
    ∀ offers' ids, offers'.Perm offers → outcome offers = .ok (some ids) →
      outcome offers' = .ok (some ids) := by
  intro outcome
  have houtcome (offers : List Offer) : outcome offers = policy.order slotOf offers :=
    congrArg Prod.fst (computeOrder_gather policy slotOf offers)
  simp only [houtcome]
  refine ⟨order_eq_none_iff, fun f => order_eq_error_iff, ⟨?_, ?_⟩,
    fun a b h => (order_eq_tied h).2, fun ids => order_eq_some_iff,
    fun offers' ids => order_eq_some_of_perm⟩
  · rintro ⟨a, b, h⟩
    exact ⟨(order_eq_tied h).1, a, b, (order_eq_tied h).2⟩
  · rintro ⟨hfit, a, b, h⟩
    exact exists_order_eq_tied hfit h

/-- Both zeros and a NaN as utilities: the NaN goes first, then the zeros by their slots. So they do
when the offers are added the other way round. -/
theorem computeOrder_signed_zeros :
    let offers : List Offer :=
      [⟨⟨3⟩, some ⟨0.0, -0.0⟩⟩, ⟨⟨1⟩, some ⟨0.0, 0.0⟩⟩, ⟨⟨2⟩, some ⟨0.0, 0.0 / 0.0⟩⟩]
    let slotOf (id : PacketId) : Option Nat := some id.number
    ((gather .grtrMax offers).computeOrder slotOf).1 = .ok (some [⟨2⟩, ⟨1⟩, ⟨3⟩]) ∧
    ((gather .grtrMax offers.reverse).computeOrder slotOf).1 = .ok (some [⟨2⟩, ⟨1⟩, ⟨3⟩]) := by
  intro offers slotOf
  have h : ((gather .grtrMax offers).computeOrder slotOf).1 = .ok (some [⟨2⟩, ⟨1⟩, ⟨3⟩]) := by
    decide +kernel
  exact ⟨h, (computeOrder_strict .grtrMax slotOf offers).2.2.2.2.2 _ _ offers.reverse_perm h⟩

end OppNet.Scheduler
