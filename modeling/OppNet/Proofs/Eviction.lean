import OppNet.Eviction
import OppNet.Proofs.Binary64.Order

/-!
# OppNet.Proofs.Eviction

Which entry an eviction takes out of the list.

* `Leads eligible done best`: what the search for the oldest or the youngest entry holds after the
  entries `done`. `leads_step`: one entry more. `leads_fold`: all of them.
* `Prefers rule eligible es i victim`: where a rule finds its victim. `select?_eq_some`,
  `select?_eq_none`: a rule finds it wherever there is one.
* `Choice policy es i victim`: the victim of a policy. `evict_eq_ok`: an eviction takes it out and
  leaves the others in order. `evict_of_ne_nil`: there is one whenever the list is not empty.
-/

namespace OppNet

namespace VictimRule

variable {eligible : Entry → Bool} {es : List Entry} {i : Nat}

/-! ### From either end -/

theorem lastIndex?_eq_some (h : lastIndex? eligible es = some i) :
    ∃ victim, es[i]? = some victim ∧ eligible victim = true ∧
      ∀ (j : Nat) e, es[j]? = some e → eligible e = true → j ≤ i := by
  obtain ⟨k, hk, rfl⟩ := Option.map_eq_some_iff.mp h
  obtain ⟨hlt, hfits, hfirst⟩ := List.findIdx?_eq_some_iff_getElem.mp hk
  have hlen : k < es.length := by rwa [List.length_reverse] at hlt
  rw [List.getElem_reverse] at hfits
  refine ⟨_, List.getElem?_eq_getElem (by omega), hfits, fun j e hj he => ?_⟩
  obtain ⟨hjlt, rfl⟩ := List.getElem?_eq_some_iff.mp hj
  refine Nat.le_of_not_lt fun hlate => hfirst (es.length - 1 - j) (by omega) ?_
  rw [List.getElem_reverse]
  simpa only [show es.length - 1 - (es.length - 1 - j) = j by omega] using he

theorem lastIndex?_eq_none (h : lastIndex? eligible es = none) : ∀ e ∈ es, eligible e = false := by
  rw [lastIndex?, Option.map_eq_none_iff, List.findIdx?_eq_none_iff] at h
  exact fun e he => h e (List.mem_reverse.mpr he)

/-! ### By age -/

section Extreme

variable {better : Time → Time → Bool}

/-- One step of the search: the best entry so far against the next one. -/
def extremeStep (better : Time → Time → Bool) (eligible : Entry → Bool)
    (best : Option (Nat × Time)) (x : Entry × Nat) : Option (Nat × Time) :=
  if eligible x.1 then improve better best x.2 x.1.created else best

theorem firstExtreme?_eq (es : List Entry) : firstExtreme? better eligible es =
    (es.zipIdx.foldl (extremeStep better eligible) none).map (·.1) := rfl

/--
What the search holds after the entries `done`: nothing if none of them is eligible, else the index
and the age of the first eligible one that no eligible one beats.
-/
inductive Leads (better : Time → Time → Bool) (eligible : Entry → Bool) (done : List Entry) :
    Option (Nat × Time) → Prop
  | none (unfit : ∀ e ∈ done, eligible e = false) : Leads better eligible done none
  | some {i : Nat} {victim : Entry} (found : done[i]? = some victim)
    (fits : eligible victim = true)
    (unbeaten : ∀ (j : Nat) e, done[j]? = some e → eligible e = true →
      better e.created victim.created = false ∧ (e.created = victim.created → i ≤ j)) :
    Leads better eligible done (some (i, victim.created))

structure Strict (better : Time → Time → Bool) : Prop where
  irrefl : ∀ t, better t t = false
  trans : ∀ s t u, better s t = true → better t u = true → better s u = true

theorem strict_earlier : Strict fun s t => s < t where
  irrefl _ := decide_eq_false Std.lt_irrefl
  trans _ _ _ h h' :=
    decide_eq_true (Std.lt_trans (of_decide_eq_true h) (of_decide_eq_true h'))

theorem strict_later : Strict fun s t => t < s where
  irrefl _ := decide_eq_false Std.lt_irrefl
  trans _ _ _ h h' :=
    decide_eq_true (Std.lt_trans (of_decide_eq_true h') (of_decide_eq_true h))

theorem getElem?_concat_eq_some {done : List Entry} {e x : Entry} {j : Nat} :
    (done ++ [e])[j]? = some x ↔ done[j]? = some x ∨ j = done.length ∧ x = e := by
  grind

/-- An entry that is not eligible is passed over, wherever the search has got to. -/
theorem leads_skip {done : List Entry} {best : Option (Nat × Time)} {e : Entry}
    (h : Leads better eligible done best) (hfits : eligible e = false) :
    Leads better eligible (done ++ [e]) best := by
  cases h with
  | none unfit =>
    refine .none fun x hx => ?_
    rcases List.mem_append.mp hx with hx | hx
    · exact unfit x hx
    · rw [List.mem_singleton.mp hx, hfits]
  | some found fits unbeaten =>
    refine .some (getElem?_concat_eq_some.mpr (.inl found)) fits fun j x hx hxfits => ?_
    rcases getElem?_concat_eq_some.mp hx with hx | ⟨-, rfl⟩
    · exact unbeaten j x hx hxfits
    · rw [hfits] at hxfits
      cases hxfits

variable (hs : Strict better)
include hs

theorem leads_improve {done : List Entry} {best : Option (Nat × Time)} {e : Entry}
    (h : Leads better eligible done best) (hfits : eligible e = true) :
    Leads better eligible (done ++ [e]) (improve better best done.length e.created) := by
  have hlast : (done ++ [e])[done.length]? = some e := List.getElem?_concat_length
  cases h with
  | none unfit =>
    refine .some hlast hfits fun j x hx hxfits => ?_
    rcases getElem?_concat_eq_some.mp hx with hx | ⟨rfl, rfl⟩
    · rw [unfit x (List.mem_of_getElem? hx)] at hxfits
      cases hxfits
    · exact ⟨hs.irrefl _, fun _ => Nat.le_refl _⟩
  | @some i victim found fits unbeaten =>
    simp only [improve]
    cases hbetter : better e.created victim.created with
    | true =>
      rw [if_pos rfl]
      -- Whatever beats the new entry, or is as old, would have beaten the victim so far.
      refine .some hlast hfits fun j x hx hxfits => ?_
      rcases getElem?_concat_eq_some.mp hx with hx | ⟨rfl, rfl⟩
      · have hx := (unbeaten j x hx hxfits).1
        refine ⟨Bool.eq_false_iff.mpr fun hbeats => ?_, fun heq => ?_⟩
        · rw [hs.trans _ _ _ hbeats hbetter] at hx
          cases hx
        · rw [heq, hbetter] at hx
          cases hx
      · exact ⟨hs.irrefl _, fun _ => Nat.le_refl _⟩
    | false =>
      rw [if_neg (by simp)]
      refine .some (getElem?_concat_eq_some.mpr (.inl found)) fits fun j x hx hxfits => ?_
      rcases getElem?_concat_eq_some.mp hx with hx | ⟨rfl, rfl⟩
      · exact unbeaten j x hx hxfits
      · have hlt := (List.getElem?_eq_some_iff.mp found).1
        exact ⟨hbetter, fun _ => Nat.le_of_lt hlt⟩

theorem leads_step {done : List Entry} {best : Option (Nat × Time)} (e : Entry)
    (h : Leads better eligible done best) :
    Leads better eligible (done ++ [e]) (extremeStep better eligible best (e, done.length)) := by
  unfold extremeStep
  cases hfits : eligible e with
  | false =>
    rw [if_neg (by simp)]
    exact leads_skip h hfits
  | true =>
    rw [if_pos rfl]
    exact leads_improve hs h hfits

theorem leads_fold {done : List Entry} {best : Option (Nat × Time)} (es : List Entry)
    (h : Leads better eligible done best) : Leads better eligible (done ++ es)
      ((es.zipIdx done.length).foldl (extremeStep better eligible) best) := by
  induction es generalizing done best with
  | nil => rwa [List.append_nil]
  | cons e rest ih =>
    rw [List.zipIdx_cons, List.foldl_cons]
    have hrest := ih (leads_step hs e h)
    rwa [List.append_assoc, List.length_append] at hrest

theorem leads_zipIdx (eligible : Entry → Bool) (es : List Entry) :
    Leads better eligible es (es.zipIdx.foldl (extremeStep better eligible) none) := by
  have hnone : Leads better eligible [] none := .none fun _ h => nomatch h
  exact leads_fold hs es hnone

theorem firstExtreme?_eq_some (h : firstExtreme? better eligible es = some i) :
    ∃ victim, es[i]? = some victim ∧ eligible victim = true ∧
      ∀ (j : Nat) e, es[j]? = some e → eligible e = true →
        better e.created victim.created = false ∧ (e.created = victim.created → i ≤ j) := by
  have hleads := leads_zipIdx hs eligible es
  rw [firstExtreme?_eq] at h
  generalize es.zipIdx.foldl (extremeStep better eligible) none = best at h hleads
  cases hleads with
  | none => cases h
  | some found fits unbeaten =>
    cases h
    exact ⟨_, found, fits, unbeaten⟩

theorem firstExtreme?_eq_none (h : firstExtreme? better eligible es = none) :
    ∀ e ∈ es, eligible e = false := by
  have hleads := leads_zipIdx hs eligible es
  rw [firstExtreme?_eq] at h
  generalize es.zipIdx.foldl (extremeStep better eligible) none = best at h hleads
  cases hleads with
  | none unfit => exact unfit
  | some => cases h

end Extreme

/-! ### The rules -/

/-- The victim at the index `i` is the one that the rule prefers among the eligible entries. -/
def Prefers (rule : VictimRule) (eligible : Entry → Prop) (es : List Entry) (i : Nat)
    (victim : Entry) : Prop :=
  ∀ (j : Nat) e, es[j]? = some e → eligible e →
    match rule with
    | front => i ≤ j
    | tail => j ≤ i
    | oldest => victim.created ≤ e.created ∧ (e.created = victim.created → i ≤ j)
    | youngest => e.created ≤ victim.created ∧ (e.created = victim.created → i ≤ j)

theorem select?_eq_some {rule : VictimRule} (h : rule.select? eligible es = some i) :
    ∃ victim, es[i]? = some victim ∧ eligible victim = true ∧
      rule.Prefers (fun e => eligible e = true) es i victim := by
  cases rule with
  | front =>
    obtain ⟨hlt, hfits, hfirst⟩ := List.findIdx?_eq_some_iff_getElem.mp h
    refine ⟨_, List.getElem?_eq_getElem hlt, hfits, fun j e hj he => Nat.le_of_not_lt fun hji => ?_⟩
    obtain ⟨hjlt, rfl⟩ := List.getElem?_eq_some_iff.mp hj
    exact hfirst j hji he
  | tail => exact lastIndex?_eq_some h
  | oldest =>
    obtain ⟨victim, found, fits, unbeaten⟩ := firstExtreme?_eq_some strict_earlier h
    refine ⟨victim, found, fits, fun j e hj he => ?_⟩
    obtain ⟨hlt, hfirst⟩ := unbeaten j e hj he
    exact ⟨Std.not_lt.mp (of_decide_eq_false hlt), hfirst⟩
  | youngest =>
    obtain ⟨victim, found, fits, unbeaten⟩ := firstExtreme?_eq_some strict_later h
    refine ⟨victim, found, fits, fun j e hj he => ?_⟩
    obtain ⟨hlt, hfirst⟩ := unbeaten j e hj he
    exact ⟨Std.not_lt.mp (of_decide_eq_false hlt), hfirst⟩

theorem select?_eq_none {rule : VictimRule} (h : rule.select? eligible es = none) :
    ∀ e ∈ es, eligible e = false := by
  cases rule with
  | front => exact List.findIdx?_eq_none_iff.mp h
  | tail => exact lastIndex?_eq_none h
  | oldest => exact firstExtreme?_eq_none strict_earlier h
  | youngest => exact firstExtreme?_eq_none strict_later h

end VictimRule

namespace EvictionPolicy

variable {policy : EvictionPolicy} {es : List Entry} {i : Nat} {victim : Entry}

/-- A policy that spares what was created here picks among the relayed entries, if there are any. -/
def Eligible (policy : EvictionPolicy) (es : List Entry) (e : Entry) : Prop :=
  policy.sparesSource = true → (∃ f ∈ es, f.isRelayed = true) → e.isRelayed = true

/-- The victim of the policy: an eligible entry, and the one that the rule prefers among these. -/
structure Choice (policy : EvictionPolicy) (es : List Entry) (i : Nat) (victim : Entry) : Prop where
  found : es[i]? = some victim
  eligible : policy.Eligible es victim
  preferred : policy.rule.Prefers (policy.Eligible es) es i victim

theorem choice_of_select? {eligible : Entry → Bool}
    (he : ∀ e ∈ es, policy.Eligible es e ↔ eligible e = true)
    (h : policy.rule.select? eligible es = some i) : ∃ victim, policy.Choice es i victim := by
  obtain ⟨victim, hfound, hfits, hprefers⟩ := VictimRule.select?_eq_some h
  refine ⟨victim, hfound, (he victim (List.mem_of_getElem? hfound)).mpr hfits, fun j e hj hfits => ?_⟩
  exact hprefers j e hj ((he e (List.mem_of_getElem? hj)).mp hfits)

theorem exists_choice (h : policy.victimIndex? es = some i) :
    ∃ victim, policy.Choice es i victim := by
  unfold victimIndex? at h
  cases hspares : policy.sparesSource with
  | false =>
    rw [hspares, if_neg (by simp)] at h
    exact choice_of_select? (fun e _ => by simp [Eligible, hspares]) h
  | true =>
    rw [hspares, if_pos rfl] at h
    rcases Option.or_eq_some_iff.mp h with h | ⟨hnone, h⟩
    · obtain ⟨relayed, hfound, hrelayed, -⟩ := VictimRule.select?_eq_some h
      have hany : ∃ f ∈ es, f.isRelayed = true := ⟨relayed, List.mem_of_getElem? hfound, hrelayed⟩
      exact choice_of_select? (fun e _ => by simp [Eligible, hspares, hany]) h
    · have hnot := VictimRule.select?_eq_none hnone
      have hany : ¬ ∃ f ∈ es, f.isRelayed = true := by
        rintro ⟨f, hf, hrelayed⟩
        rw [hnot f hf] at hrelayed
        cases hrelayed
      exact choice_of_select? (fun e _ => by simp [Eligible, hany]) h

theorem exists_victimIndex? (policy : EvictionPolicy) (h : es ≠ []) :
    ∃ i, policy.victimIndex? es = some i := by
  obtain ⟨e, he⟩ := List.exists_mem_of_ne_nil es h
  have hany : ∃ i, policy.rule.select? (fun _ => true) es = some i := by
    cases hs : policy.rule.select? (fun _ => true) es with
    | some i => exact ⟨i, rfl⟩
    | none => cases VictimRule.select?_eq_none hs e he
  obtain ⟨i, hi⟩ := hany
  unfold victimIndex?
  split
  · cases policy.rule.select? Entry.isRelayed es with
    | some k => exact ⟨k, rfl⟩
    | none => exact ⟨i, hi⟩
  · exact ⟨i, hi⟩

theorem evict_eq_ok {rest : List Entry} (h : policy.evict es = .ok (victim, rest)) :
    ∃ i, policy.victimIndex? es = some i ∧ es[i]? = some victim ∧ rest = es.eraseIdx i := by
  unfold evict at h
  split at h
  · cases h
  · rename_i i hi
    split at h
    · cases h
    · rename_i v hv
      cases h
      exact ⟨i, hi, hv, rfl⟩

theorem evict_of_ne_nil (policy : EvictionPolicy) {es : List Entry} (h : es ≠ []) :
    ∃ victim rest, policy.evict es = .ok (victim, rest) := by
  obtain ⟨i, hi⟩ := policy.exists_victimIndex? h
  obtain ⟨victim, hchoice⟩ := exists_choice hi
  exact ⟨victim, es.eraseIdx i, by simp only [evict, hi, hchoice.found]⟩

theorem evict_sublist {rest : List Entry} (h : policy.evict es = .ok (victim, rest)) :
    rest.Sublist es := by
  obtain ⟨i, _, _, rfl⟩ := evict_eq_ok h
  exact List.eraseIdx_sublist es i

theorem length_evict {rest : List Entry} (h : policy.evict es = .ok (victim, rest)) :
    rest.length + 1 = es.length := by
  obtain ⟨i, _, hv, rfl⟩ := evict_eq_ok h
  have hlt : i < es.length := (List.getElem?_eq_some_iff.mp hv).1
  rw [List.length_eraseIdx_of_lt hlt]
  omega

end EvictionPolicy

end OppNet
