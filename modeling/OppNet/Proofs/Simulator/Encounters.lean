import Mathlib.Algebra.BigOperators.Group.Finset.Basic
import OppNet.Proofs.Simulator.Link
import OppNet.Proofs.Simulator.Safety
import OppNet.Proofs.Simulator.Visit

/-!
# OppNet.Proofs.Simulator.Encounters

Contacts and encounters are counted once.

* `openCount a b ks`, `openings a b ks`: how often the link of two nodes is open after the events
  `ks`, and how often it went from closed to open on the way. Both are read off the events alone.
* `Counted k s s'`: what an event does to the counts of links, contacts and encounters
  (`Reachable.counted`).
* `Tracked n ks s`: the counts of a network of `n` nodes after the events `ks`. `Chronicle.tracked`:
  they are such throughout every run.
-/

namespace OppNet

namespace EventKind

variable {a b : NodeId} {k : EventKind} {ks : List EventKind}

/-! ### What the events say -/

/-- Whether a contact of the two nodes begins, whichever of them is named first. -/
def beginsBetween (a b : NodeId) : EventKind → Bool
  | contactUp x y => (x == a && y == b) || (x == b && y == a)
  | _ => false

/-- Whether a contact of the two nodes ends, whichever of them is named first. -/
def endsBetween (a b : NodeId) : EventKind → Bool
  | contactDown x y => (x == a && y == b) || (x == b && y == a)
  | _ => false

/-- How often the link of the two nodes is open after an event, if it was open so often before. -/
def timesAfter (a b : NodeId) (times : Nat) (k : EventKind) : Nat :=
  if k.beginsBetween a b then times + 1
  else if k.endsBetween a b then times - 1
  else times

/-- How often the link of the two nodes is open after the events, if it was closed before. -/
def openCount (a b : NodeId) (ks : List EventKind) : Nat := ks.foldl (timesAfter a b) 0

/-- How often the link of the two nodes goes from closed to open during the events. -/
def openings (a b : NodeId) (ks : List EventKind) : Nat :=
  (List.range ks.length).countP fun i =>
    openCount a b (ks.take i) = 0 ∧ openCount a b (ks.take (i + 1)) = 1

theorem beginsBetween_comm (a b : NodeId) (k : EventKind) :
    k.beginsBetween a b = k.beginsBetween b a := by
  cases k with
  | contactUp x y => exact Bool.or_comm _ _
  | _ => rfl

theorem endsBetween_comm (a b : NodeId) (k : EventKind) :
    k.endsBetween a b = k.endsBetween b a := by
  cases k with
  | contactDown x y => exact Bool.or_comm _ _
  | _ => rfl

theorem openCount_comm (a b : NodeId) (ks : List EventKind) :
    openCount a b ks = openCount b a ks := by
  have hstep : timesAfter a b = timesAfter b a := by
    funext times k
    rw [timesAfter, timesAfter, beginsBetween_comm, endsBetween_comm]
  rw [openCount, openCount, hstep]

theorem openings_comm (a b : NodeId) (ks : List EventKind) : openings a b ks = openings b a ks := by
  simp only [openings, openCount_comm a b]

theorem openCount_concat (a b : NodeId) (ks : List EventKind) (k : EventKind) :
    openCount a b (ks ++ [k]) = timesAfter a b (openCount a b ks) k := by
  rw [openCount, List.foldl_concat]
  rfl

/-- One more event opens the link if it begins a contact and the link was closed. -/
theorem openings_concat (a b : NodeId) (ks : List EventKind) (k : EventKind) :
    openings a b (ks ++ [k]) =
      openings a b ks + if k.beginsBetween a b = true ∧ openCount a b ks = 0 then 1 else 0 := by
  have hbefore : ∀ i ∈ List.range ks.length,
      (decide (openCount a b ((ks ++ [k]).take i) = 0 ∧
          openCount a b ((ks ++ [k]).take (i + 1)) = 1) = true ↔
        decide (openCount a b (ks.take i) = 0 ∧ openCount a b (ks.take (i + 1)) = 1) = true) := by
    intro i hi
    rw [List.mem_range] at hi
    rw [List.take_append_of_le_length (by omega), List.take_append_of_le_length (by omega)]
  have hlast : (openCount a b ks = 0 ∧ timesAfter a b (openCount a b ks) k = 1) ↔
      (k.beginsBetween a b = true ∧ openCount a b ks = 0) := by
    unfold timesAfter
    generalize openCount a b ks = times
    cases hbegins : k.beginsBetween a b with
    | true =>
      simp only [if_true, true_and]
      omega
    | false =>
      simp only [Bool.false_eq_true, if_false, false_and, iff_false]
      split <;> omega
  have hwhole : (ks ++ [k]).take (ks.length + 1) = ks ++ [k] :=
    List.take_of_length_le (by simp)
  rw [openings, List.length_append, List.length_singleton, List.range_succ, List.countP_append,
    List.countP_congr hbefore, List.countP_singleton, List.take_left, hwhole, openCount_concat]
  simp only [openings, hlast, decide_eq_true_eq]

theorem beginsBetween_contactUp_iff {x y : NodeId} :
    (contactUp x y).beginsBetween a b = true ↔ Link.between x y = Link.between a b := by
  simp [beginsBetween, Link.between_eq_iff]

theorem endsBetween_contactDown_iff {x y : NodeId} :
    (contactDown x y).endsBetween a b = true ↔ Link.between x y = Link.between a b := by
  simp [endsBetween, Link.between_eq_iff]

end EventKind

namespace Node

theorem timesMet_recordEncounter (met other : NodeId) (node : Node) :
    (node.recordEncounter met).timesMet other =
      node.timesMet other + if met = other then 1 else 0 := by
  unfold timesMet recordEncounter
  dsimp only
  rw [Std.TreeMap.getD_insert]
  by_cases h : met = other
  · subst h
    rw [if_pos Std.ReflCmp.compare_self, if_pos rfl]
    rfl
  · rw [if_neg fun heq => h (Std.LawfulEqCmp.eq_of_compare heq), if_neg h]
    rfl

end Node

namespace Simulator

open EventKind (openCount openings)

variable {now : Time} {k : EventKind} {s s' s₀ : Simulator} {a b : NodeId} {scenario : Scenario}
  {trace : Trace} {queued : List (Event.Slot × Event)} {past : List Occurrence}

/-! ### What an event does -/

def opens (s : Simulator) : EventKind → Bool
  | .contactUp a b => s.timesOpen a b == 0
  | _ => false

/-- What an event does to the counts of links, of contacts and of encounters with other nodes. -/
structure Counted (k : EventKind) (s s' : Simulator) : Prop where
  times : ∀ a b, s'.timesOpen a b = k.timesAfter a b (s.timesOpen a b)
  contacts : s'.traffic.contacts = s.traffic.contacts + if s.opens k = true then 1 else 0
  encounters : ∀ n node', s'.node? n = some node' → ∃ node, s.node? n = some node ∧
    ∀ other, other ≠ n → node'.timesMet other = node.timesMet other +
      if k.beginsBetween n other = true ∧ s.timesOpen n other = 0 then 1 else 0

theorem timesOpen_congr {c d : NodeId} (h : Link.between a b = Link.between c d) (s : Simulator) :
    s.timesOpen a b = s.timesOpen c d := by
  rw [timesOpen, timesOpen, h]

theorem timesOpen_of_insert {times : Nat}
    (h : s'.links = s.links.insert (Link.between a b) times) (c d : NodeId) :
    s'.timesOpen c d =
      if Link.between a b = Link.between c d then times else s.timesOpen c d := by
  rw [timesOpen, h, Std.TreeMap.getD_insert]
  by_cases hlink : Link.between a b = Link.between c d
  · rw [if_pos hlink, hlink, if_pos Std.ReflCmp.compare_self]
  · rw [if_neg hlink, if_neg fun heq => hlink (Std.LawfulEqCmp.eq_of_compare heq)]
    rfl

theorem timesOpen_of_erase (h : s'.links = s.links.erase (Link.between a b)) (c d : NodeId) :
    s'.timesOpen c d = if Link.between a b = Link.between c d then 0 else s.timesOpen c d := by
  rw [timesOpen, h, Std.TreeMap.getD_erase]
  by_cases hlink : Link.between a b = Link.between c d
  · rw [if_pos hlink, hlink, if_pos Std.ReflCmp.compare_self]
  · rw [if_neg hlink, if_neg fun heq => hlink (Std.LawfulEqCmp.eq_of_compare heq)]
    rfl

theorem Counted.of_links (hopens : s.opens k = false)
    (hbegins : ∀ n other, k.beginsBetween n other = true → s.timesOpen n other ≠ 0)
    (hnodes : s'.nodes = s.nodes) (hcontacts : s'.traffic.contacts = s.traffic.contacts)
    (htimes : ∀ a b, s'.timesOpen a b = k.timesAfter a b (s.timesOpen a b)) : Counted k s s' where
  times := htimes
  contacts := by
    rw [hopens, hcontacts]
    rfl
  encounters n node hn := by
    rw [node?, hnodes] at hn
    refine ⟨node, hn, fun other _ => ?_⟩
    rw [if_neg fun h => hbegins n other h.1 h.2]
    rfl

theorem counted_contactDown (a b : NodeId) (s : Simulator) :
    Counted (.contactDown a b) s ((contactDown a b).run s).2 := by
  have hafter : ∀ c d times, (EventKind.contactDown a b).timesAfter c d times =
      if Link.between a b = Link.between c d then times - 1 else times := by
    intro c d times
    simp only [EventKind.timesAfter, EventKind.beginsBetween, Bool.false_eq_true, if_false,
      EventKind.endsBetween_contactDown_iff]
  rcases contactDown_cases a b s with ⟨hclosed, hrun⟩ | ⟨hopen, hrun⟩ | ⟨more, hopen, hrun⟩
  · rw [hrun]
    refine .of_links rfl nofun rfl rfl fun c d => ?_
    rw [hafter]
    split
    · rename_i hlink
      rw [← timesOpen_congr hlink s, hclosed]
    · rfl
  · rw [hrun]
    refine .of_links rfl nofun rfl rfl fun c d => ?_
    rw [hafter, timesOpen_of_erase (s := s) (a := a) (b := b) rfl]
    split
    · rename_i hlink
      rw [← timesOpen_congr hlink s, hopen]
    · rfl
  · rw [hrun]
    refine .of_links rfl nofun rfl rfl fun c d => ?_
    rw [hafter, timesOpen_of_insert (s := s) (a := a) (b := b) rfl]
    split
    · rename_i hlink
      rw [← timesOpen_congr hlink s, hopen]
      rfl
    · rfl

namespace Meeting

variable {ids ids' : List PacketId} {s₁ s₃ : Simulator} {o out : Except Fault Unit × Simulator}

theorem links (h : Meeting now a b ids ids' s s₀ s₁ s₃ o out) :
    out.2.links = s.links.insert (Link.between a b) 1 := by
  rw [h.back.shipped.links, h.back.quiet.links, h.there.shipped.links, h.there.quiet.links,
    h.relinked.links]
  rfl

theorem contacts (h : Meeting now a b ids ids' s s₀ s₁ s₃ o out) :
    out.2.traffic.contacts = s.traffic.contacts + 1 := by
  rw [h.back.shipped.traffic, h.back.quiet.traffic, h.there.shipped.traffic,
    h.there.quiet.traffic, h.relinked.traffic]
  rfl

end Meeting

theorem timesMet_greeted {n other : NodeId} (hne : other ≠ n) (a b : NodeId) (node : Node) :
    (greeted a b n node).timesMet other = node.timesMet other +
      if (EventKind.contactUp a b).beginsBetween n other = true then 1 else 0 := by
  have hsilenced : ∀ node : Node, (silenced node).timesMet other = node.timesMet other :=
    fun _ => rfl
  simp only [greeted, EventKind.beginsBetween, Bool.or_eq_true, Bool.and_eq_true, beq_iff_eq]
  by_cases ha : n = a
  · subst ha
    by_cases hb : n = b
    · subst hb
      simp [hsilenced, Node.timesMet_recordEncounter, hne.symm]
    · simp [hsilenced, Node.timesMet_recordEncounter, hb, hne.symm]
  · by_cases hb : n = b
    · subst hb
      simp [hsilenced, Node.timesMet_recordEncounter, ha, Ne.symm ha]
    · simp [ha, hb, Ne.symm ha, Ne.symm hb]

theorem timesMet_clearedAt (now : Time) (a b n other : NodeId) (node : Node) :
    (clearedAt now a b n node).timesMet other = node.timesMet other := by
  unfold clearedAt
  split <;> rfl

theorem counted_contactUp (hs : s.queue.Sound) (now : Time) (ha : s.node? a ≠ none)
    (hb : s.node? b ≠ none) : Counted (.contactUp a b) s ((contactUp now a b).run s).2 := by
  have hafter : ∀ c d times, (EventKind.contactUp a b).timesAfter c d times =
      if Link.between a b = Link.between c d then times + 1 else times := by
    intro c d times
    simp only [EventKind.timesAfter, EventKind.beginsBetween_contactUp_iff, EventKind.endsBetween,
      Bool.false_eq_true, if_false]
  rcases contactUp_cases now a b s with ⟨hnone, _⟩ | ⟨hopen, hrun⟩ |
    ⟨hclosed, _, na, nb, hna, hnb, _⟩
  · exact (hnone.elim ha hb).elim
  · rw [hrun]
    refine .of_links ?_ (fun n other hbegins => ?_) rfl rfl fun c d => ?_
    · simpa [opens] using hopen
    · rw [← timesOpen_congr (EventKind.beginsBetween_contactUp_iff.mp hbegins) s]
      exact hopen
    · rw [hafter, timesOpen_of_insert (s := s) (a := a) (b := b) rfl]
      split
      · rename_i hlink
        rw [← timesOpen_congr hlink s]
      · rfl
  · obtain ⟨s₀, s₁, s₃, o, ids, ids', h⟩ := contactUp_meeting hs now hna hnb hclosed
    refine ⟨fun c d => ?_, ?_, fun n node' hn => ?_⟩
    · rw [hafter, timesOpen_of_insert h.links]
      split
      · rename_i hlink
        rw [← timesOpen_congr hlink s, hclosed]
      · rfl
    · rw [h.contacts, opens, hclosed]
      rfl
    · rw [h.nodes, h.nodes_there] at hn
      obtain ⟨node, hnode, rfl⟩ := Option.map_eq_some_iff.mp hn
      refine ⟨node, hnode, fun other hne => ?_⟩
      rw [timesMet_clearedAt, timesMet_greeted hne]
      congr 1
      by_cases hbegins : (EventKind.contactUp a b).beginsBetween n other = true
      · have hsame := timesOpen_congr (EventKind.beginsBetween_contactUp_iff.mp hbegins) s
        rw [if_pos hbegins, if_pos ⟨hbegins, hsame.symm.trans hclosed⟩]
      · rw [if_neg hbegins, if_neg fun h => hbegins h.1]

/-- Every node has met the others as often as it had before. -/
def NoEncounters (s₀ s : Simulator) : Prop :=
  ∀ n node, s.node? n = some node →
    ∃ node₀, s₀.node? n = some node₀ ∧ node.encounters = node₀.encounters

theorem NoEncounters.putNode {n : NodeId} {node node' : Node} (h : NoEncounters s₀ s)
    (hn : s.node? n = some node) (hsame : node'.encounters = node.encounters) :
    NoEncounters s₀ (s.putNode n node') := by
  obtain ⟨node₀, hnode₀, hold⟩ := h n node hn
  exact forall_putNode h hn ⟨node₀, hnode₀, hsame.trans hold⟩

/-- Nodes count encounters when a contact begins, and at no other time. -/
theorem upheld_noEncounters (now : Time) (hk : k.isContactUp = false) (s₀ : Simulator) :
    Upheld now k s₀ (NoEncounters s₀) where
  aside h hn _ := by
    intro n node hnode
    rw [node?, hn] at hnode
    exact h n node hnode
  swept h hn := h.putNode hn rfl
  met _ _ hup := by
    rw [hk] at hup
    cases hup
  again h hn _ := h.putNode hn rfl
  relayed h hn _ _ := h.putNode hn rfl
  handed {s n node id} _ h hn _ := by
    have hmarked : NoEncounters s₀ (s.putNode n (node.marking now id)) := h.putNode hn rfl
    exact hmarked.putNode (node?_putNode_self (index_lt_of_node? hn) _) rfl
  removed _ h hn := h.putNode hn rfl
  sent h _ _ := h
  born h _ hn := NoEncounters.putNode h hn rfl
  delivered h hn _ _ _ _ := NoEncounters.putNode h hn rfl

theorem Handled.contacts_eq (h : Handled now k s s') (hup : k.isContactUp = false)
    (hdown : ∀ a b, k ≠ .contactDown a b) :
    s'.links = s.links ∧ s'.traffic.contacts = s.traffic.contacts := by
  have hcontacts : ∀ {s' : Simulator}, s'.upkeep = s.upkeep →
      s'.traffic.contacts = s.traffic.contacts :=
    fun h => congrArg (·.2.1) h
  cases h with
  | quiet _ hq => exact ⟨hq.links, by rw [hq.traffic]⟩
  | overlap _ links hl =>
    obtain ⟨a, b, _, _, _, _, ⟨rfl, _⟩ | ⟨rfl, _⟩⟩ := hl.course
    · cases hup
    · exact absurd rfl (hdown a b)
  | opened => cases hup
  | @closed a b => exact absurd rfl (hdown a b)
  | stray => exact ⟨rfl, rfl⟩
  | idle _ hq => exact ⟨hq.links, by rw [hq.traffic]; rfl⟩
  | moved hm => exact ⟨hm.steady.links, hcontacts hm.steady.upkeep⟩
  | born hst => exact ⟨hst.links, hcontacts hst.upkeep⟩

/-- An event on existing nodes counts contacts and encounters as it should, even if it fails. -/
theorem Reachable.counted {e : Event} {q : Event.Queue} (h : Reachable scenario trace s)
    (hd : s.due? = some (e, q)) (hn : ∀ n ∈ e.kind.nodes, n.index < scenario.nodes) :
    Counted e.kind s ((process e q).run s).2 := by
  have hsane := h.sane.taken hd
  suffices hstep : Counted e.kind (s.taken e q) ((process e q).run s).2 from
    ⟨hstep.times, hstep.contacts, hstep.encounters⟩
  cases hk : e.kind with
  | contactUp a b =>
    rw [hk] at hn
    have ha := hsane.node?_ne_none.mpr (hn a (by simp [EventKind.nodes]))
    have hb := hsane.node?_ne_none.mpr (hn b (by simp [EventKind.nodes]))
    have hrun : (process e q).run s = (contactUp e.time a b).run (s.taken e q) := by
      change (handle e).run (s.taken e q) = _
      rw [handle, hk]
    rw [hrun]
    exact counted_contactUp hsane.sound e.time ha hb
  | contactDown a b =>
    have hrun : (process e q).run s = (contactDown a b).run (s.taken e q) := by
      change (handle e).run (s.taken e q) = _
      rw [handle, hk]
    rw [hrun]
    exact counted_contactDown a b (s.taken e q)
  | transmission | generation | checkpoint =>
    have hup : e.kind.isContactUp = false := by rw [hk]; rfl
    obtain ⟨hlinks, hcontacts⟩ := (h.handled hd).contacts_eq hup (by simp [hk])
    have hmet : NoEncounters s ((process e q).run s).2 :=
      (upheld_noEncounters e.time hup s).process q fun _ node hnode => ⟨node, hnode, rfl⟩
    refine ⟨fun a b => ?_, hcontacts, fun n node' hnode => ?_⟩
    · rw [timesOpen, hlinks]
      rfl
    · obtain ⟨node, hold, hsame⟩ := hmet n node' hnode
      refine ⟨node, hold, fun other _ => ?_⟩
      rw [Node.timesMet, hsame]
      rfl

/-! ### Whole runs -/

/-- A contact is one of the pair whose first node is not the later one. -/
theorem beginsBetween_ordered_iff {i j : Nat} (hij : i ≤ j) :
    (EventKind.contactUp a b).beginsBetween ⟨i⟩ ⟨j⟩ = true ↔
      i = min a.index b.index ∧ j = max a.index b.index := by
  obtain ⟨x⟩ := a
  obtain ⟨y⟩ := b
  simp only [EventKind.beginsBetween, Bool.or_eq_true, Bool.and_eq_true, beq_iff_eq,
    NodeId.mk.injEq]
  omega

/-- An event that opens a link opens the link of exactly one pair. -/
theorem sum_opens {n : Nat} (hn : ∀ m ∈ k.nodes, m.index < n) (s : Simulator) :
    (∑ j ∈ Finset.range n, ∑ i ∈ Finset.range (j + 1),
      if k.beginsBetween ⟨i⟩ ⟨j⟩ = true ∧ s.timesOpen ⟨i⟩ ⟨j⟩ = 0 then 1 else 0) =
        if s.opens k = true then 1 else 0 := by
  cases k with
  | contactUp a b =>
    have ha : a.index < n := hn a (by simp [EventKind.nodes])
    have hb : b.index < n := hn b (by simp [EventKind.nodes])
    have hlater : max a.index b.index ∈ Finset.range n := Finset.mem_range.mpr (by omega)
    have hfirst : min a.index b.index ∈ Finset.range (max a.index b.index + 1) :=
      Finset.mem_range.mpr (by omega)
    rw [Finset.sum_eq_single_of_mem _ hlater, Finset.sum_eq_single_of_mem _ hfirst]
    · have hbegins := (beginsBetween_ordered_iff (a := a) (b := b)
        (Nat.lt_succ_iff.mp (Finset.mem_range.mp hfirst))).mpr ⟨rfl, rfl⟩
      rw [← timesOpen_congr (EventKind.beginsBetween_contactUp_iff.mp hbegins) s]
      simp only [hbegins, true_and, opens, beq_iff_eq]
    · intro i hi hne
      refine if_neg fun h => hne ?_
      exact ((beginsBetween_ordered_iff (Nat.lt_succ_iff.mp (Finset.mem_range.mp hi))).mp h.1).1
    · intro j _ hne
      refine Finset.sum_eq_zero fun i hi => if_neg fun h => hne ?_
      exact ((beginsBetween_ordered_iff (Nat.lt_succ_iff.mp (Finset.mem_range.mp hi))).mp h.1).2
  | contactDown | transmission | generation | checkpoint =>
    simp [EventKind.beginsBetween, opens]

/--
The counts of a network of `n` nodes after the events `ks`: links are open as often as these say,
and both the contacts and the encounters with other nodes are how often a link was opened.
-/
structure Tracked (n : Nat) (ks : List EventKind) (s : Simulator) : Prop where
  times : ∀ a b, s.timesOpen a b = openCount a b ks
  contacts : s.traffic.contacts =
    ∑ j ∈ Finset.range n, ∑ i ∈ Finset.range (j + 1), openings ⟨i⟩ ⟨j⟩ ks
  encounters : ∀ a node, s.node? a = some node → ∀ b, b ≠ a → node.timesMet b = openings a b ks

theorem Tracked.counted {n : Nat} {ks : List EventKind} (h : Tracked n ks s)
    (hn : ∀ m ∈ k.nodes, m.index < n) (hc : Counted k s s') : Tracked n (ks ++ [k]) s' where
  times a b := by
    rw [hc.times, h.times, EventKind.openCount_concat]
  contacts := by
    simp only [EventKind.openings_concat, ← h.times, Finset.sum_add_distrib, sum_opens hn]
    rw [hc.contacts, h.contacts]
  encounters a node' hnode b hne := by
    obtain ⟨node, hold, hmet⟩ := hc.encounters a node' hnode
    rw [hmet b hne, h.encounters a node hold b hne, h.times, EventKind.openings_concat]

theorem Fresh.tracked (h : Fresh scenario trace s) : Tracked scenario.nodes [] s where
  times a b := by
    rw [timesOpen, h.links]
    rfl
  contacts := by
    rw [h.traffic]
    simp [openings]
  encounters a node hn b _ := by
    rw [h.nodes a node hn]
    rfl

theorem Chronicle.tracked (h : Chronicle scenario trace queued past s)
    (hn : Named scenario trace.events) :
    Tracked scenario.nodes (past.map (·.event.kind)) s := by
  induction h with
  | start h => exact (fresh_of_ofTrace h).tracked
  | @event _ _ s _ e q h _ hd ih =>
    have hnamed : ∀ m ∈ e.kind.nodes, m.index < scenario.nodes := by
      refine h.reachable.named hn e ?_
      rw [(due?_eq_some hd).1]
      exact List.mem_cons_self
    rw [List.map_append]
    exact ih.counted hnamed (h.reachable.counted hd hnamed)
  | @finish _ _ s _ _ ih =>
    have hq := quiet_sweepAll s.stop s
    have hmet := (upheld_noEncounters s.stop (k := .checkpoint) rfl s).sweepAll
      fun _ node hnode => ⟨node, hnode, rfl⟩
    refine ⟨fun a b => ?_, ?_, fun a node hnode b hne => ?_⟩
    · rw [timesOpen, hq.links]
      exact ih.times a b
    · rw [hq.traffic]
      exact ih.contacts
    · obtain ⟨node₀, hold, hsame⟩ := hmet a node hnode
      rw [Node.timesMet, hsame]
      exact ih.encounters a node₀ hold b hne

/--
Contacts and encounters are counted once, whatever the order in which contacts overlap and the side
they are told from. On a trace about existing nodes the count of a link is what the events so far
say of it, a report has as many contacts as links were opened, and two different nodes have both met
each other as often as their own link was opened, so that each is of the same utility to the other.
-/
theorem contacts_counted_once (hn : Named scenario trace.events)
    (h : Reachable scenario trace s) :
    (∃ queued past, Chronicle scenario trace queued past s) ∧
    ∀ queued past, Chronicle scenario trace queued past s →
      let ks := past.map (·.event.kind)
      (∀ a b, s.timesOpen a b = openCount a b ks ∧ s.timesOpen b a = openCount a b ks) ∧
      s.report.contacts =
        ∑ j ∈ Finset.range scenario.nodes, ∑ i ∈ Finset.range (j + 1), openings ⟨i⟩ ⟨j⟩ ks ∧
      ∀ a b na nb, a ≠ b → s.node? a = some na → s.node? b = some nb →
        na.timesMet b = openings a b ks ∧ nb.timesMet a = openings a b ks ∧
          na.utilityFor b = nb.utilityFor a := by
  refine ⟨h.exists_chronicle, ?_⟩
  intro queued past hpast ks
  have htracked : Tracked scenario.nodes ks s := hpast.tracked hn
  refine ⟨fun a b => ⟨htracked.times a b, ?_⟩, ?_, fun a b na nb hne ha hb => ?_⟩
  · rw [timesOpen_comm]
    exact htracked.times a b
  · rw [toTraffic_report]
    exact htracked.contacts
  · have hthere := htracked.encounters a na ha b hne.symm
    have hback : nb.timesMet a = openings a b ks := by
      rw [EventKind.openings_comm]
      exact htracked.encounters b nb hb a hne
    refine ⟨hthere, hback, ?_⟩
    rw [Node.utilityFor, Node.utilityFor, (h.sane.nodes a na ha).id, (h.sane.nodes b nb hb).id,
      if_neg hne.symm, if_neg hne, hthere, hback]

end Simulator

/-- Two nodes whose contacts are nested and end once too often, and meet again; a third one. -/
def Trace.nested : Trace where
  events :=
    [⟨⟨1.0⟩, .contactUp ⟨0⟩ ⟨1⟩⟩, ⟨⟨2.0⟩, .contactUp ⟨1⟩ ⟨0⟩⟩, ⟨⟨3.0⟩, .contactDown ⟨0⟩ ⟨1⟩⟩,
      ⟨⟨4.0⟩, .contactUp ⟨2⟩ ⟨1⟩⟩, ⟨⟨5.0⟩, .contactDown ⟨1⟩ ⟨0⟩⟩, ⟨⟨6.0⟩, .contactDown ⟨0⟩ ⟨1⟩⟩,
      ⟨⟨7.0⟩, .contactUp ⟨1⟩ ⟨0⟩⟩]
  contacts := 4
  packets := 0

namespace Simulator

open EventKind (openCount openings)

/-- Of four contacts one is nested in another, so that there are three, two of them of one pair. -/
theorem nested_contacts : Named Scenario.trio Trace.nested.events ∧
    ∃ queued past s na nb, Chronicle Scenario.trio Trace.nested queued past s ∧
      s.node? ⟨0⟩ = some na ∧ s.node? ⟨1⟩ = some nb ∧
      (past.map (·.event.kind)).countP (·.isContactUp) = 4 ∧ s.timesOpen ⟨0⟩ ⟨1⟩ = 1 ∧
      s.report.contacts = 3 ∧ na.timesMet ⟨1⟩ = 2 ∧ nb.timesMet ⟨0⟩ = 2 ∧
      na.utilityFor ⟨1⟩ = nb.utilityFor ⟨0⟩ := by
  have hnamed : Named Scenario.trio Trace.nested.events := by
    unfold Named
    decide
  obtain ⟨queued, past, s, h, hp⟩ := exists_chronicle Scenario.trio Trace.nested 7
    (fun _ past _ =>
      let ks := past.map (·.event.kind)
      decide (ks.countP (·.isContactUp) = 4 ∧ openCount ⟨0⟩ ⟨1⟩ ks = 1 ∧
        openings ⟨0⟩ ⟨1⟩ ks = 2 ∧
        ∑ j ∈ Finset.range 3, ∑ i ∈ Finset.range (j + 1), openings ⟨i⟩ ⟨j⟩ ks = 3))
    (by decide +kernel)
  obtain ⟨hups, hopen, hmet, hall⟩ := of_decide_eq_true hp
  obtain ⟨_, hcounts⟩ := contacts_counted_once hnamed h.reachable
  obtain ⟨htimes, hcontacts, hnodes⟩ := hcounts queued past h
  have hsane := h.reachable.sane
  obtain ⟨na, ha⟩ := Option.ne_none_iff_exists'.mp
    (hsane.node?_ne_none.mpr (by decide : (0 : Nat) < Scenario.trio.nodes))
  obtain ⟨nb, hb⟩ := Option.ne_none_iff_exists'.mp
    (hsane.node?_ne_none.mpr (by decide : (1 : Nat) < Scenario.trio.nodes))
  obtain ⟨hthere, hback, hutility⟩ := hnodes ⟨0⟩ ⟨1⟩ na nb (by decide) ha hb
  exact ⟨hnamed, queued, past, s, na, nb, h, ha, hb, hups, (htimes ⟨0⟩ ⟨1⟩).1.trans hopen,
    hcontacts.trans hall, hthere.trans hmet, hback.trans hmet, hutility⟩

end Simulator

end OppNet
