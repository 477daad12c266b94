import OppNet.Proofs.Simulator.Contact

/-!
# OppNet.Proofs.Simulator.Pending

What a list of pending events still has in store: the packets to be born (`births`), the transfers
to come, aborted ones included (`shipments`), and those still valid (`underway`). Aborting a link
changes neither of the first two, and a contact adds the transfers that it queues to the others.
-/

namespace OppNet

namespace EventKind

/-- The packet and its receiver, if this is a transfer. -/
def shipment? : EventKind → Option Shipment
  | transmission _ receiver packet _ => some ⟨receiver, packet⟩
  | _ => none

/-- The packet and its receiver, if this is a transfer that has not been aborted. -/
def validShipment? : EventKind → Option Shipment
  | transmission _ receiver packet true => some ⟨receiver, packet⟩
  | _ => none

/-- The packet that is created, if any. -/
def birth? : EventKind → Option PacketId
  | generation _ _ packet true => some packet
  | _ => none

@[simp] theorem shipment?_abort (k : EventKind) : k.abort.shipment? = k.shipment? := by
  cases k <;> rfl

@[simp] theorem birth?_abort (k : EventKind) : k.abort.birth? = k.birth? := by
  cases k <;> rfl

@[simp] theorem isContactUp_abort (k : EventKind) : k.abort.isContactUp = k.isContactUp := by
  cases k <;> rfl

@[simp] theorem validShipment?_abort (k : EventKind) : k.abort.validShipment? = none := by
  cases k <;> rfl

theorem birth?_of_shipment? {k : EventKind} {x : Shipment} (h : k.shipment? = some x) :
    k.birth? = none := by
  cases k with
  | transmission => rfl
  | _ => cases h

theorem shipment?_of_valid {k : EventKind} {x : Shipment} (h : k.validShipment? = some x) :
    k.shipment? = some x := by
  cases k with
  | transmission sender receiver packet valid =>
    cases valid with
    | true => exact h
    | false => cases h
  | _ => cases h

end EventKind

def births (es : List Event) : List PacketId := es.filterMap (·.kind.birth?)

/-- The transfers that are still to come, aborted ones included. -/
def shipments (es : List Event) : List Shipment := es.filterMap (·.kind.shipment?)

/-- The transfers that are still to come and have not been aborted. -/
def underway (es : List Event) : List Shipment := es.filterMap (·.kind.validShipment?)

def ups (es : List Event) : Nat := es.countP (·.kind.isContactUp)

theorem mem_shipments_of_underway {es : List Event} {x : Shipment} (h : x ∈ underway es) :
    x ∈ shipments es := by
  obtain ⟨e, he, hx⟩ := List.mem_filterMap.mp h
  exact List.mem_filterMap.mpr ⟨e, he, EventKind.shipment?_of_valid hx⟩

theorem births_sublist_cons (e : Event) (es : List Event) :
    (births es).Sublist (births (e :: es)) :=
  (List.sublist_cons_self e es).filterMap _

theorem shipments_cons_of_none {e : Event} (h : e.kind.shipment? = none) (es : List Event) :
    shipments (e :: es) = shipments es :=
  List.filterMap_cons_none h

theorem shipments_cons_of_some {e : Event} {x : Shipment} (h : e.kind.shipment? = some x)
    (es : List Event) : shipments (e :: es) = x :: shipments es :=
  List.filterMap_cons_some h

theorem shipments_cons (e : Event) (es : List Event) :
    shipments (e :: es) = e.kind.shipment?.toList ++ shipments es := by
  cases h : e.kind.shipment? with
  | none => exact shipments_cons_of_none h es
  | some x => exact shipments_cons_of_some h es

theorem births_cons_of_some {e : Event} {id : PacketId} (h : e.kind.birth? = some id)
    (es : List Event) : births (e :: es) = id :: births es :=
  List.filterMap_cons_some h

theorem births_append (es es' : List Event) : births (es ++ es') = births es ++ births es' :=
  List.filterMap_append

theorem ups_append (es es' : List Event) : ups (es ++ es') = ups es + ups es' :=
  List.countP_append

/-! ### Aborting a link -/

section Break

variable (a b : NodeId) (es : List Event)

/-- An aborted event is still about the same packets and nodes. -/
theorem filterMap_breakLink {α : Type} {f : EventKind → Option α} (h : ∀ k, f k.abort = f k) :
    (es.map (Event.Queue.breakLink a b)).filterMap (fun e => f e.kind) =
      es.filterMap fun e => f e.kind := by
  rw [List.filterMap_map]
  refine List.filterMap_congr fun e _ => ?_
  simp only [Function.comp, Event.Queue.breakLink]
  split
  · exact h e.kind
  · rfl

theorem births_breakLink : births (es.map (Event.Queue.breakLink a b)) = births es :=
  filterMap_breakLink a b es EventKind.birth?_abort

theorem shipments_breakLink : shipments (es.map (Event.Queue.breakLink a b)) = shipments es :=
  filterMap_breakLink a b es EventKind.shipment?_abort

theorem ups_breakLink : ups (es.map (Event.Queue.breakLink a b)) = ups es := by
  rw [ups, List.countP_map]
  refine List.countP_congr fun e _ => ?_
  simp only [Function.comp, Event.Queue.breakLink]
  split
  · rw [EventKind.isContactUp_abort]
  · rfl

variable {a b es}

/-- What is valid after aborting a link was valid before. -/
theorem underway_of_breakLink {x : Shipment}
    (h : x ∈ underway (es.map (Event.Queue.breakLink a b))) : x ∈ underway es := by
  obtain ⟨e', he', hx⟩ := List.mem_filterMap.mp h
  obtain ⟨e, he, rfl⟩ := List.mem_map.mp he'
  unfold Event.Queue.breakLink at hx
  split at hx
  · rw [EventKind.validShipment?_abort] at hx
    cases hx
  · exact List.mem_filterMap.mpr ⟨e, he, hx⟩

end Break

/-! ### Queueing transfers -/

namespace Simulator.Shipped

variable {sender receiver : NodeId} {ids : List PacketId} {s s' : Simulator}

/-- The pending events of some sort, after transfers have been queued. -/
theorem filterMap_perm {α : Type} (f : EventKind → Option α)
    (h : Shipped sender receiver ids s s') :
    (s'.queue.toList.filterMap fun e => f e.kind).Perm
      ((ids.filterMap fun id => f (.transmission sender receiver id true)) ++
        s.queue.toList.filterMap fun e => f e.kind) := by
  obtain ⟨events, hkinds, hperm⟩ := h.queue
  have hnew : events.filterMap (fun e => f e.kind) =
      ids.filterMap fun id => f (.transmission sender receiver id true) := by
    rw [← Function.comp_def f Event.kind, ← List.filterMap_map, hkinds, List.filterMap_map]
    rfl
  rw [← hnew, ← List.filterMap_append]
  exact hperm.filterMap _

theorem births_perm (h : Shipped sender receiver ids s s') :
    (births s'.queue.toList).Perm (births s.queue.toList) := by
  have hnone : (ids.filterMap fun id =>
      (EventKind.transmission sender receiver id true).birth?) = [] :=
    List.filterMap_eq_nil_iff.mpr fun _ _ => rfl
  have := h.filterMap_perm EventKind.birth?
  rwa [hnone] at this

theorem shipments_perm (h : Shipped sender receiver ids s s') :
    (shipments s'.queue.toList).Perm
      (ids.map (⟨receiver, ·⟩) ++ shipments s.queue.toList) := by
  have hsome : (ids.filterMap fun id =>
      (EventKind.transmission sender receiver id true).shipment?) = ids.map (⟨receiver, ·⟩) :=
    congrFun List.filterMap_eq_map ids
  have := h.filterMap_perm EventKind.shipment?
  rwa [hsome] at this

theorem underway_perm (h : Shipped sender receiver ids s s') :
    (underway s'.queue.toList).Perm (ids.map (⟨receiver, ·⟩) ++ underway s.queue.toList) := by
  have hsome : (ids.filterMap fun id =>
      (EventKind.transmission sender receiver id true).validShipment?) =
        ids.map (⟨receiver, ·⟩) :=
    congrFun List.filterMap_eq_map ids
  have := h.filterMap_perm EventKind.validShipment?
  rwa [hsome] at this

theorem ups_eq (h : Shipped sender receiver ids s s') :
    ups s'.queue.toList = ups s.queue.toList := by
  obtain ⟨events, hkinds, hperm⟩ := h.queue
  have hnone : events.countP (·.kind.isContactUp) = 0 := by
    refine List.countP_eq_zero.mpr fun e he hup => ?_
    obtain ⟨id, _, hid⟩ := exists_of_kinds hkinds he
    rw [hid] at hup
    cases hup
  rw [ups, hperm.countP_eq, List.countP_append, hnone, Nat.zero_add, ups]

end Simulator.Shipped

end OppNet
