/-!
# OppNet.Identity

Names of packets and nodes. A packet is written `#7`, a node `n4`. Both are linearly ordered by
their numbers, so that they can be keys of ordered sets and maps.
-/

namespace OppNet

/-- The network-wide number of a packet; every copy of it carries the same one. -/
structure PacketId where
  number : Nat
  deriving DecidableEq, Repr, Inhabited

/-- The index of a node, counted from zero. -/
structure NodeId where
  index : Nat
  deriving DecidableEq, Repr, Inhabited

namespace PacketId

instance : Ord PacketId := ⟨fun a b => compare a.number b.number⟩

instance : Std.TransOrd PacketId := inferInstanceAs (Std.TransCmp (compareOn PacketId.number))

instance : Std.LawfulEqOrd PacketId where
  compare_self := (inferInstance : Std.ReflCmp (compareOn PacketId.number)).compare_self
  eq_of_compare {a b} h := by
    cases a
    cases b
    exact congrArg PacketId.mk (Nat.compare_eq_eq.mp h)

def text (id : PacketId) : String := "#" ++ toString id.number

instance : ToString PacketId := ⟨text⟩

end PacketId

namespace NodeId

instance : Ord NodeId := ⟨fun a b => compare a.index b.index⟩

instance : Std.TransOrd NodeId := inferInstanceAs (Std.TransCmp (compareOn NodeId.index))

instance : Std.LawfulEqOrd NodeId where
  compare_self := (inferInstance : Std.ReflCmp (compareOn NodeId.index)).compare_self
  eq_of_compare {a b} h := by
    cases a
    cases b
    exact congrArg NodeId.mk (Nat.compare_eq_eq.mp h)

def text (n : NodeId) : String := "n" ++ toString n.index

instance : ToString NodeId := ⟨text⟩

end NodeId

/-- Packet numbers joined by `+`, in order. -/
def packetIdsText (ids : List PacketId) : String :=
  String.intercalate "+" (ids.map PacketId.text)

end OppNet
