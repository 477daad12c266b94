import OppNet.Packet

/-!
# OppNet.Buffer.Note

What a buffer says about its own changes, kept as data and worded on demand.
-/

namespace OppNet.Buffer

inductive Deed where
  /-- A coded pair lost one half to expiry. -/
  | halfExpired (lost : PacketId)
  | expired (lost : List PacketId)
  | dropped (victim : List PacketId) (relayed : Bool)
  | inserted (id : PacketId) (source destination : NodeId) (hops : Nat)
  | insertedCoded (a b : PacketId)
  | encoded (a b : PacketId)
  | removed (id : PacketId)
  /-- One half was deleted from a coded pair. -/
  | removedHalf (id : PacketId)
  deriving DecidableEq, Repr

def Deed.text : Deed → String
  | halfExpired lost => s!"{lost} expired, coded partner kept"
  | expired lost => packetIdsText lost ++ " expired"
  | dropped victim relayed =>
    "dropped " ++ packetIdsText victim ++ (if relayed then " (relayed)" else " (source)")
  | inserted id source destination hops =>
    s!"inserted {id} ({source} -> {destination}, {hops} hops)"
  | insertedCoded a b => s!"inserted coded {a}+{b}"
  | encoded a b => s!"encoded {a}+{b}"
  | removed id => s!"removed {id}"
  | removedHalf id => s!"removed {id} from coded entry"

structure Note where
  time : Time
  deed : Deed
  deriving DecidableEq, Repr

def Note.text (n : Note) : String := n.time.text ++ ": " ++ n.deed.text

end OppNet.Buffer
