import OppNet.Buffer.Note
import OppNet.Event

/-!
# OppNet.Journal

What a simulation tells about itself line by line: the network's own remarks, and between them the
notes of the nodes' buffers, each under the name of who speaks.
-/

namespace OppNet

inductive Remark where
  | happened (kind : EventKind)
  | nothingAdmitted (receiver sender : NodeId)
  | admitted (sender receiver : NodeId) (offered admitted : Nat)
  | leftBefore (packet : PacketId) (sender : NodeId)
  | delivered (packet : PacketId) (receiver : NodeId)
  deriving DecidableEq, Repr

def Remark.text : Remark → String
  | happened kind => kind.text
  | nothingAdmitted receiver sender => s!"{receiver} admitted nothing from {sender}"
  | admitted sender receiver offered count =>
    s!"{sender} -> {receiver}: {offered} offered, {count} admitted"
  | leftBefore packet sender => s!"{packet} left {sender} before it could be sent"
  | delivered packet receiver => s!"{packet} delivered to {receiver}"

/-- One line, by a node's buffer or by the network itself. -/
inductive JournalLine where
  | ofNode (node : NodeId) (note : Buffer.Note)
  | ofNetwork (time : Time) (remark : Remark)
  deriving DecidableEq, Repr

namespace JournalLine

def speaker : JournalLine → String
  | ofNode node _ => node.text
  | ofNetwork _ _ => "sim"

def text : JournalLine → String
  | ofNode _ note => note.text
  | ofNetwork time remark => time.text ++ ": " ++ remark.text

def signedText (l : JournalLine) : String := "[" ++ l.speaker ++ "] " ++ l.text

end JournalLine

end OppNet
