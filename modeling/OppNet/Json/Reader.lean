import OppNet.Json.Token

/-!
# OppNet.Json.Reader

JSON values from tokens. The reader keeps the containers around its place on a stack, and each
token takes it to the next place or nowhere.
-/

namespace OppNet.Json

/-- A container whose next item or member is being read, with the ones before it, latest first. -/
inductive Frame where
  | array (items : List Value)
  | object (members : List Member) (name : Option String)
  deriving Repr

inductive Reader where
  | beforeValue (outer : List Frame)
  /-- After the opening bracket. -/
  | firstItem (outer : List Frame)
  /-- After the opening brace. -/
  | firstName (outer : List Frame)
  | beforeName (members : List Member) (outer : List Frame)
  | afterName (name : Option String) (members : List Member) (outer : List Frame)
  | afterItem (items : List Value) (outer : List Frame)
  | afterMember (members : List Member) (outer : List Frame)
  | finished (v : Value)
  deriving Repr

namespace Reader

/-- A value is complete. -/
def complete (v : Value) : List Frame → Reader
  | [] => finished v
  | .array items :: outer => afterItem (v :: items) outer
  | .object members name :: outer => afterMember ((name, v) :: members) outer

def ofText : Option String → Value
  | some s => .string s
  | none => .unreadable

def begin? (outer : List Frame) : Token → Option Reader
  | .openArray => some (firstItem outer)
  | .openObject => some (firstName outer)
  | .text s => some (complete (ofText s) outer)
  | .atom v => some (complete v outer)
  | _ => none

def step? : Reader → Token → Option Reader
  | beforeValue outer, t => begin? outer t
  | firstItem outer, .closeArray => some (complete (.array []) outer)
  | firstItem outer, t => begin? (.array [] :: outer) t
  | firstName outer, .closeObject => some (complete (.object []) outer)
  | firstName outer, .text name => some (afterName name [] outer)
  | beforeName members outer, .text name => some (afterName name members outer)
  | afterName name members outer, .colon => some (beforeValue (.object members name :: outer))
  | afterItem items outer, .comma => some (beforeValue (.array items :: outer))
  | afterItem items outer, .closeArray => some (complete (.array items.reverse) outer)
  | afterMember members outer, .comma => some (beforeName members outer)
  | afterMember members outer, .closeObject => some (complete (.object members.reverse) outer)
  | _, _ => none

end Reader

def ofTokens? (tokens : List Token) : Option Value :=
  match tokens.foldlM Reader.step? (.beforeValue []) with
  | some (.finished v) => some v
  | _ => none

def read? (text : String) : Option Value := (tokens? text).bind ofTokens?

end OppNet.Json
