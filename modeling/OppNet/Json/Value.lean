import OppNet.Binary64

/-!
# OppNet.Json.Value

JSON values, as they are read and as they are written.

A number without fraction and exponent that fits 64 bits is a `nat`; every other one is the double
it reads as. Some well-formed text has no value: a number that overflows, and a string with half a
surrogate pair. It is kept as `unreadable`, since a member that nobody asks for may hold it.
-/

namespace OppNet.Json

inductive Value where
  | null
  | bool (b : Bool)
  /-- Below `2 ^ 64`. -/
  | nat (n : Nat)
  | float (x : Float)
  | string (s : String)
  | array (items : List Value)
  /-- In their order, repeated names included; `none` is a name that cannot be read. -/
  | object (members : List (Option String × Value))
  | unreadable
  deriving Inhabited, Repr

abbrev Member := Option String × Value

namespace Value

/-- A double; infinities and the NaN are no JSON. -/
def ofFloat (x : Float) : Value := if x.isFinite then float x else null

def record (members : List (String × Value)) : Value :=
  object (members.map fun (name, v) => (some name, v))

mutual

/-- Everything inside has a value and every name can be read. -/
def isReadable : Value → Bool
  | array items => itemsReadable items
  | object members => membersReadable members
  | unreadable => false
  | _ => true

def itemsReadable : List Value → Bool
  | [] => true
  | v :: rest => v.isReadable && itemsReadable rest

def membersReadable : List (Option String × Value) → Bool
  | [] => true
  | (name, v) :: rest => name.isSome && v.isReadable && membersReadable rest

end

mutual

/-- How many arrays and objects are nested in each other. -/
def height : Value → Nat
  | array items => itemsHeight items + 1
  | object members => membersHeight members + 1
  | _ => 0

def itemsHeight : List Value → Nat
  | [] => 0
  | v :: rest => max v.height (itemsHeight rest)

def membersHeight : List (Option String × Value) → Nat
  | [] => 0
  | (_, v) :: rest => max v.height (membersHeight rest)

end

end Value

end OppNet.Json
