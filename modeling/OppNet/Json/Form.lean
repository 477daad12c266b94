import OppNet.Json.Value

/-!
# OppNet.Json.Form

How data is found in JSON values. Nothing is converted except an integer to a double, nothing is
filled in, and names have to be spelled exactly.
-/

namespace OppNet.Json.Value

def bool? : Value → Option Bool
  | bool b => some b
  | _ => none

def nat? : Value → Option Nat
  | nat n => some n
  | _ => none

def word64? : Value → Option UInt64
  | nat n => if n < 2 ^ 64 then some n.toUInt64 else none
  | _ => none

def float? : Value → Option Float
  | nat n => some (Float.ofNat n)
  | float x => some x
  | _ => none

/-- A name on its own, or as the name of the only member, which is `null`. -/
def name? : Value → Option String
  | string s => some s
  | object [(some s, null)] => some s
  | _ => none

/-- The one of these that the value names. -/
def choice? {α : Type} (all : List α) (name : α → String) (v : Value) : Option α :=
  v.name?.bind fun w => all.find? fun a => name a == w

def only? {α : Type} : List α → Option α
  | [a] => some a
  | _ => none

def member? (members : List Member) (name : String) : Option Value :=
  only? ((members.filter fun m => m.1 == some name).map (·.2))

/--
The values of these members in this order. Each must be there once, and others are passed over; an
array of just these values will do as well.
-/
def fields? (names : List String) : Value → Option (List Value)
  | array items => if items.length = names.length then some items else none
  | object members =>
    if members.all (·.1.isSome) then names.mapM (member? members) else none
  | _ => none

/--
A tag and the value without it. The tag is the only member of that name, or the first item of an
array.
-/
def tagged? (name : String) : Value → Option (String × Value)
  | array (string tag :: items) => some (tag, array items)
  | object members =>
    match member? members name with
    | some (string tag) => some (tag, object (members.filter fun m => m.1 != some name))
    | _ => none
  | _ => none

/-- An object in which a missing member is `null`. -/
def nullIfMissing (name : String) : Value → Value
  | object members =>
    if members.any fun m => m.1 == some name then object members
    else object (members ++ [(some name, null)])
  | v => v

def orNull? {α : Type} (form? : Value → Option α) : Value → Option (Option α)
  | null => some none
  | v => (form? v).map some

def items? {α : Type} (item? : Value → Option α) : Value → Option (List α)
  | array items => items.mapM item?
  | _ => none

end OppNet.Json.Value
