import OppNet.Json.Numeral

/-!
# OppNet.Json.Token

The tokens of JSON text. `Scanner.step` takes one character; a word or a number ends with the first
character that does not belong to it, so `tokens?` puts a blank behind the text.
-/

namespace OppNet.Json

inductive Token where
  | openArray
  | closeArray
  | openObject
  | closeObject
  | comma
  | colon
  /-- A string; `none` has half a surrogate pair. -/
  | text (s : Option String)
  /-- A number, a truth value or `null`. -/
  | atom (v : Value)
  deriving Repr

namespace Token

def ofMark? : Char → Option Token
  | '[' => some openArray
  | ']' => some closeArray
  | '\x7b' => some openObject
  | '\x7d' => some closeObject
  | ',' => some comma
  | ':' => some colon
  | _ => none

def ofWord? (cs : List Char) : Option Token :=
  match String.ofList cs with
  | "null" => some (atom .null)
  | "true" => some (atom (.bool true))
  | "false" => some (atom (.bool false))
  | _ => none

def ofNumber? (cs : List Char) : Option Token :=
  (Numeral.ofChars? cs).map fun n => atom n.value

def isHigh (u : Nat) : Bool := 0xD800 ≤ u && u < 0xDC00

def isLow (u : Nat) : Bool := 0xDC00 ≤ u && u < 0xE000

/-- The characters of code points and surrogate pairs, unless half of a pair is missing. -/
def chars? : List Nat → Option (List Char)
  | [] => some []
  | [u] => if isHigh u || isLow u then none else some [Char.ofNat u]
  | u :: v :: rest =>
    if isHigh u && isLow v then
      (chars? rest).map (Char.ofNat (0x10000 + (u - 0xD800) * 0x400 + (v - 0xDC00)) :: ·)
    else if isHigh u || isLow u then none
    else (chars? (v :: rest)).map (Char.ofNat u :: ·)

def ofUnits (us : List Nat) : Token := text ((chars? us).map String.ofList)

end Token

/-- Where a scanner is. What it is reading has its latest character first. -/
inductive Place where
  | between
  | word (soFar : List Char)
  | number (soFar : List Char)
  /-- In a string. -/
  | text (soFar : List Nat)
  /-- After a backslash. -/
  | escape (soFar : List Nat)
  /-- Before that many more digits of a code point. -/
  | codePoint (soFar : List Nat) (left : Nat) (value : Nat)
  deriving Repr

structure Scanner where
  place : Place
  /-- The latest one first. -/
  tokens : List Token
  deriving Repr

namespace Scanner

def isBlank (c : Char) : Bool := c = ' ' || c = '\t' || c = '\n' || c = '\r'

/-- A character of numbers, though not each sequence of them is a number. -/
def isNumeric (c : Char) : Bool :=
  c.isDigit || c = '-' || c = '+' || c = '.' || c = 'e' || c = 'E'

/-- What a character after a backslash stands for. -/
def escaped? : Char → Option Char
  | '"' => some '"'
  | '\\' => some '\\'
  | '/' => some '/'
  | 'b' => some '\x08'
  | 'f' => some '\x0c'
  | 'n' => some '\n'
  | 'r' => some '\r'
  | 't' => some '\t'
  | _ => none

def hexValue? (c : Char) : Option Nat :=
  if c.isDigit then some (c.toNat - '0'.toNat)
  else if 'a' ≤ c && c ≤ 'f' then some (c.toNat - 'a'.toNat + 10)
  else if 'A' ≤ c && c ≤ 'F' then some (c.toNat - 'A'.toNat + 10)
  else none

def start? (c : Char) (tokens : List Token) : Option Scanner :=
  if isBlank c then some ⟨.between, tokens⟩
  else if c = '"' then some ⟨.text [], tokens⟩
  else if c = '-' || c.isDigit then some ⟨.number [c], tokens⟩
  else if c.isAlpha then some ⟨.word [c], tokens⟩
  else (Token.ofMark? c).map fun t => ⟨.between, t :: tokens⟩

/-- A character of a string; control characters have to be escaped. -/
def inText? (c : Char) (soFar : List Nat) (tokens : List Token) : Option Scanner :=
  if c = '"' then some ⟨.between, Token.ofUnits soFar.reverse :: tokens⟩
  else if c = '\\' then some ⟨.escape soFar, tokens⟩
  else if c < ' ' then none
  else some ⟨.text (c.toNat :: soFar), tokens⟩

def step? (s : Scanner) (c : Char) : Option Scanner :=
  match s.place with
  | .between => start? c s.tokens
  | .word soFar =>
    if c.isAlpha then some { s with place := .word (c :: soFar) }
    else (Token.ofWord? soFar.reverse).bind fun t => start? c (t :: s.tokens)
  | .number soFar =>
    if isNumeric c then some { s with place := .number (c :: soFar) }
    else (Token.ofNumber? soFar.reverse).bind fun t => start? c (t :: s.tokens)
  | .text soFar => inText? c soFar s.tokens
  | .escape soFar =>
    if c = 'u' then some { s with place := .codePoint soFar 4 0 }
    else (escaped? c).map fun e => { s with place := .text (e.toNat :: soFar) }
  | .codePoint soFar left value =>
    (hexValue? c).map fun d =>
      let value := 16 * value + d
      if left ≤ 1 then { s with place := .text (value :: soFar) }
      else { s with place := .codePoint soFar (left - 1) value }

end Scanner

def tokens? (text : String) : Option (List Token) :=
  match (text.toList ++ [' ']).foldlM Scanner.step? ⟨.between, []⟩ with
  | some ⟨.between, tokens⟩ => some tokens.reverse
  | _ => none

end OppNet.Json
