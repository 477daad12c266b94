import OppNet.Decimal.Layout
import OppNet.Json.Value

/-!
# OppNet.Json.Writer

JSON text: every item and every member on a line of its own, indented by two blanks a level. What
has no value is written as `null`.
-/

namespace OppNet.Json

/-- Numbers are positional from `0.00001` up to sixteen digits, and integers keep a `.0`. -/
def numberStyle : Decimal.NumberStyle where
  lowest := -5
  highest := 15
  wholeMark := ".0"
  exponentMark := "e"
  positiveSign := "+"

def codePointText (c : Char) : String :=
  let ds := Nat.toDigits 16 c.toNat
  "\\u" ++ "".pushn '0' (4 - ds.length) ++ String.ofList ds

def charText (c : Char) : String :=
  match c with
  | '"' => "\\\""
  | '\\' => "\\\\"
  | '\x08' => "\\b"
  | '\x0c' => "\\f"
  | '\n' => "\\n"
  | '\r' => "\\r"
  | '\t' => "\\t"
  | c => if c < ' ' then codePointText c else c.toString

def quoted (s : String) : String :=
  s.toList.foldl (fun out c => out ++ charText c) "\"" ++ "\""

def newline (level : Nat) : String := "\n".pushn ' ' (2 * level)

def enclosed (opening closing : String) (level : Nat) (parts : List String) : String :=
  if parts.isEmpty then opening ++ closing
  else
    opening ++ newline (level + 1)
      ++ String.intercalate ("," ++ newline (level + 1)) parts ++ newline level ++ closing

namespace Value

mutual

def textAt (level : Nat) : Value → String
  | null | unreadable => "null"
  | bool b => if b then "true" else "false"
  | nat n => toString n
  | float x => (numberStyle.text? x).getD "null"
  | string s => quoted s
  | array items => enclosed "[" "]" level (itemTexts (level + 1) items)
  | object members => enclosed "\x7b" "\x7d" level (memberTexts (level + 1) members)

def itemTexts (level : Nat) : List Value → List String
  | [] => []
  | v :: rest => v.textAt level :: itemTexts level rest

def memberTexts (level : Nat) : List (Option String × Value) → List String
  | [] => []
  | (name, v) :: rest =>
    (quoted (name.getD "") ++ ": " ++ v.textAt level) :: memberTexts level rest

end

def text (v : Value) : String := v.textAt 0

end Value

end OppNet.Json
