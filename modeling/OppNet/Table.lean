/-!
# OppNet.Table

Text tables: a heading and rows, every cell between bars with a blank on either side, and a rule
above, below and between all lines.
-/

namespace OppNet

structure Table where
  heading : List String
  rows : List (List String)
  deriving DecidableEq, Repr

namespace Table

def widths (t : Table) : List Nat :=
  t.rows.foldl (fun ws row => ws.zipWith max (row.map String.length)) (t.heading.map String.length)

def rule (widths : List Nat) : String :=
  widths.foldl (fun out w => out.pushn '-' (w + 2) ++ "+") "+"

def line (widths : List Nat) (cells : List String) : String :=
  (cells.zip widths).foldl (fun out (cell, w) =>
    (out ++ " " ++ cell).pushn ' ' (w - cell.length) ++ " |") "|"

def text (t : Table) : String :=
  let ws := t.widths
  let lines := (t.heading :: t.rows).map fun cells => line ws cells ++ "\n" ++ rule ws
  String.intercalate "\n" (rule ws :: lines)

/-- The letters of a name in small letters, each word of it with a capital and no underscores. -/
def titleChars : Bool → List Char → List Char
  | _, [] => []
  | _, '_' :: rest => titleChars true rest
  | capital, c :: rest => (if capital then c.toUpper else c) :: titleChars false rest

/-- How a name looks in a cell: `DropFrontAsp` for `drop_front_asp`. -/
def title (name : String) : String := String.ofList (titleChars true name.toList)

end Table

end OppNet
