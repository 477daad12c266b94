import OppNet.Decimal.Shortest

/-!
# OppNet.Decimal.Layout

How doubles are written.

- `fixedText`: a fixed number of places.
- `engineeringText?`: three significant digits and a metric letter.
- `NumberStyle.text`: the shortest digits, positional or with an exponent, as a `NumberStyle` says.
-/

namespace OppNet.Decimal

open Binary64 (Magnitude)

/-- An integer count of `10 ^ (-places)` units with its decimal point. -/
def placesText (places units : Nat) : String :=
  let whole := toString (units / 10 ^ places)
  if places = 0 then whole else whole ++ "." ++ padded places (units % 10 ^ places)

/--
`x` with `places` decimals. The sign is left out when the written magnitude is zero.
-/
def fixedText (places : Nat) (x : Double) : String :=
  let sign := if x.isNegative then "-" else ""
  match Binary64.magnitude x.toFloat with
  | .infinite => sign ++ "inf"
  | .nan => sign ++ "NaN"
  | .finite m q =>
    let units := (Ratio.ofBinary m q).fixed places
    (if units = 0 then "" else sign) ++ placesText places units

def metricLetter : Int → String
  | -8 => "y" | -7 => "z" | -6 => "a" | -5 => "f" | -4 => "p" | -3 => "n" | -2 => "µ" | -1 => "m"
  | 1 => "k" | 2 => "M" | 3 => "G" | 4 => "T" | 5 => "P" | 6 => "E" | 7 => "Z" | 8 => "Y"
  | _ => ""

/-- The metric step of a decimal exponent, within the sixteen letters there are. -/
def metricStep (exponent : Int) : Int :=
  max (-8) (min 8 (exponent.fdiv 3))

/--
The three significant digits of `r` counted in units of `10 ^ (3 * step)`. Where the number is too
small for the last letter, its leading zeros use up digits, and below three of them nothing is
left to write.
-/
def engineeringDigits? (r : Ratio) (step : Int) (s : Scientific) : Option String :=
  let whole := s.exponent - 3 * step + 1
  let digits := padded 3 s.digits
  if 3 ≤ whole then some (digits.pushn '0' (whole - 3).toNat)
  else if 0 < whole then
    some (String.ofList (digits.toList.take whole.toNat) ++ "."
      ++ String.ofList (digits.toList.drop whole.toNat))
  else
    let zeros := (-whole).toNat
    if 2 < zeros then none
    else
      let count := max 1 (2 - zeros)
      some ("0.".pushn '0' zeros ++ padded count (r.significant count).digits)

/--
Three significant digits and a metric letter, `1.25k` for 1250. There is no such text for
infinities, for the NaN and for magnitudes far below the last letter.
-/
def engineeringText? (x : Float) : Option String :=
  match Binary64.magnitude x with
  | .finite m q =>
    let r := Ratio.ofBinary m q
    let s := r.significant 3
    let step := metricStep s.exponent
    let sign := if Binary64.isNegative x && m != 0 then "-" else ""
    (engineeringDigits? r step s).map fun digits => sign ++ digits ++ metricLetter step
  | _ => none

structure NumberStyle where
  /-- The smallest exponent of the leading digit that is written positionally. -/
  lowest : Int
  /-- The largest one. -/
  highest : Int
  /-- Written after an integer. -/
  wholeMark : String
  exponentMark : String
  positiveSign : String
  deriving DecidableEq, Repr

def NumberStyle.digitsText (n : NumberStyle) (d : Digits) : String :=
  let text := toString d.digits
  let lead : Int := d.exponent + text.length - 1
  if n.lowest ≤ lead ∧ lead ≤ n.highest then
    if 0 ≤ d.exponent then (text.pushn '0' d.exponent.toNat) ++ n.wholeMark
    else placesText (-d.exponent).toNat d.digits
  else
    let rest := text.toList.drop 1
    let fraction := if rest.isEmpty then "" else "." ++ String.ofList rest
    let sign := if lead < 0 then "-" else n.positiveSign
    String.ofList (text.toList.take 1) ++ fraction ++ n.exponentMark ++ sign ++ toString lead.natAbs

/-- A finite double in the given notation; the sign of a zero is kept. -/
def NumberStyle.text? (n : NumberStyle) (x : Float) : Option String :=
  match Binary64.magnitude x with
  | .finite m q =>
    some ((if Binary64.isNegative x then "-" else "") ++ n.digitsText (shortest m q))
  | _ => none

end OppNet.Decimal
