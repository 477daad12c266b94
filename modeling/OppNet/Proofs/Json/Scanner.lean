import Mathlib.Tactic.IntervalCases
import OppNet.Json.Token
import OppNet.Json.Writer

/-!
# OppNet.Proofs.Json.Scanner

What the scanner makes of the pieces of JSON text.

* `Scans cs ts`: the characters are these tokens. `Delimited cs ts`: so they are as soon as a
  character follows that belongs to no word and to no number.
* `scans_quoted`: a quoted string is one token, whatever characters it has.
* `Spelled.delimited`: so are the characters of a number.
-/

namespace OppNet.Json

open Scanner (step? start?)

/-- Read from between two tokens on, the characters are these tokens and nothing is left over. -/
def Scans (cs : List Char) (ts : List Token) : Prop :=
  ∀ before, cs.foldlM step? ⟨.between, before⟩ = some ⟨.between, ts.reverse ++ before⟩

/-- The character ends every word and every number. -/
structure Delimits (c : Char) : Prop where
  word : c.isAlpha = false
  number : Scanner.isNumeric c = false

/-- The characters are these tokens, the last of which may take a delimiter to end. -/
def Delimited (cs : List Char) (ts : List Token) : Prop :=
  ∀ before d rest, Delimits d → (cs ++ d :: rest).foldlM step? ⟨.between, before⟩ =
    (d :: rest).foldlM step? ⟨.between, ts.reverse ++ before⟩

section

variable {cs ds : List Char} {ts us : List Token}

theorem Scans.nil : Scans [] [] := fun _ => rfl

theorem Scans.append (h : Scans cs ts) (h' : Scans ds us) : Scans (cs ++ ds) (ts ++ us) := by
  intro before
  rw [List.foldlM_append, h before]
  refine (h' _).trans ?_
  rw [List.reverse_append, List.append_assoc]

theorem Scans.append_delimited (h : Scans cs ts) (h' : Delimited ds us) :
    Delimited (cs ++ ds) (ts ++ us) := by
  intro before d rest hd
  rw [List.append_assoc, List.foldlM_append, h before]
  refine (h' _ d rest hd).trans ?_
  rw [List.reverse_append, List.append_assoc]

theorem Scans.delimited (h : Scans cs ts) : Delimited cs ts := by
  intro before d rest _
  rw [List.foldlM_append, h before]
  rfl

theorem Delimited.append {d : Char} (h : Delimited cs ts) (hd : Delimits d)
    (h' : Scans (d :: ds) us) : Scans (cs ++ d :: ds) (ts ++ us) := by
  intro before
  rw [h before d ds hd, h', List.reverse_append, List.append_assoc]

end

/-! ### Blanks -/

theorem toList_pushn (s : String) (c : Char) (n : Nat) :
    (s.pushn c n).toList = s.toList ++ List.replicate n c := by
  induction n with
  | zero => exact (List.append_nil _).symm
  | succ n ih =>
    rw [List.replicate_succ', ← List.append_assoc, ← ih]
    exact String.toList_push c

theorem scans_blanks (n : Nat) : Scans (List.replicate n ' ') [] := by
  induction n with
  | zero => exact .nil
  | succ n ih =>
    have hblank : Scans [' '] [] := fun _ => rfl
    exact hblank.append ih

theorem toList_newline (level : Nat) :
    (newline level).toList = '\n' :: List.replicate (2 * level) ' ' :=
  toList_pushn "\n" ' ' (2 * level)

theorem scans_newline (level : Nat) : Scans (newline level).toList [] := by
  have hbreak : Scans ['\n'] [] := fun _ => rfl
  rw [toList_newline]
  exact hbreak.append (scans_blanks _)

/-! ### Words and numbers -/

theorem step?_word (soFar : List Char) (before : List Token) (c : Char) :
    step? ⟨.word soFar, before⟩ c =
      if c.isAlpha then some ⟨.word (c :: soFar), before⟩
      else (Token.ofWord? soFar.reverse).bind fun t => start? c (t :: before) := rfl

theorem step?_number (soFar : List Char) (before : List Token) (c : Char) :
    step? ⟨.number soFar, before⟩ c =
      if Scanner.isNumeric c then some ⟨.number (c :: soFar), before⟩
      else (Token.ofNumber? soFar.reverse).bind fun t => start? c (t :: before) := rfl

theorem foldlM_of_step {s s' : Scanner} {c : Char} (h : s.step? c = some s') (cs : List Char) :
    (c :: cs).foldlM step? s = cs.foldlM step? s' := by
  rw [List.foldlM_cons, h]
  rfl

/-- It is enough that the next delimiter is taken as if the tokens were complete. -/
theorem delimited_of_settled {cs : List Char} {ts : List Token}
    (h : ∀ before, ∃ s, cs.foldlM step? ⟨.between, before⟩ = some s ∧
      ∀ d, Delimits d → s.step? d = start? d (ts.reverse ++ before)) : Delimited cs ts := by
  intro before d rest hd
  obtain ⟨s, hs, hnext⟩ := h before
  rw [List.foldlM_append, hs]
  change (s.step? d).bind _ = (start? d _).bind _
  rw [hnext d hd]

section

variable {c : Char} {cs : List Char} {t : Token}

theorem foldlM_word (h : ∀ d ∈ cs, d.isAlpha = true) (soFar : List Char) (before : List Token) :
    cs.foldlM step? ⟨.word soFar, before⟩ = some ⟨.word (cs.reverse ++ soFar), before⟩ := by
  induction cs generalizing soFar with
  | nil => rfl
  | cons d rest ih =>
    have hstep := (step?_word soFar before d).trans (if_pos (h d (by simp)))
    rw [foldlM_of_step hstep, List.reverse_cons, List.append_assoc]
    exact ih (fun x hx => h x (by simp [hx])) _

theorem foldlM_number (h : ∀ d ∈ cs, Scanner.isNumeric d = true) (soFar : List Char)
    (before : List Token) :
    cs.foldlM step? ⟨.number soFar, before⟩ = some ⟨.number (cs.reverse ++ soFar), before⟩ := by
  induction cs generalizing soFar with
  | nil => rfl
  | cons d rest ih =>
    have hstep := (step?_number soFar before d).trans (if_pos (h d (by simp)))
    rw [foldlM_of_step hstep, List.reverse_cons, List.append_assoc]
    exact ih (fun x hx => h x (by simp [hx])) _

theorem delimited_word (c : Char) (cs : List Char)
    (hc : ∀ before, start? c before = some ⟨.word [c], before⟩)
    (hcs : cs.all Char.isAlpha = true) (ht : Token.ofWord? (c :: cs) = some t) :
    Delimited (c :: cs) [t] := by
  refine delimited_of_settled fun before => ⟨⟨.word (cs.reverse ++ [c]), before⟩, ?_, ?_⟩
  · rw [foldlM_of_step (s := ⟨.between, before⟩) (hc before)]
    exact foldlM_word (List.all_eq_true.mp hcs) [c] before
  · intro d hd
    rw [step?_word, if_neg (by simp [hd.word]), List.reverse_append, List.reverse_reverse]
    exact congrArg (Option.bind · _) ht

/-- What a number begins with. -/
def opensNumber (c : Char) : Bool := c = '-' || c.isDigit

theorem start?_number (h : opensNumber c = true) (before : List Token) :
    start? c before = some ⟨.number [c], before⟩ := by
  have hblank : Scanner.isBlank c = false := by
    refine Bool.eq_false_iff.mpr fun hb => ?_
    simp only [Scanner.isBlank, Bool.or_eq_true, decide_eq_true_eq] at hb
    rcases hb with ((rfl | rfl) | rfl) | rfl <;> revert h <;> decide
  have hquote : c ≠ '"' := by
    rintro rfl
    revert h
    decide
  rw [start?, if_neg (by simp [hblank]), if_neg hquote]
  exact if_pos h

/-- The characters begin like a number, and are all characters of numbers. -/
structure Spelled (cs : List Char) : Prop where
  opening : ∃ c rest, cs = c :: rest ∧ opensNumber c = true
  numeric : ∀ c ∈ cs, Scanner.isNumeric c = true

/-- The scanner takes them for one number, whether or not they make one. -/
theorem Spelled.foldlM (h : Spelled cs) (before : List Token) :
    cs.foldlM step? ⟨.between, before⟩ = some ⟨.number cs.reverse, before⟩ := by
  obtain ⟨c, rest, rfl, hc⟩ := h.opening
  rw [foldlM_of_step (s := ⟨.between, before⟩) (start?_number hc before), List.reverse_cons]
  exact foldlM_number (fun d hd => h.numeric d (List.mem_cons_of_mem c hd)) [c] before

theorem Spelled.delimited (h : Spelled cs) (ht : Token.ofNumber? cs = some t) :
    Delimited cs [t] := by
  refine delimited_of_settled fun before => ⟨_, h.foldlM before, ?_⟩
  intro d hd
  rw [step?_number, if_neg (by simp [hd.number]), List.reverse_reverse]
  exact congrArg (Option.bind · _) ht

end

/-! ### Strings -/

theorem not_surrogate (c : Char) : (Token.isHigh c.toNat || Token.isLow c.toNat) = false := by
  have hvalid : c.toNat < 0xD800 ∨ 0xDFFF < c.toNat ∧ c.toNat < 0x110000 := c.valid
  simp only [Token.isHigh, Token.isLow, Bool.or_eq_false_iff, Bool.and_eq_false_iff,
    decide_eq_false_iff_not]
  omega

theorem chars?_toNat (cs : List Char) : Token.chars? (cs.map Char.toNat) = some cs := by
  induction cs with
  | nil => rfl
  | cons c rest ih =>
    have hc := not_surrogate c
    cases rest with
    | nil =>
      rw [List.map_cons, List.map_nil, Token.chars?, if_neg (by simp [hc])]
      rw [Char.ofNat_toNat]
    | cons d rest =>
      rw [Bool.or_eq_false_iff] at hc
      rw [List.map_cons, List.map_cons, Token.chars?, if_neg (by simp [hc.1]),
        if_neg (by simp [hc.1, hc.2]), ← List.map_cons, ih, Option.map_some, Char.ofNat_toNat]

theorem foldlM_codePointText {c : Char} (h : c < ' ') (soFar : List Nat) (before : List Token) :
    (codePointText c).toList.foldlM step? ⟨.text soFar, before⟩ =
      some ⟨.text (c.toNat :: soFar), before⟩ := by
  have hlt : c.toNat < 32 := h
  rw [← Char.ofNat_toNat c]
  generalize c.toNat = n at hlt
  interval_cases n <;> rfl

/-- However a character of a string is written, it is read as itself. -/
theorem foldlM_charText (c : Char) (soFar : List Nat) (before : List Token) :
    (charText c).toList.foldlM step? ⟨.text soFar, before⟩ =
      some ⟨.text (c.toNat :: soFar), before⟩ := by
  unfold charText
  split
  iterate 7 rfl
  · rename_i hquote hescape _ _ _ _ _
    split
    · exact foldlM_codePointText (by assumption) soFar before
    · rename_i hcontrol
      have hstep : step? ⟨.text soFar, before⟩ c = some ⟨.text (c.toNat :: soFar), before⟩ := by
        change Scanner.inText? c soFar before = _
        rw [Scanner.inText?, if_neg hquote, if_neg hescape, if_neg hcontrol]
      have htext : c.toString.toList = [c] := String.toList_singleton c
      rw [htext]
      exact foldlM_of_step hstep []

theorem foldlM_charTexts (cs : List Char) (soFar : List Nat) (before : List Token) :
    (cs.flatMap fun c => (charText c).toList).foldlM step? ⟨.text soFar, before⟩ =
      some ⟨.text ((cs.map Char.toNat).reverse ++ soFar), before⟩ := by
  induction cs generalizing soFar with
  | nil => rfl
  | cons c rest ih =>
    rw [List.flatMap_cons, List.foldlM_append, foldlM_charText, List.map_cons, List.reverse_cons,
      List.append_assoc]
    exact ih _

theorem toList_quoted (s : String) :
    (quoted s).toList = '"' :: (s.toList.flatMap fun c => (charText c).toList) ++ ['"'] := by
  have hrun (cs : List Char) (out : String) :
      (cs.foldl (fun out c => out ++ charText c) out).toList =
        out.toList ++ cs.flatMap fun c => (charText c).toList := by
    induction cs generalizing out with
    | nil => simp
    | cons c rest ih => simp [ih, String.toList_append]
  rw [quoted, String.toList_append, hrun]
  rfl

theorem scans_quoted (s : String) : Scans (quoted s).toList [.text (some s)] := by
  intro before
  have hstep : step? ⟨.between, before⟩ '"' = some ⟨.text [], before⟩ := rfl
  rw [toList_quoted, List.cons_append, foldlM_of_step hstep, List.foldlM_append, foldlM_charTexts]
  change some (Scanner.mk .between (Token.ofUnits _ :: before)) = _
  rw [List.append_nil, List.reverse_reverse, Token.ofUnits, chars?_toNat, Option.map_some,
    String.ofList_toList]
  rfl

end OppNet.Json
