import Mathlib.Data.List.TakeWhile
import OppNet.Json.Reader
import OppNet.Proofs.Json.Scanner

/-!
# OppNet.Proofs.Json.Numeral

Printed numbers, as they are read back.

* `ofNumber?_toDigits`: a natural number of 64 bits is read back from its digits.
* `ReadsBack x`: so is this double from its text. Reading scales a significand with roundings of
  its own, so not every double is. `ReadsBack.delimited`: one that is read back on its own is read
  back wherever its text stands.
-/

namespace OppNet.Json

open Scanner (step? start?)

/-! ### Naturals -/

theorem head?_toDigits {n : Nat} (h : 0 < n) :
    ∃ c, (Nat.toDigits 10 n).head? = some c ∧ c.toNat - '0'.toNat ≠ 0 := by
  induction n using Nat.strongRecOn with
  | ind n ih =>
    by_cases hn : n < 10
    · refine ⟨n.digitChar, by rw [Nat.toDigits_of_lt_base hn, List.head?_cons], ?_⟩
      have hchar := Nat.toNat_digitChar_of_lt_ten hn
      have hzero : '0'.toNat = 48 := rfl
      omega
    · obtain ⟨c, hc, hne⟩ := ih (n / 10) (by omega) (by omega)
      refine ⟨c, ?_, hne⟩
      rw [Nat.toDigits_of_base_le (by omega) (by omega), List.head?_append, hc]
      rfl

/-- A significand takes up all digits of a number that fits. -/
theorem gather_eq (ds : List Nat) (m : Nat)
    (h : ds.foldl (fun n d => 10 * n + d) m ≤ Numeral.largest) :
    Numeral.gather m ds = (ds.foldl (fun n d => 10 * n + d) m, 0) := by
  induction ds generalizing m with
  | nil => rfl
  | cons d rest ih =>
    have hgrows (ds : List Nat) (k : Nat) : k ≤ ds.foldl (fun n d => 10 * n + d) k := by
      induction ds generalizing k with
      | nil => exact le_rfl
      | cons d rest ih => exact le_trans (by omega) (ih (10 * k + d))
    have hfits := (hgrows rest (10 * m + d)).trans h
    rw [Numeral.gather, if_neg (by omega)]
    exact ih _ h

theorem digits_of_all {cs : List Char} (h : ∀ c ∈ cs, c.isDigit = true) :
    Numeral.digits cs = (cs.map fun c => c.toNat - '0'.toNat, []) := by
  rw [Numeral.digits, List.takeWhile_eq_self_iff.mpr h, List.dropWhile_eq_nil_iff.mpr h]

theorem isDigit_toDigits {n : Nat} : ∀ c ∈ Nat.toDigits 10 n, c.isDigit = true :=
  fun _ hc => Nat.isDigit_of_mem_toDigits (by omega) (by omega) hc

theorem ofChars?_toDigits (n : Nat) : Numeral.ofChars? (Nat.toDigits 10 n) =
    some ⟨false, (Nat.toDigits 10 n).map fun c => c.toNat - '0'.toNat, [], none⟩ := by
  have hsign : (Nat.toDigits 10 n).head? ≠ some '-' := by
    intro h
    have hdigit := isDigit_toDigits (n := n) '-' (List.mem_of_head? h)
    revert hdigit
    decide
  have hne : ((Nat.toDigits 10 n).map fun c => c.toNat - '0'.toNat).isEmpty = false := by
    simp [List.isEmpty_eq_false_iff, Nat.toDigits_ne_nil]
  -- Only a lone zero begins with a zero.
  have hzero : ((Nat.toDigits 10 n).map fun c => c.toNat - '0'.toNat).head? ≠ some 0 ∨
      ((Nat.toDigits 10 n).map fun c => c.toNat - '0'.toNat).length = 1 := by
    by_cases h : 0 < n
    · obtain ⟨c, hc, hnz⟩ := head?_toDigits h
      left
      rw [List.head?_map, hc, Option.map_some]
      exact fun heq => hnz (Option.some_inj.mp heq)
    · obtain rfl : n = 0 := by omega
      exact .inr rfl
  have hwhole : Numeral.whole? (Nat.toDigits 10 n) =
      some ((Nat.toDigits 10 n).map fun c => c.toNat - '0'.toNat, []) := by
    rw [Numeral.whole?, Numeral.digits?, digits_of_all isDigit_toDigits]
    simp only [hne, Bool.false_eq_true, if_false]
    rw [Option.filter_some, if_pos]
    simpa using hzero
  rw [Numeral.ofChars?, if_neg hsign]
  simp only [hwhole]
  rfl

theorem ofNumber?_toDigits {n : Nat} (h : n ≤ Numeral.largest) :
    Token.ofNumber? (Nat.toDigits 10 n) = some (.atom (.nat n)) := by
  have hsum : ((Nat.toDigits 10 n).map fun c => c.toNat - '0'.toNat).foldl
      (fun n d => 10 * n + d) 0 = n := by
    rw [List.foldl_map]
    exact Nat.ofDigitChars_toDigits (b := 10) (by omega) (by omega)
  have hgather := gather_eq ((Nat.toDigits 10 n).map fun c => c.toNat - '0'.toNat) 0
    (hsum.symm ▸ h)
  rw [hsum] at hgather
  rw [Token.ofNumber?, ofChars?_toDigits, Option.map_some, Numeral.value]
  simp only [hgather]
  rfl

theorem isNumeric_of_isDigit {c : Char} (h : c.isDigit = true) : Scanner.isNumeric c = true := by
  simp [Scanner.isNumeric, h]

theorem toList_toString (n : Nat) : (toString n).toList = Nat.toDigits 10 n := Nat.toList_repr

theorem numeric_toString (n : Nat) : ∀ c ∈ (toString n).toList, Scanner.isNumeric c = true := by
  intro c hc
  rw [toList_toString] at hc
  exact isNumeric_of_isDigit (isDigit_toDigits c hc)

theorem exists_toString (n : Nat) :
    ∃ c rest, (toString n).toList = c :: rest ∧ opensNumber c = true := by
  have hall := isDigit_toDigits (n := n)
  rw [toList_toString]
  cases hcs : Nat.toDigits 10 n with
  | nil => exact absurd hcs Nat.toDigits_ne_nil
  | cons c rest =>
    rw [hcs] at hall
    exact ⟨c, rest, rfl, by simp [opensNumber, hall c (by simp)]⟩

theorem spelled_toString (n : Nat) : Spelled (toString n).toList :=
  ⟨exists_toString n, numeric_toString n⟩

theorem delimited_nat {n : Nat} (h : n ≤ Numeral.largest) :
    Delimited (toString n).toList [.atom (.nat n)] :=
  (spelled_toString n).delimited ((toList_toString n).symm ▸ ofNumber?_toDigits h)

/-! ### The spelling of doubles -/

theorem Spelled.append {cs ds : List Char} (h : Spelled cs)
    (hds : ∀ c ∈ ds, Scanner.isNumeric c = true) : Spelled (cs ++ ds) := by
  obtain ⟨c, rest, rfl, hc⟩ := h.opening
  exact ⟨⟨c, rest ++ ds, rfl, hc⟩, List.forall_mem_append.mpr ⟨h.numeric, hds⟩⟩

theorem numeric_zeros (n : Nat) : ∀ c ∈ List.replicate n '0', Scanner.isNumeric c = true := by
  intro c hc
  rw [List.eq_of_mem_replicate hc]
  decide

theorem numeric_padded (width n : Nat) :
    ∀ c ∈ (Decimal.padded width n).toList, Scanner.isNumeric c = true := by
  rw [Decimal.padded, String.toList_append, toList_pushn]
  exact List.forall_mem_append.mpr ⟨numeric_zeros _, numeric_toString n⟩

theorem spelled_placesText (places units : Nat) :
    Spelled (Decimal.placesText places units).toList := by
  rw [Decimal.placesText]
  split
  · exact spelled_toString _
  · rw [String.toList_append, String.toList_append]
    refine ((spelled_toString _).append ?_).append (numeric_padded _ _)
    exact List.all_eq_true.mp rfl

theorem spelled_digitsText (d : Decimal.Digits) : Spelled (numberStyle.digitsText d).toList := by
  rw [Decimal.NumberStyle.digitsText]
  split
  · split
    · rw [String.toList_append, toList_pushn]
      refine ((spelled_toString _).append (numeric_zeros _)).append ?_
      exact List.all_eq_true.mp rfl
    · exact spelled_placesText _ _
  · -- The first digit, the others behind a point, and the exponent.
    obtain ⟨c, rest, htext, hc⟩ := exists_toString d.digits
    have hall := numeric_toString d.digits
    rw [htext, List.forall_mem_cons] at hall
    have hfirst : Spelled [c] := ⟨⟨c, [], rfl, hc⟩, List.forall_mem_singleton.mpr hall.1⟩
    have hfraction : ∀ x ∈ (if rest.isEmpty then "" else "." ++ String.ofList rest).toList,
        Scanner.isNumeric x = true := by
      split
      · exact List.all_eq_true.mp rfl
      · rw [String.toList_append, String.toList_ofList (l := rest)]
        exact List.forall_mem_append.mpr ⟨List.all_eq_true.mp rfl, hall.2⟩
    simp only [String.toList_append, String.toList_ofList, htext]
    refine (((hfirst.append hfraction).append ?_).append ?_).append (numeric_toString _)
    · exact List.all_eq_true.mp rfl
    · split <;> exact List.all_eq_true.mp rfl

/-- The text of a double, if it has one, is a number as far as its characters go. -/
theorem spelled_of_text? {x : Float} {text : String} (h : numberStyle.text? x = some text) :
    Spelled text.toList := by
  rw [Decimal.NumberStyle.text?] at h
  split at h
  · rw [← Option.some_inj.mp h, String.toList_append]
    have hbody := spelled_digitsText (Decimal.shortest ‹Nat› ‹Int›)
    split
    · have hall := List.forall_mem_append.mpr
        ⟨List.all_eq_true.mp (rfl : "-".toList.all Scanner.isNumeric = true), hbody.numeric⟩
      exact ⟨⟨'-', _, rfl, rfl⟩, hall⟩
    · exact hbody
  · cases h

/-! ### Doubles that are read back -/

/-- The text of the double stands for the double itself. -/
def ReadsBack (x : Float) : Prop := read? (Value.float x).text = some (.float x)

def readDouble? (text : String) : Option Float :=
  match read? text with
  | some (.float x) => some x
  | _ => none

theorem readDouble?_eq_some {text : String} {x : Float} :
    readDouble? text = some x ↔ read? text = some (.float x) := by
  rw [readDouble?]
  split
  · rename_i y hy
    simp [hy]
  · rename_i hne
    exact iff_of_false nofun (hne x)

instance (x : Float) : Decidable (ReadsBack x) := decidable_of_iff _ readDouble?_eq_some

theorem ofNumber?_eq_some {cs : List Char} {t : Token} (h : Token.ofNumber? cs = some t) :
    ∃ v, t = .atom v := by
  obtain ⟨n, _, rfl⟩ := Option.map_eq_some_iff.mp h
  exact ⟨n.value, rfl⟩

theorem delimits_blank : Delimits ' ' := ⟨by decide, by decide⟩

theorem tokens?_of_delimited {text : String} {ts : List Token} (h : Delimited text.toList ts) :
    tokens? text = some ts := by
  have hrun := h [] ' ' [] delimits_blank
  have hblank : [' '].foldlM step? ⟨.between, ts.reverse ++ []⟩ =
      some ⟨.between, ts.reverse ++ []⟩ := rfl
  rw [tokens?, hrun, hblank, List.append_nil]
  simp

/-- What is read from the characters of a number is a number. -/
theorem Spelled.exists_ofNumber? {text : String} {ts : List Token} (hs : Spelled text.toList)
    (h : tokens? text = some ts) :
    ∃ v, Token.ofNumber? text.toList = some (.atom v) ∧ ts = [.atom v] := by
  cases hn : Token.ofNumber? text.toList with
  | none =>
    -- The blank that is put behind the text ends the number, and there is none.
    have hstop : [' '].foldlM step? ⟨.number text.toList.reverse, []⟩ = none := by
      change (step? ⟨.number text.toList.reverse, []⟩ ' ').bind _ = none
      rw [step?_number, if_neg (by decide), List.reverse_reverse]
      exact congrArg (fun o => (Option.bind o _).bind _) hn
    have hrun : (text.toList ++ [' ']).foldlM step? ⟨.between, []⟩ = none := by
      rw [List.foldlM_append, hs.foldlM]
      exact hstop
    rw [tokens?, hrun] at h
    cases h
  | some t =>
    obtain ⟨v, rfl⟩ := ofNumber?_eq_some hn
    have hread := tokens?_of_delimited (hs.delimited hn)
    exact ⟨v, rfl, Option.some_inj.mp (h.symm.trans hread)⟩

theorem ReadsBack.delimited {x : Float} (h : ReadsBack x) (level : Nat) :
    Delimited ((Value.float x).textAt level).toList [.atom (.float x)] := by
  rw [ReadsBack, Value.text, Value.textAt] at h
  rw [Value.textAt]
  cases ht : numberStyle.text? x with
  | none =>
    rw [ht] at h
    cases h
  | some text =>
    rw [ht, Option.getD_some] at h
    obtain ⟨ts, hts, hvalue⟩ := Option.bind_eq_some_iff.mp h
    have hs := spelled_of_text? ht
    obtain ⟨v, hn, rfl⟩ := hs.exists_ofNumber? hts
    obtain rfl : v = .float x := Option.some_inj.mp hvalue
    exact hs.delimited hn

end OppNet.Json
