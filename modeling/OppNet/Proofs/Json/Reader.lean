import Mathlib.Data.List.Forall2
import OppNet.Proofs.Json.Numeral

/-!
# OppNet.Proofs.Json.Reader

JSON text is read back as the value that it was written from.

* `Value.Legible`: the values whose text says all about them: every name can be read, every natural
  fits a word, and every double is read back from its own text.
* `Value.tokens`: what a value consists of. `foldlM_tokens`: the reader puts it together again,
  whatever containers are around it.
* `delimited_textAt`: the scanner finds these tokens in the text.
* `read?_text`: the text of a legible value is read back as the value.
-/

namespace OppNet.Json

namespace Value

/-- The value can be told from its text. -/
inductive Legible : Value → Prop where
  | null : Legible .null
  | bool (b : Bool) : Legible (.bool b)
  | nat {n : Nat} (h : n ≤ Numeral.largest) : Legible (.nat n)
  | float {x : Float} (h : ReadsBack x) : Legible (.float x)
  | string (s : String) : Legible (.string s)
  | array {items : List Value} (h : ∀ v ∈ items, Legible v) : Legible (.array items)
  | object {members : List Member} (named : ∀ m ∈ members, m.1.isSome = true)
      (h : ∀ m ∈ members, Legible m.2) : Legible (.object members)

mutual

def tokens : Value → List Token
  | string s => [.text (some s)]
  | unreadable => [.text none]
  | array items => .openArray :: ([.comma].intercalate (itemTokens items) ++ [.closeArray])
  | object members =>
    .openObject :: ([.comma].intercalate (memberTokens members) ++ [.closeObject])
  | v => [.atom v]

def itemTokens : List Value → List (List Token)
  | [] => []
  | v :: rest => v.tokens :: itemTokens rest

def memberTokens : List (Option String × Value) → List (List Token)
  | [] => []
  | (name, v) :: rest => (.text name :: .colon :: v.tokens) :: memberTokens rest

end

theorem itemTokens_eq_map (items : List Value) : itemTokens items = items.map tokens := by
  induction items with
  | nil => rfl
  | cons v rest ih => rw [itemTokens, ih, List.map_cons]

theorem memberTokens_eq_map (members : List Member) : memberTokens members =
    members.map fun m => .text m.1 :: .colon :: m.2.tokens := by
  induction members with
  | nil => rfl
  | cons m rest ih => rw [memberTokens, ih, List.map_cons]

theorem itemTexts_eq_map (level : Nat) (items : List Value) :
    itemTexts level items = items.map (textAt level) := by
  induction items with
  | nil => rfl
  | cons v rest ih => rw [itemTexts, ih, List.map_cons]

theorem memberTexts_eq_map (level : Nat) (members : List Member) : memberTexts level members =
    members.map fun m => quoted (m.1.getD "") ++ ": " ++ m.2.textAt level := by
  induction members with
  | nil => rfl
  | cons m rest ih => rw [memberTexts, ih, List.map_cons]

end Value

/-- What is separated is what comes first, and then each other piece behind a separator. -/
theorem intercalate_cons {α : Type} (sep p : List α) (ps : List (List α)) :
    sep.intercalate (p :: ps) = p ++ ps.flatMap (sep ++ ·) := by
  induction ps generalizing p with
  | nil => simp
  | cons q rest ih =>
    rw [List.intercalate_cons_cons, ih, List.flatMap_cons, List.append_assoc, List.append_assoc]

/-! ### Tokens to values -/

namespace Reader

/-- Reading the tokens of the value completes it. -/
def Completes (v : Value) : Prop := ∀ outer rest,
  (v.tokens ++ rest).foldlM step? (.beforeValue outer) = rest.foldlM step? (complete v outer)

/-- The first item of an array is read like any other. -/
theorem foldlM_firstItem (v : Value) (outer : List Frame) (rest : List Token) :
    (v.tokens ++ rest).foldlM step? (.firstItem outer) =
      (v.tokens ++ rest).foldlM step? (.beforeValue (.array [] :: outer)) := by
  cases v <;> rfl

theorem foldlM_items {items : List Value} (h : ∀ v ∈ items, Completes v) (done : List Value)
    (outer : List Frame) (rest : List Token) :
    (items.flatMap (fun v => .comma :: v.tokens) ++ .closeArray :: rest).foldlM step?
      (.afterItem done outer) =
      rest.foldlM step? (complete (.array (done.reverse ++ items)) outer) := by
  induction items generalizing done with
  | nil =>
    rw [List.append_nil]
    rfl
  | cons v vs ih =>
    rw [List.flatMap_cons, List.cons_append, List.cons_append, List.append_assoc]
    refine (h v (by simp) (.array done :: outer) _).trans ?_
    refine (ih (fun x hx => h x (by simp [hx])) (v :: done)).trans ?_
    rw [List.reverse_cons, List.append_assoc]
    rfl

theorem foldlM_members {members : List Member} (h : ∀ m ∈ members, Completes m.2)
    (done : List Member) (outer : List Frame) (rest : List Token) :
    (members.flatMap (fun m => .comma :: .text m.1 :: .colon :: m.2.tokens) ++
      .closeObject :: rest).foldlM step? (.afterMember done outer) =
      rest.foldlM step? (complete (.object (done.reverse ++ members)) outer) := by
  induction members generalizing done with
  | nil =>
    rw [List.append_nil]
    rfl
  | cons m ms ih =>
    rw [List.flatMap_cons]
    simp only [List.cons_append, List.append_assoc]
    refine (h m (by simp) (.object done m.1 :: outer) _).trans ?_
    refine (ih (fun x hx => h x (by simp [hx])) (m :: done)).trans ?_
    rw [List.reverse_cons, List.append_assoc]
    rfl

theorem foldlM_tokens {v : Value} (h : v.Legible) : Completes v := by
  intro outer rest
  induction h generalizing outer rest with
  | null | bool | nat | float | string => rfl
  | @array items _ ih =>
    rw [Value.tokens, Value.itemTokens_eq_map]
    cases items with
    | nil => rfl
    | cons v vs =>
      rw [List.map_cons, intercalate_cons, List.flatMap_map]
      simp only [List.cons_append, List.append_assoc, List.nil_append]
      -- The first item follows the bracket, the others a comma each.
      refine (foldlM_firstItem v outer _).trans ?_
      refine (ih v (by simp) _ _).trans ?_
      exact foldlM_items (fun x hx => ih x (by simp [hx])) [v] outer rest
  | @object members _ _ ih =>
    rw [Value.tokens, Value.memberTokens_eq_map]
    cases members with
    | nil => rfl
    | cons m ms =>
      rw [List.map_cons, intercalate_cons, List.flatMap_map]
      simp only [List.cons_append, List.append_assoc, List.nil_append]
      refine (ih m (by simp) (.object [] m.1 :: outer) _).trans ?_
      exact foldlM_members (fun x hx => ih x (by simp [hx])) [m] outer rest

end Reader

theorem ofTokens?_tokens {v : Value} (h : v.Legible) : ofTokens? v.tokens = some v := by
  have hrun := Reader.foldlM_tokens h [] []
  rw [List.append_nil] at hrun
  rw [ofTokens?, hrun]
  rfl

/-! ### Text to tokens -/

theorem delimits_comma : Delimits ',' := ⟨by decide, by decide⟩

theorem delimits_lineEnd : Delimits '\n' := ⟨by decide, by decide⟩

/-- Parts behind commas, each on a line of its own. -/
theorem delimited_separated (level : Nat) {parts : List String} {pieces : List (List Token)}
    (h : List.Forall₂ (fun s ts => Delimited s.toList ts) parts pieces) {cs : List Char}
    {ts : List Token} (hcs : Delimited cs ts) :
    Delimited (cs ++ parts.flatMap fun s => ("," ++ newline level).toList ++ s.toList)
      (ts ++ pieces.flatMap ([.comma] ++ ·)) := by
  induction h generalizing cs ts with
  | nil => simpa using hcs
  | @cons s us parts pieces hs _ ih =>
    have hcomma : Scans [','] [.comma] := fun _ => rfl
    have hsep := hcomma.append (scans_newline level)
    have hnext := ih ((hcs.append delimits_comma hsep).append_delimited hs)
    simpa [List.append_assoc, String.toList_append] using hnext

theorem scans_enclosed {opening closing : String} {first last : Token} (level : Nat)
    (hfirst : Scans opening.toList [first]) (hlast : Scans closing.toList [last])
    {parts : List String} {pieces : List (List Token)}
    (h : List.Forall₂ (fun s ts => Delimited s.toList ts) parts pieces) :
    Scans (enclosed opening closing level parts).toList
      (first :: ([.comma].intercalate pieces ++ [last])) := by
  cases h with
  | nil =>
    change Scans (opening ++ closing).toList _
    rw [String.toList_append]
    exact hfirst.append hlast
  | @cons s us parts pieces hs hrest =>
    have hopened := (hfirst.append (scans_newline (level + 1))).append_delimited hs
    have hparts := delimited_separated (level + 1) hrest hopened
    have hclosed := hparts.append delimits_lineEnd (toList_newline level ▸ scans_newline level)
    have hall := hclosed.append hlast
    rw [enclosed, if_neg (by simp), intercalate_cons]
    simp only [String.toList_append, String.toList_intercalate, List.map_cons, intercalate_cons,
      List.flatMap_map]
    simp only [String.toList_append, List.append_assoc, List.cons_append, List.nil_append,
      List.append_nil, toList_newline] at hall ⊢
    exact hall

theorem delimited_textAt {v : Value} (h : v.Legible) (level : Nat) :
    Delimited (v.textAt level).toList v.tokens := by
  induction h generalizing level with
  | null =>
    rw [Value.textAt]
    exact delimited_word 'n' ['u', 'l', 'l'] (fun _ => rfl) rfl rfl
  | bool b =>
    rw [Value.textAt]
    cases b with
    | false =>
      exact delimited_word 'f' ['a', 'l', 's', 'e'] (fun _ => rfl) rfl rfl
    | true =>
      exact delimited_word 't' ['r', 'u', 'e'] (fun _ => rfl) rfl rfl
  | nat hn => exact delimited_nat hn
  | float hx => exact hx.delimited level
  | string s => exact (scans_quoted s).delimited
  | @array items _ ih =>
    rw [Value.textAt, Value.tokens, Value.itemTexts_eq_map, Value.itemTokens_eq_map]
    refine (scans_enclosed level (fun _ => rfl) (fun _ => rfl) ?_).delimited
    rw [List.forall₂_map_left_iff, List.forall₂_map_right_iff, List.forall₂_same]
    exact fun v hv => ih v hv (level + 1)
  | @object members named _ ih =>
    rw [Value.textAt, Value.tokens, Value.memberTexts_eq_map, Value.memberTokens_eq_map]
    refine (scans_enclosed level (fun _ => rfl) (fun _ => rfl) ?_).delimited
    rw [List.forall₂_map_left_iff, List.forall₂_map_right_iff, List.forall₂_same]
    intro m hm
    obtain ⟨name, hname⟩ := Option.isSome_iff_exists.mp (named m hm)
    have hcolon : Scans [':', ' '] [.colon] := fun _ => rfl
    rw [hname, Option.getD_some, String.toList_append, String.toList_append]
    exact ((scans_quoted name).append hcolon).append_delimited (ih m hm (level + 1))

/-- The text of a value is read back as the value. -/
theorem read?_text {v : Value} (h : v.Legible) : read? v.text = some v := by
  have htokens : tokens? v.text = some v.tokens := tokens?_of_delimited (delimited_textAt h 0)
  rw [read?, htokens, Option.bind_some, ofTokens?_tokens h]

end OppNet.Json
