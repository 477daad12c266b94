import Mathlib.Data.List.Forall2
import Mathlib.Data.List.Nodup
import OppNet.Json.Form
import OppNet.Proofs.Json.Reader

/-!
# OppNet.Proofs.Json.Form

Data that is found again in the JSON value that it was put into.

* `fields?_record`: the members of a record, under names that differ.
* `choice?_name`: one of several choices, under names that differ.
* `legible_record`: the text of a record tells all about it if the texts of its members do.
-/

namespace OppNet.Json

namespace Value

/-! ### Members and choices -/

/-- Of members under names that differ one has the name. -/
theorem filter_members {members : List (String × Value)} {name : String} {v : Value}
    (hn : (members.map Prod.fst).Nodup) (h : (name, v) ∈ members) :
    (members.map fun m => (some m.1, m.2)).filter (fun m => m.1 == some name) =
      [(some name, v)] := by
  induction members with
  | nil => cases h
  | cons m rest ih =>
    rw [List.map_cons, List.nodup_cons] at hn
    rw [List.map_cons, List.filter_cons]
    by_cases hm : m.1 = name
    · have hnot : ∀ w, (name, w) ∉ rest := by
        rintro w hw
        exact hn.1 (List.mem_map.mpr ⟨(name, w), hw, hm.symm⟩)
      have hrest : (rest.map fun m => (some m.1, m.2)).filter (fun m => m.1 == some name) = [] := by
        rw [List.filter_eq_nil_iff]
        intro x hx
        obtain ⟨y, hy, rfl⟩ := List.mem_map.mp hx
        intro heq
        obtain rfl : y.1 = name := by simpa using heq
        exact hnot y.2 hy
      obtain rfl : (name, v) = m := (List.mem_cons.mp h).resolve_right (hnot v)
      rw [if_pos (by simp), hrest]
    · rw [if_neg (by simpa using hm)]
      refine ih hn.2 ((List.mem_cons.mp h).resolve_left ?_)
      rintro rfl
      exact hm rfl

theorem member?_record {members : List (String × Value)} {name : String} {v : Value}
    (hn : (members.map Prod.fst).Nodup) (h : (name, v) ∈ members) :
    member? (members.map fun m => (some m.1, m.2)) name = some v := by
  rw [member?, filter_members hn h]
  rfl

theorem mapM_eq_some {α β : Type} {f : α → Option β} {as : List α} {bs : List β}
    (h : List.Forall₂ (fun a b => f a = some b) as bs) : as.mapM f = some bs := by
  induction h with
  | nil => rfl
  | cons hab _ ih =>
    rw [List.mapM_cons, hab, ih]
    rfl

/-- The members of a record are found in the order in which they are asked for. -/
theorem fields?_record {names : List String} {vs : List Value} (hn : names.Nodup)
    (hl : names.length = vs.length) : (record (names.zip vs)).fields? names = some vs := by
  have hnames : ((names.zip vs).map Prod.fst).Nodup := by
    rwa [List.map_fst_zip hl.le]
  rw [record, fields?, if_pos (by simp)]
  refine mapM_eq_some (List.forall₂_iff_zip.mpr ⟨hl, fun h => ?_⟩)
  exact member?_record hnames h

theorem tagged?_record {members : List (String × Value)} {name : String}
    (h : ∀ m ∈ members, m.1 ≠ name) (tag : String) :
    (record ((name, string tag) :: members)).tagged? name = some (tag, record members) := by
  have hothers :
      (members.map fun m => (some m.1, m.2)).filter (fun m => m.1 == some name) = [] := by
    rw [List.filter_eq_nil_iff]
    intro x hx
    obtain ⟨y, hy, rfl⟩ := List.mem_map.mp hx
    simpa using h y hy
  have htag : member? ((some name, string tag) :: members.map fun m => (some m.1, m.2)) name =
      some (string tag) := by
    rw [member?, List.filter_cons_of_pos (by simp), hothers]
    rfl
  have hrest : ((some name, string tag) :: members.map fun m => (some m.1, m.2)).filter
      (fun m => m.1 != some name) = members.map fun m => (some m.1, m.2) := by
    rw [List.filter_cons_of_neg (by simp), List.filter_eq_self]
    intro x hx
    obtain ⟨y, hy, rfl⟩ := List.mem_map.mp hx
    simpa using h y hy
  rw [record, List.map_cons, tagged?]
  simp only [htag, hrest]
  rfl

theorem choice?_name {α : Type} {all : List α} {name : α → String}
    (hn : (all.map name).Nodup) {a : α} (h : a ∈ all) :
    (Value.string (name a)).choice? all name = some a := by
  change all.find? (fun b => name b == name a) = some a
  cases hf : all.find? fun b => name b == name a with
  | none => exact absurd (beq_self_eq_true (name a)) (List.find?_eq_none.mp hf a h)
  | some b =>
    have heq : name b = name a := by simpa using List.find?_some hf
    rw [List.inj_on_of_nodup_map hn (List.mem_of_find?_eq_some hf) h heq]

theorem float?_ofFloat {x : Float} (h : x.isFinite = true) : (ofFloat x).float? = some x := by
  rw [ofFloat, if_pos h]
  rfl

theorem isReadable_ofFloat (x : Float) : (ofFloat x).isReadable = true := by
  rw [ofFloat]
  split <;> rfl

theorem height_ofFloat (x : Float) : (ofFloat x).height = 0 := by
  rw [ofFloat]
  split <;> rfl

theorem legible_ofFloat {x : Float} (h : ReadsBack x) : (ofFloat x).Legible := by
  rw [ofFloat]
  split
  · exact .float h
  · exact .null

theorem legible_record {members : List (String × Value)} (h : ∀ m ∈ members, m.2.Legible) :
    (record members).Legible := by
  refine .object ?_ ?_
  · intro m hm
    obtain ⟨m', -, rfl⟩ := List.mem_map.mp hm
    rfl
  · intro m hm
    obtain ⟨m', hm', rfl⟩ := List.mem_map.mp hm
    exact h m' hm'

end Value

end OppNet.Json
