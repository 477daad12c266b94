import OppNet.Proofs.Comparison.Form
import OppNet.Storage

/-!
# OppNet.Proofs.Storage

What has been saved is loaded again.

* `extensionOf?_eq_some_iff`, `extension?_eq_json_iff`: which paths have which extension.
* `Format`: how one kind of data is kept as JSON. `Format.Sound`: its form is read as the data, and
  can be told from its text.
* `Format.RoundTrips`: what follows for values, texts and files. `Format.Sound.roundTrips`: it does.
* `files_round_trip`: scenarios, reports and lists of trials round-trip, and no file with another
  extension is touched.
-/

namespace OppNet

open Json (Value ReadsBack)

namespace Path

/-- An extension follows the last point of a name that does not begin with it. -/
theorem extensionOf?_eq_some_iff {name ext : String} : extensionOf? name = some ext ↔
    '.' ∉ ext.toList ∧ ∃ stem, stem ≠ "" ∧ name = stem ++ "." ++ ext := by
  constructor
  · intro h
    have hparts := List.takeWhile_append_dropWhile (p := (· ≠ '.')) (l := name.toList.reverse)
    rw [extensionOf?] at h
    split at h
    · rename_i c d rest hdrop
      cases h
      obtain rfl : c = '.' := by
        have hhead := List.head?_dropWhile_not (· ≠ '.') name.toList.reverse
        rw [hdrop] at hhead
        simpa using hhead
      refine ⟨?_, String.ofList (d :: rest).reverse, ?_, ?_⟩
      · rw [String.toList_ofList, List.mem_reverse]
        intro hmem
        simpa using List.mem_takeWhile_imp hmem
      · simp
      · have hname : name.toList =
            (name.toList.reverse.takeWhile (· ≠ '.') ++ '.' :: d :: rest).reverse := by
          rw [← hdrop, hparts, List.reverse_reverse]
        refine String.ext (hname.trans ?_)
        simp [String.toList_append]
    · cases h
  · rintro ⟨hext, stem, hstem, rfl⟩
    have hbackwards : (stem ++ "." ++ ext).toList.reverse =
        ext.toList.reverse ++ '.' :: stem.toList.reverse := by
      simp [String.toList_append]
    have hall : ∀ c ∈ ext.toList.reverse, decide (c ≠ '.') = true := by
      intro c hc
      rw [List.mem_reverse] at hc
      simpa using fun heq : c = '.' => hext (heq ▸ hc)
    obtain ⟨c, rest, hrest⟩ : ∃ c rest, stem.toList.reverse = c :: rest := by
      refine List.exists_cons_of_ne_nil ?_
      simpa using hstem
    rw [extensionOf?, hbackwards, List.takeWhile_append_of_pos hall,
      List.dropWhile_append_of_pos hall, hrest]
    simp

theorem extension?_eq_json_iff {path : String} : extension? path = some "json" ↔
    ∃ stem, stem ≠ "" ∧ fileName? path = some (stem ++ ".json") := by
  rw [extension?, Option.bind_eq_some_iff]
  constructor
  · rintro ⟨name, hname, hext⟩
    obtain ⟨-, stem, hstem, rfl⟩ := extensionOf?_eq_some_iff.mp hext
    refine ⟨stem, hstem, ?_⟩
    rw [hname, String.append_assoc]
    rfl
  · rintro ⟨stem, hstem, hname⟩
    refine ⟨_, hname, extensionOf?_eq_some_iff.mpr ⟨by decide, stem, hstem, ?_⟩⟩
    rw [String.append_assoc]
    rfl

end Path

namespace Folder

variable {path name text : String} {folder : Folder}

theorem find?_insert (folder : Folder) (name text : String) :
    (folder.insert name text).find? name = some text := by
  simp [insert, find?]

theorem run_save (hpath : Path.isJson path = true) (hname : resolve? path = some name) (v : Value) :
    (storage.save v path).run folder = (.ok (), folder.insert name v.text) := by
  rw [Storage.save, if_pos hpath]
  simp only [storage, hname]
  rfl

theorem run_load {α : Type} {ofJson? : Value → Option α} {a : α}
    (hpath : Path.isJson path = true) (hname : resolve? path = some name)
    (htext : folder.find? name = some text)
    (hread : (Json.read? text).bind ofJson? = some a) :
    (storage.load ofJson? path).run folder = (.ok a, folder) := by
  obtain ⟨v, hv, ha⟩ := Option.bind_eq_some_iff.mp hread
  rw [Storage.load, if_pos hpath]
  simp only [storage, hname, Option.bind_some, StateT.run, bind, StateT.bind, htext, hv, ha]
  rfl

end Folder

namespace Json

variable {α : Type}

/-- How one kind of data is kept as JSON, and the numbers in it. -/
structure Format (α : Type) where
  toJson : α → Value
  ofJson? : Value → Option α
  doubles : α → List Float
  counts : α → List Nat

namespace Format

/-- The form is read as the data, and can be told from its text if the numbers can. -/
structure Sound (f : Format α) : Prop where
  decoded : ∀ {a}, (∀ x ∈ f.doubles a, x.isFinite = true) → f.ofJson? (f.toJson a) = some a
  legible : ∀ {a}, (∀ x ∈ f.doubles a, ReadsBack x) → (∀ n ∈ f.counts a, n ≤ Numeral.largest) →
    (f.toJson a).Legible

/-- The data has no number that its text does not tell. -/
structure Printable (f : Format α) (a : α) : Prop where
  finite : ∀ x ∈ f.doubles a, x.isFinite = true
  readBack : ∀ x ∈ f.doubles a, ReadsBack x
  words : ∀ n ∈ f.counts a, n ≤ Numeral.largest

/-- The data survives as a JSON value, as a text and as a file. -/
structure RoundTrips (f : Format α) : Prop where
  /-- Data with finite doubles is read from its form as it was. -/
  decoded : ∀ a, (∀ x ∈ f.doubles a, x.isFinite = true) → f.ofJson? (f.toJson a) = some a
  /-- Different data has different forms. -/
  distinct : ∀ a b, (∀ x ∈ f.doubles a, x.isFinite = true) →
    (∀ x ∈ f.doubles b, x.isFinite = true) → f.toJson a = f.toJson b → a = b
  /-- Printable data is read from its text as it was. -/
  read : ∀ a, f.Printable a → (read? (f.toJson a).text).bind f.ofJson? = some a
  distinctTexts : ∀ a b, f.Printable a → f.Printable b →
    (f.toJson a).text = (f.toJson b).text → a = b
  /-- What has been saved in a folder is loaded from it. -/
  stored : ∀ a path folder, f.Printable a → Path.extension? path = some "json" →
    (Folder.resolve? path).isSome = true →
    ∃ folder', (Folder.storage.save (f.toJson a) path).run folder = (.ok (), folder') ∧
      (Folder.storage.load f.ofJson? path).run folder' = (.ok a, folder')

theorem Sound.roundTrips {f : Format α} (h : f.Sound) : f.RoundTrips := by
  have hread : ∀ a, f.Printable a → (read? (f.toJson a).text).bind f.ofJson? = some a := by
    intro a ha
    rw [read?_text (h.legible ha.readBack ha.words), Option.bind_some, h.decoded ha.finite]
  refine ⟨fun a => h.decoded, ?_, hread, ?_, ?_⟩
  · intro a b ha hb heq
    have hsame := h.decoded ha
    rw [heq, h.decoded hb] at hsame
    exact (Option.some_inj.mp hsame).symm
  · intro a b ha hb heq
    have hsame := hread a ha
    rw [heq, hread b hb] at hsame
    exact (Option.some_inj.mp hsame).symm
  · intro a path folder ha hpath hplace
    obtain ⟨name, hname⟩ := Option.isSome_iff_exists.mp hplace
    have hjson : Path.isJson path = true := by simpa [Path.isJson] using hpath
    exact ⟨_, Folder.run_save hjson hname _,
      Folder.run_load hjson hname (folder.find?_insert name _) (hread a ha)⟩

end Format

end Json

/-! ### What is kept in files -/

def Scenario.format : Json.Format Scenario where
  toJson := Scenario.toJson
  ofJson? := Scenario.ofJson?
  doubles := Scenario.doubles
  counts := Scenario.counts

def Report.format : Json.Format Report where
  toJson := Report.toJson
  ofJson? := Report.ofJson?
  doubles := Report.doubles
  counts := Report.counts

def Trial.listFormat : Json.Format (List Trial) where
  toJson := Trial.listToJson
  ofJson? := Trial.listOfJson?
  doubles := Trial.doubles
  counts := Trial.counts

theorem Scenario.format_sound : Scenario.format.Sound :=
  ⟨Scenario.ofJson?_toJson, Scenario.legible_toJson⟩

theorem Report.format_sound : Report.format.Sound :=
  ⟨Report.ofJson?_toJson, Report.legible_toJson⟩

theorem Trial.listFormat_sound : Trial.listFormat.Sound :=
  ⟨Trial.listOfJson?_listToJson, Trial.legible_listToJson⟩

/-- A path whose file has another extension is refused, and the storage is not asked. -/
theorem Storage.refuses {m : Type → Type} [Monad m] (storage : Storage m) {path : String}
    (h : Path.extension? path ≠ some "json") :
    (∀ v, storage.save v path = pure (.error .notJsonToWrite)) ∧
      ∀ {α : Type} (ofJson? : Value → Option α),
        storage.load ofJson? path = pure (.error .notJsonToRead) := by
  have hnot : ¬ Path.isJson path = true := by simpa [Path.isJson] using h
  exact ⟨fun v => if_neg hnot, fun ofJson? => if_neg hnot⟩

/--
Scenarios, reports and lists of trials round-trip through JSON files; a file with any other
extension is neither read nor written.
-/
theorem files_round_trip :
    Scenario.format.RoundTrips ∧ Report.format.RoundTrips ∧ Trial.listFormat.RoundTrips ∧
      ∀ (m : Type → Type) [Monad m] (storage : Storage m) (path : String),
        (∀ stem, stem ≠ "" → Path.fileName? path ≠ some (stem ++ ".json")) →
        (∀ v, storage.save v path = pure (.error .notJsonToWrite)) ∧
          ∀ {α : Type} (ofJson? : Value → Option α),
            storage.load ofJson? path = pure (.error .notJsonToRead) := by
  refine ⟨Scenario.format_sound.roundTrips, Report.format_sound.roundTrips,
    Trial.listFormat_sound.roundTrips, fun m _ storage path hother => storage.refuses ?_⟩
  intro hjson
  obtain ⟨stem, hstem, hname⟩ := Path.extension?_eq_json_iff.mp hjson
  exact hother stem hstem hname

/-- One trial in which something was delivered, and one in which nothing was. -/
def mixedTrials : List Trial :=
  [⟨Scenario.default.policies, { generated := 3, delivered := 1, meanLatency := some ⟨312.5⟩ }⟩,
    ⟨Scenario.default.policies, { generated := 3 }⟩]

theorem default_round_trips : Scenario.format.Printable .default ∧
    Trial.listFormat.Printable mixedTrials ∧
    (∃ folder,
      (Folder.storage.save Scenario.default.toJson "scenario.json").run [] = (.ok (), folder) ∧
      (Folder.storage.load Scenario.ofJson? "scenario.json").run folder =
        (.ok .default, folder)) ∧
    (Json.read? (Trial.listToJson mixedTrials).text).bind Trial.listOfJson? = some mixedTrials ∧
    (∀ stem, stem ≠ "" → Path.fileName? "scenario.JSON" ≠ some (stem ++ ".json")) ∧
    Folder.storage.save Scenario.default.toJson "scenario.JSON" =
      pure (.error .notJsonToWrite) := by
  have hscenario : Scenario.format.Printable .default :=
    ⟨by decide +kernel, by decide +kernel, by decide +kernel⟩
  have htrials : Trial.listFormat.Printable mixedTrials :=
    ⟨by decide +kernel, by decide +kernel, by decide +kernel⟩
  have hother : ∀ stem, stem ≠ "" → Path.fileName? "scenario.JSON" ≠ some (stem ++ ".json") := by
    intro stem hstem hname
    have hjson := Path.extension?_eq_json_iff.mpr ⟨stem, hstem, hname⟩
    exact absurd hjson (by decide +kernel)
  obtain ⟨scenarios, -, trials, refused⟩ := files_round_trip
  exact ⟨hscenario, htrials,
    scenarios.stored _ _ _ hscenario (by decide +kernel) (by decide +kernel),
    trials.read _ htrials, hother, (refused _ Folder.storage _ hother).1 _⟩

end OppNet
