import FleetScaler.Proofs.Json.RoundTrip
import FleetScaler.Proofs.Requirements.Grammar
import FleetScaler.Store

/-!
# Saved documents load

Writing leaves out what is absent or empty, and reading puts it back, so the requirements that come
out of a file are those that went in. Some documents hold requirements that no file may state: a
profile without a name, or a minimum below zero. Such a document is written all the same, and
refused on loading for the first requirement of that kind.

Between the two stands the text. What was written reads as the same value but for the numbers,
which come back as unsigned; `ofJson_reread` says what becomes of one requirement.
-/

namespace FleetScaler

/-! ## Values on their way through a file -/

namespace Json

theorem rereadItems_eq (items : List Json) : rereadItems items = items.map reread := by
  induction items with
  | nil => rfl
  | cons v rest ih => rw [rereadItems, ih, List.map_cons]

theorem rereadFields_eq (fields : List (String × Json)) :
    rereadFields fields = fields.map fun field => (field.1, reread field.2) := by
  induction fields with
  | nil => rfl
  | cons field rest ih => rw [rereadFields, ih, List.map_cons]

theorem get?_reread (key : String) (v : Json) : (reread v).get? key = (v.get? key).map reread := by
  cases v with
  | object fields => rw [reread, rereadFields_eq, get?, lookup_map, get?]
  | signed i =>
      rw [reread]
      split <;> rfl
  | _ => rfl

theorem int?_reread_signed (i : Int) : (reread (.signed i)).int? = some i := by
  rw [reread]
  split
  · rfl
  · simp only [int?, Option.some.injEq]
    omega

end Json

/-! ## One requirement -/

namespace Requirement

/-- The requirement may stand in a file: the profile has a name, and no fewer than no instances are
asked for. -/
structure Storable (r : Requirement) : Prop where
  named : r.profile ≠ ""
  minimum : ∀ i ∈ r.minimum, 0 ≤ i

instance (r : Requirement) : Decidable r.Storable :=
  decidable_of_iff (r.profile ≠ "" ∧ ∀ i ∈ r.minimum, 0 ≤ i)
    ⟨fun h => ⟨h.1, h.2⟩, fun h => ⟨h.1, h.2⟩⟩

variable (r : Requirement)

theorem get?_profile : r.toJson.get? "profile" = some (.text r.profile) := by
  rw [toJson, Json.get?, Json.lookup_append_singleton, if_pos rfl]

theorem get?_minimum : r.toJson.get? "minimumInstances" = r.minimum.map .signed := by
  rw [toJson, Json.get?, Json.lookup_append_singleton, if_neg (by decide)]
  cases r.minimum with
  | none => cases r.dependencies <;> rfl
  | some i =>
      rw [minimumFields, Json.lookup_append_singleton, if_pos rfl]
      rfl

theorem get?_dependencies : r.toJson.get? "dependentProfiles" =
    if r.dependencies = [] then none else some (.array (r.dependencies.map .text)) := by
  rw [toJson, Json.get?, Json.lookup_append_singleton, if_neg (by decide)]
  cases r.minimum with
  | none =>
      cases r.dependencies with
      | nil => rfl
      | cons d ds => rfl
  | some i =>
      rw [minimumFields, Json.lookup_append_singleton, if_neg (by decide)]
      cases r.dependencies <;> rfl

/-- What is wrong with a requirement that may not stand in a file. -/
def fault : FormatError :=
  if r.profile = "" then .noProfile else .minimumNegative r.profile

variable {r}

theorem profileOfJson_reread : profileOfJson r.toJson.reread =
    if r.profile = "" then .error .noProfile else .ok r.profile := by
  rw [profileOfJson, Json.get?_reread, get?_profile]
  rfl

theorem minimumOfJson_reread (hr : ∀ i ∈ r.minimum, i < 2147483648) (profile : String) :
    minimumOfJson profile r.toJson.reread =
      if ∀ i ∈ r.minimum, 0 ≤ i then .ok r.minimum else .error (.minimumNegative profile) := by
  have hget := Json.get?_reread "minimumInstances" r.toJson
  rw [get?_minimum] at hget
  cases hm : r.minimum with
  | none =>
      rw [hm] at hget
      simp [minimumOfJson, hget]
  | some i =>
      rw [hm] at hget
      have hlarge : ¬ largestMinimum < i := by
        rw [largestMinimum_lt_iff]
        have := hr i hm
        omega
      have hint := Json.int?_reread_signed i
      have hn : Json.reread (.signed i) ≠ .null := by
        intro h
        rw [h] at hint
        exact absurd hint (by simp [Json.int?])
      rw [minimumOfJson_of_some hget hn, numberOfJson, hint]
      by_cases hi : i < 0
      · simp [hi]
      · have hpos : 0 ≤ i := by omega
        simp [hi, hlarge, hpos]

theorem dependenciesOfJson_reread (profile : String) :
    dependenciesOfJson profile r.toJson.reread = .ok r.dependencies := by
  have hget := Json.get?_reread "dependentProfiles" r.toJson
  rw [get?_dependencies] at hget
  by_cases hd : r.dependencies = []
  · simp [hd] at hget
    simp [dependenciesOfJson, hget, hd]
  · have htexts : (r.dependencies.map Json.text).map Json.reread = r.dependencies.map .text := by
      simp [Json.reread, Function.comp_def]
    simp only [hd, if_false, Option.map_some, Json.reread, Json.rereadItems_eq, htexts] at hget
    simp only [dependenciesOfJson, hget, Json.items?]
    exact textsOfJson_map r.dependencies

/-- **A requirement that was written is read back**, unless it may not stand in a file. -/
theorem ofJson_reread (hr : ∀ i ∈ r.minimum, i < 2147483648) : ofJson r.toJson.reread =
    if r.Storable then .ok r else .error r.fault := by
  have ho : r.toJson.reread.isObject = true := rfl
  rw [ofJson, if_pos ho, profileOfJson_reread]
  by_cases hp : r.profile = ""
  · have hs : ¬ r.Storable := fun h => h.named hp
    rw [if_pos hp, if_neg hs, fault, if_pos hp]
    rfl
  · rw [if_neg hp, fault, if_neg hp]
    by_cases hm : ∀ i ∈ r.minimum, 0 ≤ i
    · have hs : r.Storable := ⟨hp, hm⟩
      simp only [bind, Except.bind, minimumOfJson_reread hr, if_pos hm,
        dependenciesOfJson_reread, if_pos hs]
      rfl
    · have hs : ¬ r.Storable := fun h => hm h.minimum
      simp only [bind, Except.bind, minimumOfJson_reread hr, if_neg hm, if_neg hs]

end Requirement

/-! ## Documents -/

namespace Document

/-- Every minimum is a number of 32 bits, which is what is held in memory. -/
def Sized (d : Document) : Prop :=
  ∀ r ∈ d.requirements, ∀ i ∈ r.minimum, -2147483648 ≤ i ∧ i < 2147483648

/-- Every requirement may stand in a file. -/
def Storable (d : Document) : Prop := ∀ r ∈ d.requirements, r.Storable

/-- The first requirement that may not stand in a file. -/
def unstorable? (d : Document) : Option Requirement :=
  d.requirements.find? fun r => !decide r.Storable

instance (d : Document) : Decidable d.Sized := List.decidableBAll _ _

instance (d : Document) : Decidable d.Storable := List.decidableBAll _ _

variable {d : Document}

theorem unstorable?_eq_none_iff : d.unstorable? = none ↔ d.Storable := by
  simp [unstorable?, Storable]

/-- A document is written without a number that the reader could not hold. -/
theorem isWhole_toJson (h : d.Sized) : d.toJson.Every Json.IsWhole := by
  have hentry : ∀ r ∈ d.requirements, r.toJson.Every Json.IsWhole := by
    intro r hr
    refine ⟨trivial, Json.everyField_iff.mpr fun field hfield => ?_⟩
    rw [List.mem_append, List.mem_append] at hfield
    rcases hfield with (hfield | hfield) | hfield
    · cases hd : r.dependencies with
      | nil => simp [hd, Requirement.dependencyFields] at hfield
      | cons s ss =>
          rw [hd] at hfield
          obtain rfl := List.mem_singleton.mp hfield
          refine ⟨trivial, Json.everyItem_iff.mpr fun v hv => ?_⟩
          obtain ⟨s', -, rfl⟩ := List.mem_map.mp hv
          trivial
    · cases hm : r.minimum with
      | none => simp [hm, Requirement.minimumFields] at hfield
      | some i =>
          rw [hm] at hfield
          obtain rfl := List.mem_singleton.mp hfield
          have hi := h r hr i hm
          exact ⟨by omega, by omega⟩
    · obtain rfl := List.mem_singleton.mp hfield
      trivial
  refine ⟨trivial, ⟨trivial, Json.everyItem_iff.mpr fun v hv => ?_⟩, trivial⟩
  obtain ⟨r, hr, rfl⟩ := List.mem_map.mp hv
  exact hentry r hr

theorem get?_reread : d.toJson.reread.get? "profileRequirements" =
    some (.array (d.requirements.map fun r => r.toJson.reread)) := by
  have hget : d.toJson.get? "profileRequirements" =
      some (.array (d.requirements.map Requirement.toJson)) := rfl
  rw [Json.get?_reread, hget, Option.map_some, Json.reread, Json.rereadItems_eq, List.map_map]
  rfl

theorem statesRequirement_reread {r : Requirement} (h : d.Sized) (hr : r ∈ d.requirements)
    (hs : r.Storable) : StatesRequirement r.toJson.reread r := by
  have hsize : ∀ i ∈ r.minimum, i < 2147483648 := fun i hi => (h r hr i hi).2
  exact Requirement.ofJson_eq_ok_iff.mp ((Requirement.ofJson_reread hsize).trans (if_pos hs))

theorem forall₂_reread {rs : List Requirement}
    (h : ∀ r ∈ rs, StatesRequirement r.toJson.reread r) :
    List.Forall₂ StatesRequirement (rs.map fun r => r.toJson.reread) rs := by
  rw [List.forall₂_map_left_iff, List.forall₂_same]
  exact h

theorem states_reread (h : d.Sized) (hs : d.Storable) :
    States d.toJson.reread d.requirements :=
  .list get?_reread (forall₂_reread fun r hr => statesRequirement_reread h hr (hs r hr)) d.distinct

theorem firstFault_reread (h : d.Sized) {r : Requirement} (hr : d.unstorable? = some r) :
    FirstFault d.toJson.reread r.fault.message := by
  obtain ⟨hnot, before, after, hsplit, hbefore⟩ := List.find?_eq_some_iff_append.mp hr
  have hsize : ∀ i ∈ r.minimum, i < 2147483648 := fun i hi =>
    (h r (hsplit ▸ List.mem_append_right _ List.mem_cons_self) i hi).2
  have hlist := get?_reread (d := d)
  rw [hsplit, List.map_append, List.map_cons] at hlist
  refine .entry hlist (forall₂_reread fun q hq => ?_) ?_ (.entry ?_)
  · refine statesRequirement_reread h (hsplit ▸ List.mem_append_left _ hq) ?_
    simpa using hbefore q hq
  · have hd := d.distinct
    rw [hsplit, profilesOf, List.map_append] at hd
    exact (List.nodup_append.mp hd).1
  · refine Requirement.ofJson_eq_error_iff.mp ?_
    rw [Requirement.ofJson_reread hsize, if_neg (by simpa using hnot)]
    rfl

/-- **A document that may stand in a file is read back from it.** -/
theorem parse_fileText_of_storable (h : d.Sized) (hs : d.Storable) :
    parse d.fileText = .accepted d := by
  rw [parse, fileText, Json.parse_print (isWhole_toJson h)]
  simp only [ofJson_eq_ok_iff.mpr (states_reread h hs)]

/-- **Any other document is refused**, for the first requirement that may not. -/
theorem parse_fileText_of_unstorable (h : d.Sized) {r : Requirement}
    (hr : d.unstorable? = some r) : parse d.fileText = .refused r.fault.message := by
  obtain ⟨e, he, hmessage⟩ :=
    mapError_eq_error_iff.mp (ofJson_eq_error_iff.mpr (firstFault_reread h hr))
  rw [parse, fileText, Json.parse_print (isWhole_toJson h)]
  simp only [he, hmessage]

end Document

/-! ## Files -/

namespace Folder

theorem written_of_isWritable {path : String} (h : isWritable path = true) :
    written path = .whole := if_pos h

/-- The folder once a text has been written to a file. -/
def put (f : Folder) (path text : String) : Folder := { files := f.files ++ [(path, text)] }

/-- What has been written is found. -/
theorem find_put (f : Folder) {path : String} (h : isWritable path = true) (text : String) :
    (f.put path text).find path = .text text := by
  unfold isWritable at h
  split at h
  · rename_i levels name hloc
    simp [find, put, hloc, List.filter_append]
  · exact absurd h (by simp)

end Folder

namespace Store

variable {κ : Type}

/--
**Saved requirements load back.** Whatever the document of a store is, and wherever it is saved:

* if every profile has a name and no minimum is negative, the text that was saved states exactly
  this document, and any store that loads the file has it then;
* otherwise the text is refused for the first requirement that may not stand in a file, and a store
  that loads the file stays as it is.
-/
theorem saved_document_loads (s s' : Store κ) (f : Folder) {path : String}
    (hpath : Folder.isWritable path = true) (hd : s.document.Sized) :
    ∃ text, s.save path (Folder.written path) = .ok text ∧
      (s.document.Storable →
        Document.parse text = .accepted s.document ∧
        (s'.load path ((f.put path text).find path)).1 = .accepted () ∧
        (s'.load path ((f.put path text).find path)).2.document = s.document) ∧
      (¬ s.document.Storable → ∃ r, s.document.unstorable? = some r ∧
        Document.parse text = .refused r.fault.message ∧
        s'.load path ((f.put path text).find path) =
          (.refused (path ++ ": " ++ r.fault.message), s')) := by
  have hsave : s.save path (Folder.written path) = .ok s.document.fileText := by
    rw [Folder.written_of_isWritable hpath, save]
  refine ⟨s.document.fileText, hsave, fun hs => ?_, fun hs => ?_⟩
  · have hparse := Document.parse_fileText_of_storable hd hs
    simp [load, Folder.find_put f hpath, textOf?, hparse, set, write, raise]
  · obtain ⟨r, hr⟩ := Option.ne_none_iff_exists'.mp (mt Document.unstorable?_eq_none_iff.mp hs)
    have hparse := Document.parse_fileText_of_unstorable hd hr
    refine ⟨r, hr, hparse, ?_⟩
    simp [load, Folder.find_put f hpath, textOf?, hparse]

/-- Names with quotation marks, backslashes, line breaks and other control characters. -/
def awkward : Document where
  requirements := [{ profile := "a \"b\"\n", minimum := some 0 },
    { profile := "\\u0000\x01\x7f", minimum := some 2147483647, dependencies := ["", "\tä€"] }]
  distinct := by decide

/-- A minimum that may not stand in a file. -/
def overdrawn : Document where
  requirements := [{ profile := "db", minimum := some (-1) }]
  distinct := by decide

theorem awkward_document_loads :
    Folder.isWritable "../fleet.json" = true ∧ awkward.Sized ∧ awkward.Storable ∧
      Document.parse awkward.fileText = .accepted awkward ∧
      overdrawn.Sized ∧ ¬ overdrawn.Storable ∧
      Document.parse overdrawn.fileText =
        .refused "minimumInstances of db must not be negative" := by
  have hpath : Folder.isWritable "../fleet.json" = true := by decide +kernel
  have hsized : awkward.Sized := by decide
  have hstorable : awkward.Storable := by decide
  have hsized' : overdrawn.Sized := by decide
  have hnot : ¬ overdrawn.Storable := by decide
  obtain ⟨text, hsave, haccepted, -⟩ :=
    saved_document_loads { document := awkward : Store Nat } {} {} hpath hsized
  obtain ⟨text', hsave', -, hrefused⟩ :=
    saved_document_loads { document := overdrawn : Store Nat } {} {} hpath hsized'
  rw [Folder.written_of_isWritable hpath] at hsave hsave'
  obtain rfl := Except.ok.inj hsave
  obtain rfl := Except.ok.inj hsave'
  obtain ⟨r, hr, hparse, -⟩ := hrefused hnot
  obtain rfl := Option.some.inj hr
  exact ⟨hpath, hsized, hstorable, (haccepted hstorable).1, hsized', hnot, hparse⟩

end Store
end FleetScaler
