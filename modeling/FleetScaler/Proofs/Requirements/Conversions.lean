import FleetScaler.Proofs.Json.Values
import FleetScaler.Proofs.Requirements.Grammar

/-!
# What the reader of requirements relies on

A value that is read may hold much else: keys that mean nothing here, numbers of any kind, and
whatever is nested below them. `essential` drops what the reader does not look at.

Whoever takes a text or a number out of a JSON value uses a typed conversion, which fails or gives
some other number when the value is not of the type asked for. `Conversions` leaves open what
happens then, and `Conversions.read` reads requirements by them, with every type checked before the
conversion is made. The result is that of the reader, for every choice of what was left open, so no
conversion is ever made that might fail or lose a digit.
-/

namespace FleetScaler

/-! ## Other keys -/

namespace Json

/-- The value without the fields of other keys. -/
def only (keys : List String) : Json → Json
  | .object fields => .object (fields.filter fun field => decide (field.1 ∈ keys))
  | v => v

theorem lookup_filter {keys : List String} {key : String} (h : key ∈ keys)
    (fields : List (String × Json)) :
    lookup key (fields.filter fun field => decide (field.1 ∈ keys)) = lookup key fields := by
  induction fields with
  | nil => rfl
  | cons field rest ih =>
      obtain ⟨k, v⟩ := field
      by_cases hk : k ∈ keys
      · simp only [List.filter_cons, hk, decide_true, if_true, lookup, ih]
      · have hne : k ≠ key := fun he => hk (he ▸ h)
        simp only [List.filter_cons, hk, decide_false, Bool.false_eq_true, if_false, lookup, ih,
          hne]
        cases lookup key rest <;> rfl

theorem get?_only {keys : List String} {key : String} (h : key ∈ keys) (v : Json) :
    (v.only keys).get? key = v.get? key := by
  cases v with
  | object fields => exact lookup_filter h fields
  | _ => rfl

theorem isObject_only (keys : List String) (v : Json) :
    (v.only keys).isObject = v.isObject := by
  cases v <;> rfl

end Json

/-- The keys of an entry. -/
def entryKeys : List String := ["profile", "minimumInstances", "dependentProfiles"]

/-- A list of entries without the fields of other keys. -/
def essentialEntries : Json → Json
  | .array entries => .array (entries.map (Json.only entryKeys))
  | v => v

/-- A value without the fields of other keys, in the value and in the entries of its list. -/
def essential (v : Json) : Json :=
  match v.only ["profileRequirements"] with
  | .object fields => .object (fields.map fun field => (field.1, essentialEntries field.2))
  | w => w

theorem isObject_essential (v : Json) : (essential v).isObject = v.isObject := by
  cases v <;> rfl

theorem get?_essential (v : Json) : (essential v).get? "profileRequirements"
    = (v.get? "profileRequirements").map essentialEntries := by
  cases v with
  | object fields =>
      show Json.lookup _ (List.map _ _) = _
      rw [Json.lookup_map, Json.lookup_filter (List.mem_singleton_self _)]
      rfl
  | _ => rfl

theorem Requirement.ofJson_only (v : Json) : ofJson (v.only entryKeys) = ofJson v := by
  have hp : (v.only entryKeys).get? "profile" = v.get? "profile" :=
    Json.get?_only (by decide) v
  have hm : (v.only entryKeys).get? "minimumInstances" = v.get? "minimumInstances" :=
    Json.get?_only (by decide) v
  have hd : (v.only entryKeys).get? "dependentProfiles" = v.get? "dependentProfiles" :=
    Json.get?_only (by decide) v
  simp only [ofJson, profileOfJson, minimumOfJson, dependenciesOfJson, Json.isObject_only, hp, hm,
    hd]

theorem Document.readEntries_only (d : Document) (entries : List Json) :
    readEntries d (entries.map (Json.only entryKeys)) = readEntries d entries := by
  induction entries generalizing d with
  | nil => rfl
  | cons v rest ih => simp only [List.map_cons, readEntries, Requirement.ofJson_only, ih]

/-- **Other keys are ignored.** -/
theorem Document.ofJson_essential (v : Json) : ofJson (essential v) = ofJson v := by
  simp only [ofJson, isObject_essential, get?_essential]
  cases v.get? "profileRequirements" with
  | none => rfl
  | some list =>
      cases list with
      | array entries =>
          simp only [Option.map_some, essentialEntries, Json.items?, readEntries_only]
      | _ => rfl

/-! ## Typed conversions -/

/-- Typed conversions of JSON values. Where a value is not of the type, they fail or give
anything. -/
structure Conversions where
  text : Json → Except Failure String
  /-- To a signed number of 64 bits. -/
  signed64 : Json → Except Failure Int
  /-- To an unsigned number of 64 bits. -/
  unsigned64 : Json → Except Failure Int
  /-- To a signed number of 32 bits. -/
  signed32 : Json → Except Failure Int

namespace Conversions

/-- The conversions are exact where the value is of the type that is asked for. -/
structure Exact (c : Conversions) : Prop where
  text : ∀ s, c.text (.text s) = .ok s
  signed64 : ∀ i, (Json.signed i).Fits → c.signed64 (.signed i) = .ok i
  unsigned64 : ∀ m i, m.Fits → m.int? = some i → 0 ≤ i → c.unsigned64 m = .ok i
  signed32 : ∀ m i, m.int? = some i → 0 ≤ i → i < 2147483648 → c.signed32 m = .ok i

variable (c : Conversions)

/-- Reads the profile of an entry. -/
def readProfile (v : Json) : Except Failure (Except FormatError String) :=
  match v.get? "profile" with
  | none => return .error .noProfile
  | some x =>
    if x.text?.isNone then return .error .noProfile
    else do
      let s ← c.text x
      return if s = "" then .error .noProfile else .ok s

/-- The number is negative, which only one that is held as signed can be. -/
def isNegative : Json → Except Failure Bool
  | .unsigned _ => return false
  | m => do
    let i ← c.signed64 m
    return decide (i < 0)

/-- Reads a minimum that is there. -/
def readNumber (profile : String) (m : Json) : Except Failure (Except FormatError (Option Int)) :=
  if m.int?.isNone then return .error (.minimumNotAnInteger profile)
  else do
    let negative ← c.isNegative m
    if negative then return .error (.minimumNegative profile)
    else
      let n ← c.unsigned64 m
      if largestMinimum < n then return .error (.minimumTooLarge profile)
      else
        let i ← c.signed32 m
        return .ok (some i)

/-- Reads the minimum of an entry. -/
def readMinimum (profile : String) (v : Json) :
    Except Failure (Except FormatError (Option Int)) :=
  match v.get? "minimumInstances" with
  | none => return .ok none
  | some .null => return .ok none
  | some m => c.readNumber profile m

/-- Reads the texts of a list of dependencies. -/
def readTexts (profile : String) : List Json → Except Failure (Except FormatError (List String))
  | [] => return .ok []
  | v :: rest =>
    if v.text?.isNone then return .error (.dependencyNotAText profile)
    else do
      let s ← c.text v
      match ← readTexts profile rest with
      | .error e => return .error e
      | .ok ss => return .ok (s :: ss)

/-- Reads the dependencies of an entry. -/
def readDependencies (profile : String) (v : Json) :
    Except Failure (Except FormatError (List String)) :=
  match v.get? "dependentProfiles" with
  | none => return .ok []
  | some .null => return .ok []
  | some ds =>
    match ds.items? with
    | none => return .error (.dependenciesNotAnArray profile)
    | some items => c.readTexts profile items

/-- Reads an entry. -/
def readRequirement (v : Json) : Except Failure (Except FormatError Requirement) :=
  if v.isObject then do
    match ← c.readProfile v with
    | .error e => return .error e
    | .ok profile =>
      match ← c.readMinimum profile v with
      | .error e => return .error e
      | .ok minimum =>
        match ← c.readDependencies profile v with
        | .error e => return .error e
        | .ok dependencies => return .ok { profile, minimum, dependencies }
  else return .error .entryNotAnObject

/-- Reads the entries of a list one after the other into a document. -/
def readEntries (d : Document) : List Json → Except Failure (Except FormatError Document)
  | [] => return .ok d
  | v :: rest => do
    match ← c.readRequirement v with
    | .error e => return .error e
    | .ok r =>
      if d.contains r.profile then return .error (.duplicateProfile r.profile)
      else readEntries (d.insert r) rest

/-- Reads a document. -/
def read (v : Json) : Except Failure (Except FormatError Document) :=
  if v.isObject then
    match v.get? "profileRequirements" with
    | none => return .ok .empty
    | some .null => return .ok .empty
    | some list =>
      match list.items? with
      | none => return .error .listNotAnArray
      | some entries => c.readEntries .empty entries
  else return .error .notAnObject

/-! ### Every conversion is made of a value of its type -/

variable {c}

theorem Exact.readProfile_eq (h : c.Exact) (v : Json) :
    c.readProfile v = .ok (Requirement.profileOfJson v) := by
  unfold readProfile Requirement.profileOfJson
  cases v.get? "profile" with
  | none => rfl
  | some x =>
      cases x with
      | text s =>
          simp only [Json.text?, Option.isNone_some, Bool.false_eq_true, if_false, h.text]
          by_cases hs : s = "" <;> simp [hs, bind, Except.bind, pure, Except.pure]
      | _ => rfl

theorem Exact.isNegative_eq (h : c.Exact) {m : Json} (hf : m.Fits) {i : Int}
    (hi : m.int? = some i) : c.isNegative m = .ok (decide (i < 0)) := by
  cases m with
  | unsigned n =>
      obtain rfl := Option.some.inj hi
      simp [isNegative, pure, Except.pure]
  | signed j =>
      obtain rfl := Option.some.inj hi
      simp [isNegative, h.signed64 _ hf, bind, Except.bind, pure, Except.pure]
  | _ => exact absurd hi (by simp [Json.int?])

/-- The width is checked before the number is cut to it. -/
theorem Exact.readNumber_eq (h : c.Exact) {m : Json} (hf : m.Fits) (profile : String) :
    c.readNumber profile m = .ok (Requirement.numberOfJson profile m) := by
  unfold readNumber Requirement.numberOfJson
  cases hi : m.int? with
  | none => rfl
  | some i =>
      simp only [Option.isNone_some, Bool.false_eq_true, if_false, h.isNegative_eq hf hi, bind,
        Except.bind, pure, Except.pure]
      by_cases hneg : i < 0
      · simp only [hneg, decide_true, if_true]
      · simp only [hneg, decide_false, Bool.false_eq_true, if_false,
          h.unsigned64 m i hf hi (by omega)]
        by_cases hlarge : largestMinimum < i
        · simp only [hlarge, if_true]
        · have hlt : i < 2147483648 := by
            rw [Requirement.largestMinimum_lt_iff] at hlarge
            omega
          simp only [hlarge, if_false, h.signed32 m i hi (by omega) hlt]

theorem Exact.readMinimum_eq (h : c.Exact) {v : Json} (hv : v.Every Json.Fits)
    (profile : String) :
    c.readMinimum profile v = .ok (Requirement.minimumOfJson profile v) := by
  cases hm : v.get? "minimumInstances" with
  | none => rw [readMinimum, Requirement.minimumOfJson, hm]; rfl
  | some m =>
      by_cases hn : m = .null
      · rw [readMinimum, Requirement.minimumOfJson, hm, hn]
        rfl
      · rw [Requirement.minimumOfJson_of_some hm hn, ← h.readNumber_eq (hv.get? hm).self,
          readMinimum, hm]
        cases m with
        | null => exact absurd rfl hn
        | _ => rfl

theorem Exact.readTexts_eq (h : c.Exact) (profile : String) (items : List Json) :
    c.readTexts profile items = .ok (Requirement.textsOfJson profile items) := by
  induction items with
  | nil => rfl
  | cons v rest ih =>
      cases v with
      | text s =>
          simp only [readTexts, Requirement.textsOfJson, Json.text?, Option.isNone_some,
            Bool.false_eq_true, if_false, h.text, ih, bind, Except.bind]
          cases Requirement.textsOfJson profile rest <;> rfl
      | _ => rfl

theorem Exact.readDependencies_eq (h : c.Exact) (profile : String) (v : Json) :
    c.readDependencies profile v = .ok (Requirement.dependenciesOfJson profile v) := by
  unfold readDependencies Requirement.dependenciesOfJson
  cases v.get? "dependentProfiles" with
  | none => rfl
  | some ds =>
      cases ds with
      | array items => exact h.readTexts_eq profile items
      | _ => rfl

theorem Exact.readRequirement_eq (h : c.Exact) {v : Json} (hv : v.Every Json.Fits) :
    c.readRequirement v = .ok (Requirement.ofJson v) := by
  unfold readRequirement Requirement.ofJson
  cases v.isObject with
  | false => rfl
  | true =>
      simp only [if_true, h.readProfile_eq, h.readMinimum_eq hv, h.readDependencies_eq, bind,
        Except.bind, pure, Except.pure]
      cases Requirement.profileOfJson v with
      | error e => rfl
      | ok profile =>
          cases hm : Requirement.minimumOfJson profile v with
          | error e => simp only [hm]
          | ok minimum =>
              cases hd : Requirement.dependenciesOfJson profile v with
              | error e => simp only [hm, hd]
              | ok dependencies => simp only [hm, hd]

theorem Exact.readEntries_eq (h : c.Exact) {entries : List Json}
    (hv : ∀ v ∈ entries, v.Every Json.Fits) (d : Document) :
    c.readEntries d entries = .ok (d.readEntries entries) := by
  induction entries generalizing d with
  | nil => rfl
  | cons v rest ih =>
      simp only [readEntries, Document.readEntries,
        h.readRequirement_eq (hv v List.mem_cons_self), bind, Except.bind]
      cases Requirement.ofJson v with
      | error e => rfl
      | ok r =>
          simp only
          split
          · rfl
          · exact ih (fun w hw => hv w (List.mem_cons_of_mem _ hw)) _

/-- **No conversion can fail or lose a digit**, whatever conversions do elsewhere. -/
theorem Exact.read_eq (h : c.Exact) {v : Json} (hv : v.Every Json.Fits) :
    c.read v = .ok (Document.ofJson v) := by
  unfold read Document.ofJson
  cases v.isObject with
  | false => rfl
  | true =>
      simp only [if_true]
      cases hl : v.get? "profileRequirements" with
      | none => rfl
      | some list =>
          cases list with
          | array entries => exact h.readEntries_eq (fun w hw => (hv.get? hl).item hw) _
          | _ => rfl

/-! ### Conversions that cut -/

/-- The whole part of a number. -/
def truncated : Json → Except Failure Int
  | .unsigned n => .ok n
  | .signed i => .ok i
  | .decimal significand exponent =>
    .ok ((significand * Int.pow 10 exponent.toNat).tdiv (Int.pow 10 (-exponent).toNat))
  | _ => .error (.collaborator "type must be number")

/-- Conversions that cut a number to its whole part and to the width that is asked for, and fail
on everything else. -/
def cutting : Conversions where
  text
    | .text s => .ok s
    | _ => .error (.collaborator "type must be string")
  signed64 m := (truncated m).map fun i => i.bmod 18446744073709551616
  unsigned64 m := (truncated m).map fun i => i % 18446744073709551616
  signed32 m := (truncated m).map fun i => i.bmod 4294967296

theorem truncated_of_int? {m : Json} {i : Int} (h : m.int? = some i) : truncated m = .ok i := by
  cases m with
  | unsigned n => rw [← Option.some.inj h]; rfl
  | signed j => rw [← Option.some.inj h]; rfl
  | _ => exact absurd h (by simp [Json.int?])

theorem exact_cutting : cutting.Exact where
  text _ := rfl
  signed64 i hf := by
    have hi : i.bmod 18446744073709551616 = i := by
      obtain ⟨hlow, hhigh⟩ := hf
      exact Int.bmod_eq_of_le (by omega) (by omega)
    simp only [cutting, truncated_of_int? (m := .signed i) rfl, Except.map, hi]
  unsigned64 m i hf hi hpos := by
    have hlt : i < 18446744073709551616 := by
      cases m with
      | unsigned n =>
          obtain rfl := Option.some.inj hi
          exact Int.ofNat_lt.mpr hf
      | signed j =>
          obtain rfl := Option.some.inj hi
          have := hf.2
          omega
      | _ => exact absurd hi (by simp [Json.int?])
    simp only [cutting, truncated_of_int? hi, Except.map, Int.emod_eq_of_lt hpos hlt]
  signed32 m i hi hpos hlt := by
    have hcut : i.bmod 4294967296 = i := Int.bmod_eq_of_le (by omega) (by omega)
    simp only [cutting, truncated_of_int? hi, Except.map, hcut]

end Conversions

/-! ## The reader and the grammar -/

/--
**A document is read exactly where a value states one.** For every JSON value:

* the document that is read has the requirements that the value states, in their order;
* one is read exactly if the value states some requirements;
* otherwise the wording is that of the first fault;
* values that differ in other keys only are read alike;
* the typed conversions that the reading needs are all made of values of the type that is asked
  for, so that none can fail or lose a digit, whatever conversions do with other values.
-/
theorem Document.reader_follows_grammar (v : Json) :
    (∀ d, ofJson v = .ok d ↔ States v d.requirements) ∧
    ((∃ d, ofJson v = .ok d) ↔ ∃ rs, States v rs) ∧
    (∀ text, (ofJson v).mapError FormatError.message = .error text ↔ FirstFault v text) ∧
    (∀ w, essential w = essential v → ofJson w = ofJson v) ∧
    (v.Every Json.Fits → ∀ c : Conversions, c.Exact → c.read v = .ok (ofJson v)) := by
  refine ⟨fun d => ofJson_eq_ok_iff, ?_, fun text => ofJson_eq_error_iff, ?_,
    fun hv c h => h.read_eq hv⟩
  · constructor
    · rintro ⟨d, hd⟩
      exact ⟨d.requirements, ofJson_eq_ok_iff.mp hd⟩
    · rintro ⟨rs, hs⟩
      exact ⟨⟨rs, hs.nodup⟩, ofJson_eq_ok_iff.mpr hs⟩
  · intro w hw
    rw [← ofJson_essential w, hw, ofJson_essential]

/-- A value with a key that means nothing, keys that are repeated, and a zero below zero. -/
def overgrown : Json :=
  .object [("revision", .decimal 15 (-1)), ("profileRequirements", .bool true),
    ("profileRequirements", .array [
      .object [("profile", .text "db"), ("minimumInstances", .signed 0), ("owner", .null)],
      .object [("minimumInstances", .unsigned 3), ("profile", .text "web"),
        ("minimumInstances", .null), ("dependentProfiles", .array [.text "db"])]])]

/-- What it states: a minimum of zero and no minimum. -/
def overgrownDocument : Document where
  requirements := [{ profile := "db", minimum := some 0 },
    { profile := "web", dependencies := ["db"] }]
  distinct := by decide

theorem overgrown_follows_grammar :
    overgrown.Every Json.Fits ∧ Conversions.cutting.Exact ∧
      States overgrown overgrownDocument.requirements ∧
      Conversions.cutting.read overgrown = .ok (.ok overgrownDocument) := by
  have hread : Document.ofJson overgrown = .ok overgrownDocument := rfl
  have hfits : overgrown.Every Json.Fits := by
    simp [overgrown, Json.Every, Json.EveryItem, Json.EveryField, Json.Fits]
  obtain ⟨hstates, -, -, -, hconversions⟩ := Document.reader_follows_grammar overgrown
  exact ⟨hfits, Conversions.exact_cutting, (hstates _).mp hread,
    (hconversions hfits _ Conversions.exact_cutting).trans (congrArg _ hread)⟩

end FleetScaler
