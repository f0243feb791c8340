import FleetScaler.Proofs.Document
import FleetScaler.Requirements.Format
import Mathlib.Data.List.Forall2

/-!
# The grammar of requirement documents

`States v rs` says which JSON values state which requirements, without a word on how a value is
read: what the fields of an entry may be, that profiles are distinct, and nothing about other keys.
`FirstFault v text` says what is wrong with a value that states none, and gives the wording: the
first entry in the list that is at fault decides, and within an entry the first field.

The reader answers with the requirements that a value states, and otherwise with its first fault.
-/

namespace FleetScaler

/-! ## What a value may state -/

/-- The field of a minimum states a minimum, or none. -/
inductive StatesMinimum : Option Json → Option Int → Prop
  | absent : StatesMinimum none none
  | null : StatesMinimum (some .null) none
  | unsigned (n : Nat) (h : n < 2147483648) : StatesMinimum (some (.unsigned n)) (some n)
  | signed (i : Int) (hpos : 0 ≤ i) (h : i < 2147483648) : StatesMinimum (some (.signed i)) (some i)

/-- The field of the dependencies states some profiles. -/
inductive StatesDependencies : Option Json → List String → Prop
  | absent : StatesDependencies none []
  | null : StatesDependencies (some .null) []
  | array (ss : List String) : StatesDependencies (some (.array (ss.map .text))) ss

/-- The value is an object that names a profile. -/
structure Names (v : Json) (profile : String) : Prop where
  object : v.isObject = true
  text : v.get? "profile" = some (.text profile)
  nonempty : profile ≠ ""

/-- The value states a requirement. -/
structure StatesRequirement (v : Json) (r : Requirement) : Prop where
  names : Names v r.profile
  minimum : StatesMinimum (v.get? "minimumInstances") r.minimum
  dependencies : StatesDependencies (v.get? "dependentProfiles") r.dependencies

/-- The value states a list of requirements, one for each profile. -/
inductive States (v : Json) : List Requirement → Prop
  | absent (ho : v.isObject = true) (h : v.get? "profileRequirements" = none) : States v []
  | null (h : v.get? "profileRequirements" = some .null) : States v []
  | list {entries : List Json} {rs : List Requirement}
      (h : v.get? "profileRequirements" = some (.array entries))
      (hs : List.Forall₂ StatesRequirement entries rs) (hd : (profilesOf rs).Nodup) : States v rs

/-! ## What may be wrong with a value -/

/-- What is wrong with the field of a minimum. -/
inductive MinimumFault (profile : String) : Option Json → String → Prop
  | notAnInteger {m : Json} (hn : m ≠ .null) (h : m.int? = none) :
      MinimumFault profile (some m) ("minimumInstances of " ++ profile ++ " must be an integer")
  | negative {m : Json} {i : Int} (hi : m.int? = some i) (h : i < 0) :
      MinimumFault profile (some m)
        ("minimumInstances of " ++ profile ++ " must not be negative")
  | tooLarge {m : Json} {i : Int} (hi : m.int? = some i) (h : 2147483648 ≤ i) :
      MinimumFault profile (some m) ("minimumInstances of " ++ profile ++ " is out of range")

/-- What is wrong with the field of the dependencies. -/
inductive DependencyFault (profile : String) : Option Json → String → Prop
  | notAnArray {ds : Json} (hn : ds ≠ .null) (h : ds.items? = none) :
      DependencyFault profile (some ds) ("dependentProfiles of " ++ profile ++ " must be an array")
  | notAText {items : List Json} {item : Json} (hi : item ∈ items) (h : item.text? = none) :
      DependencyFault profile (some (.array items))
        ("dependentProfiles of " ++ profile ++ " must contain strings")

/-- The first thing that is wrong with an entry. -/
inductive EntryFault (v : Json) : String → Prop
  | notAnObject (h : v.isObject = false) : EntryFault v "profile requirement must be an object"
  | noProfile (ho : v.isObject = true) (h : ∀ profile, ¬ Names v profile) :
      EntryFault v "profile requirement needs a non-empty \"profile\""
  | minimum {profile text : String} (hp : Names v profile)
      (h : MinimumFault profile (v.get? "minimumInstances") text) : EntryFault v text
  | dependencies {profile text : String} {m : Option Int} (hp : Names v profile)
      (hm : StatesMinimum (v.get? "minimumInstances") m)
      (h : DependencyFault profile (v.get? "dependentProfiles") text) : EntryFault v text

/-- What is wrong with an entry that comes after some requirements. -/
inductive NextFault (rs : List Requirement) (v : Json) : String → Prop
  | entry {text : String} (h : EntryFault v text) : NextFault rs v text
  | duplicate {r : Requirement} (hr : StatesRequirement v r) (h : r.profile ∈ profilesOf rs) :
      NextFault rs v ("duplicate profile requirement: " ++ r.profile)

/-- The first thing that is wrong with a value. -/
inductive FirstFault (v : Json) : String → Prop
  | notAnObject (h : v.isObject = false) : FirstFault v "requirements must be a JSON object"
  | notAnArray {list : Json} (h : v.get? "profileRequirements" = some list) (hn : list ≠ .null)
      (ha : list.items? = none) : FirstFault v "\"profileRequirements\" must be an array"
  | entry {before after : List Json} {entry : Json} {rs : List Requirement} {text : String}
      (h : v.get? "profileRequirements" = some (.array (before ++ entry :: after)))
      (hs : List.Forall₂ StatesRequirement before rs) (hd : (profilesOf rs).Nodup)
      (hf : NextFault rs entry text) : FirstFault v text

/-! ## Fields -/

theorem mapError_eq_error_iff {ε ε' α : Type} {f : ε → ε'} {x : Except ε α} {t : ε'} :
    x.mapError f = .error t ↔ ∃ e, x = .error e ∧ f e = t := by
  cases x <;> simp [Except.mapError]

theorem statesMinimum_null {m : Option Int} : StatesMinimum (some .null) m ↔ m = none := by
  constructor
  · rintro ⟨⟩
    rfl
  · rintro rfl
    exact .null

/-- A minimum that is there is a whole number in range. -/
theorem statesMinimum_some_iff {x : Json} (hn : x ≠ .null) {m : Option Int} :
    StatesMinimum (some x) m ↔ ∃ i, x.int? = some i ∧ 0 ≤ i ∧ i < 2147483648 ∧ m = some i := by
  constructor
  · intro h
    cases h with
    | null => exact absurd rfl hn
    | unsigned n hlt => exact ⟨n, rfl, Int.natCast_nonneg n, by omega, rfl⟩
    | signed i hpos hlt => exact ⟨i, rfl, hpos, hlt, rfl⟩
  · rintro ⟨i, hi, hpos, hlt, rfl⟩
    cases x with
    | unsigned n =>
        obtain rfl := Option.some.inj hi
        exact .unsigned n (by omega)
    | signed j =>
        obtain rfl := Option.some.inj hi
        exact .signed j hpos hlt
    | _ => exact absurd hi (by simp [Json.int?])

namespace Requirement

variable {v : Json} {profile : String}

theorem profileOfJson_eq_ok_iff (ho : v.isObject = true) :
    profileOfJson v = .ok profile ↔ Names v profile := by
  unfold profileOfJson
  constructor
  · intro h
    split at h
    · rename_i s hs
      split at h
      · exact absurd h (by simp)
      · rename_i hne
        obtain rfl := Except.ok.inj h
        exact ⟨ho, hs, hne⟩
    · exact absurd h (by simp)
  · rintro ⟨-, hs, hne⟩
    simp [hs, hne]

theorem error_of_profileOfJson {e : FormatError} (h : profileOfJson v = .error e) :
    e = .noProfile := by
  unfold profileOfJson at h
  split at h
  · split at h
    · exact (Except.error.inj h).symm
    · exact absurd h (by simp)
  · exact (Except.error.inj h).symm

/-- What is read of a minimum that is there. -/
def numberOfJson (profile : String) (m : Json) : Except FormatError (Option Int) :=
  match m.int? with
  | none => .error (.minimumNotAnInteger profile)
  | some i =>
    if i < 0 then .error (.minimumNegative profile)
    else if largestMinimum < i then .error (.minimumTooLarge profile)
    else .ok (some i)

theorem minimumOfJson_of_some {m : Json} (h : v.get? "minimumInstances" = some m)
    (hn : m ≠ .null) : minimumOfJson profile v = numberOfJson profile m := by
  rw [minimumOfJson, h]
  cases m with
  | null => exact absurd rfl hn
  | _ => rfl

theorem largestMinimum_lt_iff {i : Int} : largestMinimum < i ↔ 2147483648 ≤ i := by
  unfold largestMinimum
  omega

theorem minimumOfJson_eq_ok_iff {m : Option Int} :
    minimumOfJson profile v = .ok m ↔ StatesMinimum (v.get? "minimumInstances") m := by
  cases h : v.get? "minimumInstances" with
  | none => 
      simp only [minimumOfJson, h, Except.ok.injEq]
      constructor
      · rintro rfl
        exact .absent
      · rintro ⟨⟩
        rfl
  | some x =>
      by_cases hn : x = .null
      · subst hn
        simp only [minimumOfJson, h, Except.ok.injEq, statesMinimum_null, eq_comm]
      · rw [minimumOfJson_of_some h hn, statesMinimum_some_iff hn, numberOfJson]
        cases x.int? with
        | none => simp
        | some i =>
            simp only [Option.some.injEq, exists_eq_left', largestMinimum_lt_iff]
            constructor
            · intro heq
              split at heq
              · exact absurd heq (by simp)
              · split at heq
                · exact absurd heq (by simp)
                · exact ⟨by omega, by omega, (Except.ok.inj heq).symm⟩
            · rintro ⟨hpos, hlt, rfl⟩
              rw [if_neg (by omega), if_neg (by omega)]

theorem minimumOfJson_eq_error_iff {text : String} :
    (minimumOfJson profile v).mapError FormatError.message = .error text
      ↔ MinimumFault profile (v.get? "minimumInstances") text := by
  cases h : v.get? "minimumInstances" with
  | none =>
      simp only [minimumOfJson, h, Except.mapError, reduceCtorEq, false_iff]
      rintro ⟨⟩
  | some x =>
      by_cases hn : x = .null
      · subst hn
        simp only [minimumOfJson, h, Except.mapError, reduceCtorEq, false_iff]
        intro hf
        cases hf with
        | notAnInteger hn _ => exact hn rfl
        | negative hi _ => exact absurd hi (by simp [Json.int?])
        | tooLarge hi _ => exact absurd hi (by simp [Json.int?])
      · rw [minimumOfJson_of_some h hn, numberOfJson]
        constructor
        · intro heq
          cases hi : x.int? with
          | none =>
              rw [hi] at heq
              obtain rfl := Except.error.inj heq
              exact .notAnInteger hn hi
          | some i =>
              simp only [hi] at heq
              split at heq
              · rename_i hneg
                obtain rfl := Except.error.inj heq
                exact .negative hi hneg
              · split at heq
                · rename_i hlarge
                  obtain rfl := Except.error.inj heq
                  exact .tooLarge hi (largestMinimum_lt_iff.mp hlarge)
                · exact absurd heq (by simp [Except.mapError])
        · intro hf
          cases hf with
          | notAnInteger _ hi => simp only [hi]; rfl
          | negative hi hneg =>
              simp only [hi, if_pos hneg]
              rfl
          | @tooLarge _ i hi hlarge =>
              have hpos : ¬ i < 0 := by omega
              simp only [hi, largestMinimum_lt_iff, if_neg hpos, if_pos hlarge]
              rfl

theorem textsOfJson_map (ss : List String) : textsOfJson profile (ss.map .text) = .ok ss := by
  induction ss with
  | nil => rfl
  | cons s rest ih => simp only [List.map_cons, textsOfJson, Json.text?, ih]

/-- The items of a list are texts, or one of them is not. -/
theorem textsOfJson_cases (profile : String) (items : List Json) :
    (∃ ss, items = ss.map .text ∧ textsOfJson profile items = .ok ss) ∨
    ((∃ item ∈ items, item.text? = none)
      ∧ textsOfJson profile items = .error (.dependencyNotAText profile)) := by
  induction items with
  | nil => exact Or.inl ⟨[], rfl, rfl⟩
  | cons item rest ih =>
      cases ht : item.text? with
      | none => exact Or.inr ⟨⟨item, List.mem_cons_self, ht⟩, by simp only [textsOfJson, ht]⟩
      | some s =>
          have hitem : item = .text s := by
            cases item with
            | text s' => rw [Option.some.inj ht]
            | _ => exact absurd ht (by simp [Json.text?])
          rcases ih with ⟨ss, rfl, hok⟩ | ⟨⟨other, hmem, hother⟩, herr⟩
          · exact Or.inl ⟨s :: ss, by rw [hitem]; rfl, by simp only [textsOfJson, ht, hok]⟩
          · exact Or.inr ⟨⟨other, List.mem_cons_of_mem _ hmem, hother⟩,
              by simp only [textsOfJson, ht, herr]⟩

theorem dependenciesOfJson_of_some {ds : Json} (h : v.get? "dependentProfiles" = some ds)
    (hn : ds ≠ .null) : dependenciesOfJson profile v =
      match ds.items? with
      | none => .error (.dependenciesNotAnArray profile)
      | some items => textsOfJson profile items := by
  rw [dependenciesOfJson, h]
  cases ds with
  | null => exact absurd rfl hn
  | _ => rfl

theorem dependenciesOfJson_eq_ok_iff {ss : List String} :
    dependenciesOfJson profile v = .ok ss
      ↔ StatesDependencies (v.get? "dependentProfiles") ss := by
  constructor
  · intro heq
    cases h : v.get? "dependentProfiles" with
    | none =>
        simp only [dependenciesOfJson, h, Except.ok.injEq] at heq
        subst heq
        exact .absent
    | some x =>
        by_cases hn : x = .null
        · subst hn
          simp only [dependenciesOfJson, h, Except.ok.injEq] at heq
          subst heq
          exact .null
        · rw [dependenciesOfJson_of_some h hn] at heq
          cases x with
          | array items =>
              rcases textsOfJson_cases profile items with ⟨ss', rfl, hok⟩ | ⟨-, herr⟩
              · obtain rfl := Except.ok.inj (hok.symm.trans heq)
                exact .array _
              · exact absurd (herr.symm.trans heq) (by simp)
          | _ => exact absurd heq (by simp [Json.items?])
  · intro hs
    generalize hf : v.get? "dependentProfiles" = field at hs
    cases hs with
    | absent => simp only [dependenciesOfJson, hf]
    | null => simp only [dependenciesOfJson, hf]
    | array ss =>
        simp only [dependenciesOfJson, hf, Json.items?]
        exact textsOfJson_map ss

theorem dependenciesOfJson_eq_error_iff {text : String} :
    (dependenciesOfJson profile v).mapError FormatError.message = .error text
      ↔ DependencyFault profile (v.get? "dependentProfiles") text := by
  constructor
  · intro heq
    cases h : v.get? "dependentProfiles" with
    | none => exact absurd heq (by simp [dependenciesOfJson, h, Except.mapError])
    | some x =>
        by_cases hn : x = .null
        · subst hn
          exact absurd heq (by simp [dependenciesOfJson, h, Except.mapError])
        · rw [dependenciesOfJson_of_some h hn] at heq
          cases x with
          | array items =>
              simp only [Json.items?] at heq
              rcases textsOfJson_cases profile items
                with ⟨ss, -, hok⟩ | ⟨⟨item, hitem, hnone⟩, herr⟩
              · rw [hok] at heq
                exact absurd heq (by simp [Except.mapError])
              · rw [herr] at heq
                obtain rfl := Except.error.inj heq
                exact .notAText hitem hnone
          | _ =>
              simp only [Json.items?] at heq
              obtain rfl := Except.error.inj heq
              exact .notAnArray hn rfl
  · intro hf
    generalize hfield : v.get? "dependentProfiles" = field at hf
    cases hf with
    | notAnArray hn hi =>
        rw [dependenciesOfJson_of_some hfield hn]
        simp only [hi]
        rfl
    | @notAText items item hitem hnone =>
        simp only [dependenciesOfJson, hfield, Json.items?]
        rcases textsOfJson_cases profile items with ⟨ss, rfl, -⟩ | ⟨-, herr⟩
        · obtain ⟨s, -, rfl⟩ := List.mem_map.mp hitem
          exact absurd hnone (by simp [Json.text?])
        · rw [herr]
          rfl

/-! ## Entries -/

/-- An entry states a requirement if its three parts do. -/
theorem ofJson_eq_ok_iff {r : Requirement} : ofJson v = .ok r ↔ StatesRequirement v r := by
  unfold ofJson
  cases ho : v.isObject with
  | false =>
      simp only [Bool.false_eq_true, if_false, reduceCtorEq, false_iff]
      intro h
      exact absurd (h.names.object.symm.trans ho) (by simp)
  | true =>
      simp only [if_true]
      constructor
      · intro heq
        cases hp : profileOfJson v with
        | error e => simp [hp, bind, Except.bind] at heq
        | ok profile =>
            cases hm : minimumOfJson profile v with
            | error e => simp [hp, hm, bind, Except.bind] at heq
            | ok minimum =>
                cases hd : dependenciesOfJson profile v with
                | error e => simp [hp, hm, hd, bind, Except.bind] at heq
                | ok dependencies =>
                    simp only [hp, hm, hd, bind, Except.bind, pure, Except.pure,
                      Except.ok.injEq] at heq
                    subst heq
                    exact ⟨(profileOfJson_eq_ok_iff ho).mp hp, minimumOfJson_eq_ok_iff.mp hm,
                      dependenciesOfJson_eq_ok_iff.mp hd⟩
      · rintro ⟨hp, hm, hd⟩
        simp only [(profileOfJson_eq_ok_iff ho).mpr hp, minimumOfJson_eq_ok_iff.mpr hm,
          dependenciesOfJson_eq_ok_iff.mpr hd, bind, Except.bind, pure, Except.pure]

/-- An entry that states nothing is refused for its first fault. -/
theorem ofJson_eq_error_iff {text : String} :
    (ofJson v).mapError FormatError.message = .error text ↔ EntryFault v text := by
  constructor
  · intro heq
    cases ho : v.isObject with
    | false =>
        simp only [ofJson, ho, Bool.false_eq_true, if_false] at heq
        obtain rfl := Except.error.inj heq
        exact .notAnObject ho
    | true =>
        simp only [ofJson, ho, if_true] at heq
        cases hp : profileOfJson v with
        | error e =>
            obtain rfl := error_of_profileOfJson hp
            simp only [hp, bind, Except.bind] at heq
            obtain rfl := Except.error.inj heq
            refine .noProfile ho fun profile hnames => ?_
            exact absurd (hp.symm.trans ((profileOfJson_eq_ok_iff ho).mpr hnames)) (by simp)
        | ok profile =>
            have hnames := (profileOfJson_eq_ok_iff ho).mp hp
            cases hm : minimumOfJson profile v with
            | error e =>
                simp only [hp, hm, bind, Except.bind] at heq
                obtain rfl := Except.error.inj heq
                exact .minimum hnames (minimumOfJson_eq_error_iff.mp (by rw [hm]; rfl))
            | ok minimum =>
                cases hd : dependenciesOfJson profile v with
                | error e =>
                    simp only [hp, hm, hd, bind, Except.bind] at heq
                    obtain rfl := Except.error.inj heq
                    exact .dependencies hnames (minimumOfJson_eq_ok_iff.mp hm)
                      (dependenciesOfJson_eq_error_iff.mp (by rw [hd]; rfl))
                | ok dependencies =>
                    simp [hp, hm, hd, bind, Except.bind, pure, Except.pure, Except.mapError] at heq
  · intro hf
    rw [mapError_eq_error_iff]
    cases hf with
    | notAnObject ho => exact ⟨.entryNotAnObject, by simp [ofJson, ho], rfl⟩
    | noProfile ho hnone =>
        refine ⟨.noProfile, ?_, rfl⟩
        cases hp : profileOfJson v with
        | ok profile => exact absurd ((profileOfJson_eq_ok_iff ho).mp hp) (hnone profile)
        | error e =>
            obtain rfl := error_of_profileOfJson hp
            simp [ofJson, ho, hp, bind, Except.bind]
    | minimum hp hm =>
        obtain ⟨e, he, rfl⟩ := mapError_eq_error_iff.mp (minimumOfJson_eq_error_iff.mpr hm)
        exact ⟨e, by simp [ofJson, hp.object, (profileOfJson_eq_ok_iff hp.object).mpr hp, he,
          bind, Except.bind], rfl⟩
    | dependencies hp hm hd =>
        obtain ⟨e, he, rfl⟩ := mapError_eq_error_iff.mp (dependenciesOfJson_eq_error_iff.mpr hd)
        exact ⟨e, by simp [ofJson, hp.object, (profileOfJson_eq_ok_iff hp.object).mpr hp,
          minimumOfJson_eq_ok_iff.mpr hm, he, bind, Except.bind], rfl⟩

end Requirement

/-- The profiles of what a value states are distinct. -/
theorem States.nodup {v : Json} {rs : List Requirement} (h : States v rs) :
    (profilesOf rs).Nodup := by
  cases h with
  | absent _ _ => exact List.nodup_nil
  | null _ => exact List.nodup_nil
  | list _ _ hd => exact hd

namespace Document

/-! ## Lists of entries -/

/-- What is read of the first entry decides whether and how the others are read. -/
theorem readEntries_cons {d : Document} {v : Json} {rest : List Json} {r : Requirement}
    (hr : StatesRequirement v r) : readEntries d (v :: rest) =
      if r.profile ∈ profilesOf d.requirements then .error (.duplicateProfile r.profile)
      else readEntries (d.insert r) rest := by
  simp only [readEntries, Requirement.ofJson_eq_ok_iff.mpr hr, contains_eq_true_iff]

/-- **Entries are read one after the other** into the document, which grows at its end. -/
theorem readEntries_eq_ok_iff {entries : List Json} {d d' : Document} :
    readEntries d entries = .ok d' ↔ ∃ rs, List.Forall₂ StatesRequirement entries rs ∧
      d'.requirements = d.requirements ++ rs := by
  induction entries generalizing d with
  | nil =>
      simp only [readEntries, Except.ok.injEq, List.forall₂_nil_left_iff, exists_eq_left,
        List.append_nil]
      exact ⟨fun h => by rw [h], fun h => (eq_of_requirements h).symm⟩
  | cons v rest ih =>
      constructor
      · intro heq
        cases hv : Requirement.ofJson v with
        | error e => simp [readEntries, hv] at heq
        | ok r =>
            have hr := Requirement.ofJson_eq_ok_iff.mp hv
            rw [readEntries_cons hr] at heq
            split at heq
            · exact absurd heq (by simp)
            · rename_i hnew
              obtain ⟨rs, hs, hd⟩ := ih.mp heq
              refine ⟨r :: rs, .cons hr hs, ?_⟩
              rw [hd, requirements_insert hnew, List.append_assoc]
              rfl
      · rintro ⟨rs, hs, hd⟩
        obtain ⟨r, rs, hr, hrest, rfl⟩ := List.forall₂_cons_left_iff.mp hs
        have hdistinct := d'.distinct
        rw [hd, profilesOf, List.map_append, List.map_cons] at hdistinct
        have hnew : r.profile ∉ profilesOf d.requirements := fun hmem =>
          (List.nodup_append.mp hdistinct).2.2 _ hmem _ List.mem_cons_self rfl
        rw [readEntries_cons hr, if_neg hnew]
        refine ih.mpr ⟨rs, hrest, ?_⟩
        rw [requirements_insert hnew, hd, List.append_assoc]
        rfl

/-- The first entry at fault stops the reading. -/
theorem readEntries_eq_error_iff {entries : List Json} {d : Document} {text : String} :
    (readEntries d entries).mapError FormatError.message = .error text ↔
      ∃ before entry after rs, entries = before ++ entry :: after ∧
        List.Forall₂ StatesRequirement before rs ∧
        (profilesOf (d.requirements ++ rs)).Nodup ∧ NextFault (d.requirements ++ rs) entry text := by
  induction entries generalizing d with
  | nil => simp [readEntries, Except.mapError]
  | cons v rest ih =>
      constructor
      · intro heq
        cases hv : Requirement.ofJson v with
        | error e =>
            have hfault := Requirement.ofJson_eq_error_iff.mp (congrArg _ hv)
            simp only [readEntries, hv] at heq
            obtain rfl := Except.error.inj heq
            exact ⟨[], v, rest, [], rfl, .nil, by simpa using d.distinct, .entry hfault⟩
        | ok r =>
            have hr := Requirement.ofJson_eq_ok_iff.mp hv
            rw [readEntries_cons hr] at heq
            split at heq
            · rename_i hmem
              obtain rfl := Except.error.inj heq
              exact ⟨[], v, rest, [], rfl, .nil, by simpa using d.distinct,
                .duplicate hr (by simpa using hmem)⟩
            · rename_i hnew
              obtain ⟨before, entry, after, rs, rfl, hs, hd, hf⟩ := ih.mp heq
              rw [requirements_insert hnew, List.append_assoc] at hd hf
              exact ⟨v :: before, entry, after, r :: rs, rfl, .cons hr hs, hd, hf⟩
      · rintro ⟨before, entry, after, rs, heq, hs, hd, hf⟩
        cases before with
        | nil =>
            obtain ⟨rfl, rfl⟩ := List.cons.inj heq
            obtain rfl := List.forall₂_nil_left_iff.mp hs
            rw [List.append_nil] at hf
            cases hf with
            | entry hf =>
                obtain ⟨e, he, rfl⟩ := mapError_eq_error_iff.mp
                  (Requirement.ofJson_eq_error_iff.mpr hf)
                simp only [readEntries, he]
                rfl
            | duplicate hr hmem =>
                rw [readEntries_cons hr, if_pos hmem]
                rfl
        | cons v' before =>
            obtain ⟨rfl, rfl⟩ := List.cons.inj heq
            obtain ⟨r, rs, hr, hrest, rfl⟩ := List.forall₂_cons_left_iff.mp hs
            have hnew : r.profile ∉ profilesOf d.requirements := by
              intro hmem
              rw [profilesOf, List.map_append, List.map_cons] at hd
              exact (List.nodup_append.mp hd).2.2 _ hmem _ List.mem_cons_self rfl
            rw [readEntries_cons hr, if_neg hnew]
            refine ih.mpr ⟨before, entry, after, rs, rfl, hrest, ?_, ?_⟩
            · rw [requirements_insert hnew, List.append_assoc]
              exact hd
            · rw [requirements_insert hnew, List.append_assoc]
              exact hf

/-! ## Documents -/

theorem ofJson_of_some {v list : Json} (ho : v.isObject = true)
    (h : v.get? "profileRequirements" = some list) (hn : list ≠ .null) : ofJson v =
      match list.items? with
      | none => .error .listNotAnArray
      | some entries => readEntries empty entries := by
  rw [ofJson, if_pos ho, h]
  cases list with
  | null => exact absurd rfl hn
  | _ => rfl

theorem isObject_of_get? {v x : Json} {key : String} (h : v.get? key = some x) :
    v.isObject = true := by
  cases v with
  | object fields => rfl
  | _ => exact absurd h (by simp [Json.get?])

/-- **The document that is read is the one that the value states.** -/
theorem ofJson_eq_ok_iff {v : Json} {d : Document} :
    ofJson v = .ok d ↔ States v d.requirements := by
  constructor
  · intro heq
    cases ho : v.isObject with
    | false => exact absurd heq (by simp [ofJson, ho])
    | true =>
        cases h : v.get? "profileRequirements" with
        | none =>
            simp only [ofJson, ho, if_true, h, Except.ok.injEq] at heq
            subst heq
            exact .absent ho h
        | some list =>
            by_cases hn : list = .null
            · subst hn
              simp only [ofJson, ho, if_true, h, Except.ok.injEq] at heq
              subst heq
              exact .null h
            · rw [ofJson_of_some ho h hn] at heq
              cases list with
              | array entries =>
                  obtain ⟨rs, hs, hd⟩ := readEntries_eq_ok_iff.mp heq
                  obtain rfl : d.requirements = rs := hd
                  exact .list h hs d.distinct
              | _ => exact absurd heq (by simp [Json.items?])
  · intro hs
    generalize hrs : d.requirements = rs at hs
    cases hs with
    | absent ho h =>
        simp only [ofJson, ho, if_true, h, Except.ok.injEq]
        exact (eq_of_requirements hrs).symm
    | null h =>
        simp only [ofJson, isObject_of_get? h, if_true, h, Except.ok.injEq]
        exact (eq_of_requirements hrs).symm
    | list h hs hd =>
        rw [ofJson_of_some (isObject_of_get? h) h (by simp)]
        exact readEntries_eq_ok_iff.mpr ⟨rs, hs, hrs⟩

/-- **A value that states no document is refused for its first fault.** -/
theorem ofJson_eq_error_iff {v : Json} {text : String} :
    (ofJson v).mapError FormatError.message = .error text ↔ FirstFault v text := by
  constructor
  · intro heq
    cases ho : v.isObject with
    | false =>
        simp only [ofJson, ho, Bool.false_eq_true, if_false] at heq
        obtain rfl := Except.error.inj heq
        exact .notAnObject ho
    | true =>
        cases h : v.get? "profileRequirements" with
        | none => exact absurd heq (by simp [ofJson, ho, h, Except.mapError])
        | some list =>
            by_cases hn : list = .null
            · subst hn
              exact absurd heq (by simp [ofJson, ho, h, Except.mapError])
            · rw [ofJson_of_some ho h hn] at heq
              cases list with
              | array entries =>
                  obtain ⟨before, entry, after, rs, rfl, hs, hd, hf⟩ :=
                    readEntries_eq_error_iff.mp heq
                  exact .entry h hs hd hf
              | _ =>
                  simp only [Json.items?] at heq
                  obtain rfl := Except.error.inj heq
                  exact .notAnArray h hn rfl
  · intro hf
    cases hf with
    | notAnObject ho => simp only [ofJson, ho, Bool.false_eq_true, if_false]; rfl
    | notAnArray h hn ha =>
        rw [ofJson_of_some (isObject_of_get? h) h hn, ha]
        rfl
    | entry h hs hd hf =>
        rw [ofJson_of_some (isObject_of_get? h) h (by simp)]
        exact readEntries_eq_error_iff.mpr ⟨_, _, _, _, rfl, hs, hd, hf⟩

end Document
end FleetScaler
