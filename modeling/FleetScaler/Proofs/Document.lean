import FleetScaler.Requirements.Basic

/-!
# Looking up a document that grows

What is found in a document is what was put into it. A dependency check looks profiles up in its own
copy of the document and enters those that it does not find. Such an entry has no minimum, so the
copy asks for exactly what the document asks for.
-/

namespace FleetScaler

/-! ## Putting a requirement -/

theorem findRequirement_putRequirement_self (r : Requirement) (rs : List Requirement) :
    findRequirement r.profile (putRequirement r rs) = some r := by
  induction rs with
  | nil => simp [putRequirement, findRequirement]
  | cons q rest ih =>
      by_cases h : q.profile = r.profile
      · simp [putRequirement, findRequirement, h]
      · simp [putRequirement, findRequirement, h, ih]

theorem findRequirement_putRequirement_ne {r : Requirement} {profile : String}
    (hne : r.profile ≠ profile) (rs : List Requirement) :
    findRequirement profile (putRequirement r rs) = findRequirement profile rs := by
  induction rs with
  | nil => simp [putRequirement, findRequirement, hne]
  | cons q rest ih =>
      by_cases h : q.profile = r.profile
      · simp [putRequirement, findRequirement, h, hne]
      · simp [putRequirement, findRequirement, h, ih]

/-! ## Finding a requirement -/

theorem findRequirement_of_mem {rs : List Requirement} (hd : (profilesOf rs).Nodup)
    {r : Requirement} (hr : r ∈ rs) : findRequirement r.profile rs = some r := by
  induction rs with
  | nil => simp at hr
  | cons q rest ih =>
      obtain ⟨hq, hrest⟩ := List.nodup_cons.mp hd
      rcases List.mem_cons.mp hr with rfl | hr'
      · simp [findRequirement]
      · have hne : q.profile ≠ r.profile := by
          intro he
          exact hq (List.mem_map.mpr ⟨r, hr', he.symm⟩)
        simp [findRequirement, hne, ih hrest hr']

theorem mem_of_findRequirement {profile : String} {rs : List Requirement} {r : Requirement}
    (h : findRequirement profile rs = some r) : r ∈ rs := by
  induction rs with
  | nil => simp [findRequirement] at h
  | cons q rest ih =>
      by_cases hq : q.profile = profile
      · simp only [findRequirement, hq, if_true, Option.some.injEq] at h
        simp [h]
      · simp only [findRequirement, hq, if_false] at h
        exact List.mem_cons_of_mem _ (ih h)

namespace Document

theorem eq_of_requirements {d d' : Document} (h : d'.requirements = d.requirements) : d' = d := by
  cases d
  cases d'
  simp only at h
  subst h
  rfl

theorem contains_eq_true_iff {d : Document} {profile : String} :
    d.contains profile = true ↔ profile ∈ profilesOf d.requirements := by
  rw [contains, find?, Option.isSome_iff_ne_none, ne_eq, findRequirement_eq_none_iff,
    Decidable.not_not]

/-! ## Inserting -/

theorem putRequirement_of_not_mem {r : Requirement} {rs : List Requirement}
    (h : r.profile ∉ profilesOf rs) : putRequirement r rs = rs ++ [r] := by
  induction rs with
  | nil => rfl
  | cons q rest ih =>
      simp only [profilesOf, List.map_cons, List.mem_cons, not_or] at h
      rw [putRequirement, if_neg (Ne.symm h.1), ih h.2, List.cons_append]

theorem requirements_insert {d : Document} {r : Requirement}
    (h : r.profile ∉ profilesOf d.requirements) :
    (d.insert r).requirements = d.requirements ++ [r] := putRequirement_of_not_mem h

theorem find?_insert (d : Document) (r : Requirement) (profile : String) :
    (d.insert r).find? profile = if r.profile = profile then some r else d.find? profile := by
  by_cases h : r.profile = profile
  · subst h
    simpa [find?, insert] using findRequirement_putRequirement_self r d.requirements
  · simpa [find?, insert, h] using findRequirement_putRequirement_ne h d.requirements

/-! ## Minimums -/

/-- The minimum that the document asks for, if it mentions the profile and asks for one. -/
def minimum? (d : Document) (profile : String) : Option Int :=
  (d.find? profile).bind (·.minimum)

/-- The minimum that a document asks for is the one of a requirement that it lists. -/
theorem minimum?_eq_some_iff {d : Document} {profile : String} {minimum : Int} :
    d.minimum? profile = some minimum
      ↔ ∃ r ∈ d.requirements, r.profile = profile ∧ r.minimum = some minimum := by
  unfold minimum? find?
  rw [Option.bind_eq_some_iff]
  constructor
  · rintro ⟨r, hfind, hmin⟩
    exact ⟨r, mem_of_findRequirement hfind, profile_of_findRequirement hfind, hmin⟩
  · rintro ⟨r, hr, rfl, hmin⟩
    exact ⟨r, findRequirement_of_mem d.distinct hr, hmin⟩

theorem minimum?_of_mem {d : Document} {r : Requirement} (hr : r ∈ d.requirements) :
    d.minimum? r.profile = r.minimum := by
  rw [minimum?, find?, findRequirement_of_mem d.distinct hr]
  rfl

/-- The order of a document does not matter for its minimums. -/
theorem minimum?_perm {d d' : Document} (h : d'.requirements.Perm d.requirements) :
    d'.minimum? = d.minimum? := by
  funext profile
  refine Option.ext fun minimum => ?_
  rw [minimum?_eq_some_iff, minimum?_eq_some_iff]
  constructor
  · rintro ⟨r, hr, hrest⟩
    exact ⟨r, h.mem_iff.mp hr, hrest⟩
  · rintro ⟨r, hr, hrest⟩
    exact ⟨r, h.mem_iff.mpr hr, hrest⟩

/-- The requirement that a look-up hands out has the minimum of the document. -/
theorem minimum_getOrCreate (d : Document) (profile : String) :
    (d.getOrCreate profile).1.minimum = d.minimum? profile := by
  cases h : d.find? profile with
  | some r => simp [getOrCreate, minimum?, h]
  | none => simp [getOrCreate, minimum?, h]

/-- **Looking up asks for nothing**: whatever the look-up entered, every profile has the minimum
that it had. -/
theorem minimum?_getOrCreate (d : Document) (profile other : String) :
    (d.getOrCreate profile).2.minimum? other = d.minimum? other := by
  cases h : d.find? profile with
  | some r => simp [getOrCreate, h]
  | none =>
      by_cases he : profile = other
      · subst he
        simp [getOrCreate, minimum?, find?_insert, h]
      · simp [getOrCreate, minimum?, find?_insert, h, he]

/-! ## Counts -/

/-- Every minimum that the document asks for is a 32-bit number and not negative. -/
def Admissible (d : Document) : Prop :=
  ∀ profile minimum, d.minimum? profile = some minimum → 0 ≤ minimum ∧ minimum < 2147483648

theorem admissible_iff {d : Document} : d.Admissible ↔
    ∀ r ∈ d.requirements, ∀ minimum ∈ r.minimum, 0 ≤ minimum ∧ minimum < 2147483648 := by
  constructor
  · intro h r hr minimum hm
    exact h r.profile minimum (minimum?_eq_some_iff.mpr ⟨r, hr, rfl, hm⟩)
  · intro h profile minimum hm
    obtain ⟨r, hr, -, hmin⟩ := minimum?_eq_some_iff.mp hm
    exact h r hr minimum hmin

instance (d : Document) : Decidable d.Admissible := decidable_of_iff' _ admissible_iff

theorem Admissible.perm {d d' : Document} (hd : d.Admissible)
    (h : d'.requirements.Perm d.requirements) : d'.Admissible := by
  intro profile minimum hm
  rw [minimum?_perm h] at hm
  exact hd profile minimum hm

end Document

end FleetScaler
