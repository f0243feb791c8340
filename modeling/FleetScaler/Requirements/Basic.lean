/-!
# Requirements

What the operator asks for: for each profile the least number of instances, and the profiles that
have to be up before it may grow. A profile without a minimum is left alone; that is not the same
as a minimum of zero.

A document lists requirements in the order of their first mention, one for each profile. That the
profiles are distinct is part of the type.
-/

namespace FleetScaler

/-- What is asked for one profile. -/
structure Requirement where
  profile : String
  minimum : Option Int := none
  dependencies : List String := []
  deriving DecidableEq, Repr, Inhabited

namespace Requirement

/-- The profile is to be scaled at all. -/
def isManaged (r : Requirement) : Bool := r.minimum.isSome

end Requirement

/-! ## Lists of requirements -/

/-- The profiles of a list of requirements. -/
abbrev profilesOf (rs : List Requirement) : List String := rs.map (·.profile)

/-- The requirement of a profile. -/
def findRequirement (profile : String) : List Requirement → Option Requirement
  | [] => none
  | r :: rest => if r.profile = profile then some r else findRequirement profile rest

/-- Puts a requirement in the place of the one with the same profile, or else at the end. -/
def putRequirement (r : Requirement) : List Requirement → List Requirement
  | [] => [r]
  | q :: rest => if q.profile = r.profile then r :: rest else q :: putRequirement r rest

/-- Drops the requirement of a profile. -/
def dropRequirement (profile : String) : List Requirement → List Requirement
  | [] => []
  | q :: rest => if q.profile = profile then rest else q :: dropRequirement profile rest

/-- Putting a requirement keeps the profiles in their places and adds a new one at the end. -/
theorem profilesOf_putRequirement (r : Requirement) (rs : List Requirement) :
    profilesOf (putRequirement r rs) =
      if r.profile ∈ profilesOf rs then profilesOf rs else profilesOf rs ++ [r.profile] := by
  induction rs with
  | nil => simp [putRequirement]
  | cons q rest ih =>
    by_cases h : q.profile = r.profile
    · simp [putRequirement, h]
    · have h' : ¬ r.profile = q.profile := fun e => h e.symm
      simp only [putRequirement, h, if_false, List.map_cons, ih, List.mem_cons, h', false_or]
      split <;> simp

/-- Dropping a requirement drops its profile and moves no other. -/
theorem profilesOf_dropRequirement (profile : String) (rs : List Requirement) :
    profilesOf (dropRequirement profile rs) = (profilesOf rs).erase profile := by
  induction rs with
  | nil => rfl
  | cons q rest ih =>
    by_cases h : q.profile = profile
    · simp [dropRequirement, h]
    · simp [dropRequirement, h, ih]

/-- A requirement that is found bears the profile that was looked for. -/
theorem profile_of_findRequirement {profile : String} {rs : List Requirement} {r : Requirement}
    (h : findRequirement profile rs = some r) : r.profile = profile := by
  induction rs with
  | nil => simp [findRequirement] at h
  | cons q rest ih =>
    by_cases hq : q.profile = profile
    · simp only [findRequirement, hq, if_true, Option.some.injEq] at h
      exact h ▸ hq
    · simp only [findRequirement, hq, if_false] at h
      exact ih h

/-- Nothing is found exactly for the profiles that are not there. -/
theorem findRequirement_eq_none_iff {profile : String} {rs : List Requirement} :
    findRequirement profile rs = none ↔ profile ∉ profilesOf rs := by
  induction rs with
  | nil => simp [findRequirement]
  | cons q rest ih =>
    by_cases h : q.profile = profile
    · simp [findRequirement, h]
    · have h' : ¬ profile = q.profile := fun e => h e.symm
      simp [findRequirement, h, h', ih]

/-! ## Documents -/

/-- The requirements of an operator, one for each profile, in the order of first mention. -/
structure Document where
  requirements : List Requirement
  /-- No profile occurs twice. -/
  distinct : (profilesOf requirements).Nodup
  deriving DecidableEq, Repr

namespace Document

/-- The document that asks for nothing. -/
def empty : Document := ⟨[], List.nodup_nil⟩

instance : Inhabited Document := ⟨empty⟩

/-- The profiles that the document mentions, in order. -/
def profiles (d : Document) : List String := profilesOf d.requirements

/-- The number of requirements. -/
def size (d : Document) : Nat := d.requirements.length

/-- The document asks for nothing. -/
def isEmpty (d : Document) : Bool := d.requirements.isEmpty

/-- The requirement of a profile. -/
def find? (d : Document) (profile : String) : Option Requirement :=
  findRequirement profile d.requirements

/-- The document mentions the profile. -/
def contains (d : Document) (profile : String) : Bool := (d.find? profile).isSome

/-- Puts a requirement in the place of the one with the same profile, or else at the end. -/
def insert (d : Document) (r : Requirement) : Document where
  requirements := putRequirement r d.requirements
  distinct := by
    rw [profilesOf_putRequirement]
    split
    · exact d.distinct
    · rename_i h
      rw [List.nodup_append]
      refine ⟨d.distinct, by simp, ?_⟩
      intro a ha b hb
      simp only [List.mem_singleton] at hb
      exact fun e => h (by rw [← hb, ← e]; exact ha)

/-- Drops the requirement of a profile. -/
def erase (d : Document) (profile : String) : Document where
  requirements := dropRequirement profile d.requirements
  distinct := by
    rw [profilesOf_dropRequirement]
    exact d.distinct.erase profile

/-- Drops the requirement of a profile; false if there is none. -/
def remove (d : Document) (profile : String) : Bool × Document :=
  (d.contains profile, d.erase profile)

/-- The document of a list of requirements; a later one replaces an earlier one of its profile. -/
def ofList (rs : List Requirement) : Document := rs.foldl insert empty

/-- The requirement of a profile. Where there is none, an empty one is put at the end first. -/
def getOrCreate (d : Document) (profile : String) : Requirement × Document :=
  match d.find? profile with
  | some r => (r, d)
  | none => ({ profile }, d.insert { profile })

/-- Sets the minimum of a profile that the document mentions. -/
def setMinimum (d : Document) (profile : String) (minimum : Option Int) : Document :=
  match d.find? profile with
  | some r => d.insert { r with minimum }
  | none => d

end Document

end FleetScaler
