import FleetScaler.Proofs.Document
import Mathlib.Data.List.DropRight

/-!
# A document as a map that keeps the order of entry

A document is a list that is searched from the front. To whoever edits it, it is a map whose keys
stand in the order in which they came. The history of the edits tells all about such a map: a
profile stays from the edit that entered it until it is removed, the longer it has stayed the
further it stands in front, and its requirement is what the edits of its stay have written, one
over the other. What carries this is that an edit lengthens the stay of every profile that is there
and begins the stay of one that is not, which is why the new one belongs at the end.
-/

namespace FleetScaler.Document

/-! ## Edits and their history -/

/-- An edit of a document. -/
inductive Edit where
  | put (r : Requirement)
  | remove (profile : String)
  /-- The requirement of a profile is fetched, and its minimum is then assigned, if anything is. -/
  | fetch (profile : String) (assigned : Option (Option Int))
  deriving DecidableEq

namespace Edit

/-- The profile that the edit is about. -/
def profile : Edit → String
  | put r => r.profile
  | remove profile => profile
  | fetch profile _ => profile

/-- What the edit makes of the requirement that its profile had, if it had one. -/
def write (before : Option Requirement) : Edit → Option Requirement
  | put r => some r
  | remove _ => none
  | fetch profile none => some (before.getD { profile })
  | fetch profile (some minimum) => some { before.getD { profile } with minimum }

end Edit

/-- The document after an edit. -/
def edit (d : Document) : Edit → Document
  | .put r => d.insert r
  | .remove profile => (d.remove profile).2
  | .fetch profile none => (d.getOrCreate profile).2
  | .fetch profile (some minimum) => (d.getOrCreate profile).2.setMinimum profile minimum

/-- The document after some edits, one after the other. -/
def editAll (d : Document) (edits : List Edit) : Document := edits.foldl edit d

/-- The edits since the one that entered the profile; none if it has not been entered since it was
last removed. -/
def stay (profile : String) (history : List Edit) : List Edit :=
  (history.rtakeWhile fun e => e ≠ .remove profile).dropWhile fun e => e.profile ≠ profile

/-- What the edits of a profile have written, one over the other. -/
def written (profile : String) (edits : List Edit) : Option Requirement :=
  (edits.filter fun e => e.profile = profile).foldl Edit.write none

/-- The document is the map that the history tells of. -/
structure Records (history : List Edit) (d : Document) : Prop where
  distinct : d.profiles.Nodup
  /-- The profiles are those that have been entered and not been removed since. -/
  present : ∀ p, p ∈ d.profiles ↔ stay p history ≠ []
  /-- A profile stands in front of those that were entered later. -/
  order : d.profiles.Pairwise fun p q => (stay q history).length < (stay p history).length
  /-- The requirement of a profile is what was written last. -/
  find : ∀ p, d.find? p = written p (stay p history)

/-! ## What a longer history tells -/

variable {history : List Edit} {p q : String} {e : Edit} {d d' : Document}

theorem stay_nil (p : String) : stay p [] = [] := by simp [stay]

theorem stay_removed (p : String) (history : List Edit) :
    stay p (history ++ [.remove p]) = [] := by
  simp [stay]

/-- An edit that does not remove the profile is one more since the profile was last removed. -/
theorem stay_concat (he : e ≠ .remove p) :
    stay p (history ++ [e]) =
      if (stay p history).isEmpty then [e].dropWhile (fun e => e.profile ≠ p)
      else stay p history ++ [e] := by
  have hkeep : (history ++ [e]).rtakeWhile (fun e => e ≠ .remove p)
      = (history.rtakeWhile fun e => e ≠ .remove p) ++ [e] :=
    List.rtakeWhile_concat_pos _ _ _ (by simpa using he)
  rw [stay, hkeep, List.dropWhile_append]
  rfl

/-- The stay of a profile grows with every edit that does not end it. -/
theorem stay_longer (hs : stay p history ≠ []) (he : e ≠ .remove p) :
    stay p (history ++ [e]) = stay p history ++ [e] := by
  rw [stay_concat he, if_neg (by simpa using hs)]

/-- The edit of a profile that is not there begins its stay. -/
theorem stay_begun (hs : stay p history = []) (hp : e.profile = p) (he : e ≠ .remove p) :
    stay p (history ++ [e]) = [e] := by
  simp [stay_concat he, hs, hp]

theorem stay_absent (hs : stay p history = []) (hp : e.profile ≠ p) :
    stay p (history ++ [e]) = [] := by
  have he : e ≠ .remove p := by
    rintro rfl
    exact hp rfl
  simp [stay_concat he, hs, hp]

theorem written_concat (p : String) (edits : List Edit) (e : Edit) :
    written p (edits ++ [e]) =
      if e.profile = p then Edit.write (written p edits) e else written p edits := by
  by_cases hp : e.profile = p <;> simp [written, hp]

/-! ## What an edit does to the profiles -/

theorem profiles_insert (d : Document) (r : Requirement) :
    (d.insert r).profiles =
      if r.profile ∈ d.profiles then d.profiles else d.profiles ++ [r.profile] :=
  profilesOf_putRequirement r d.requirements

theorem profiles_erase (d : Document) (p : String) : (d.erase p).profiles = d.profiles.erase p :=
  profilesOf_dropRequirement p d.requirements

theorem mem_profiles_of_find? {r : Requirement} (h : d.find? p = some r) :
    r.profile = p ∧ p ∈ d.profiles := by
  have hp : r.profile = p := profile_of_findRequirement h
  exact ⟨hp, hp ▸ List.mem_map_of_mem (mem_of_findRequirement h)⟩

theorem profiles_getOrCreate (d : Document) (p : String) :
    (d.getOrCreate p).2.profiles = if p ∈ d.profiles then d.profiles else d.profiles ++ [p] := by
  cases h : d.find? p with
  | some r => simp [getOrCreate, h, (mem_profiles_of_find? h).2]
  | none => simp [getOrCreate, h, profiles_insert]

theorem profiles_setMinimum (d : Document) (p : String) (minimum : Option Int) :
    (d.setMinimum p minimum).profiles = d.profiles := by
  cases h : d.find? p with
  | some r =>
      obtain ⟨hp, hmem⟩ := mem_profiles_of_find? h
      simp [setMinimum, h, profiles_insert, hp, hmem]
  | none => simp [setMinimum, h]

/-- An edit that removes nothing leaves every profile in its place and enters its own at the end. -/
theorem profiles_edit (he : e ≠ .remove e.profile) :
    (d.edit e).profiles =
      if e.profile ∈ d.profiles then d.profiles else d.profiles ++ [e.profile] := by
  cases e with
  | put r => exact profiles_insert d r
  | remove profile => exact absurd rfl he
  | fetch profile assigned =>
      cases assigned with
      | none => exact profiles_getOrCreate d profile
      | some minimum => rw [edit, profiles_setMinimum]; exact profiles_getOrCreate d profile

/-! ## What an edit does to the requirements -/

theorem find?_eq_none_iff : d.find? p = none ↔ p ∉ d.profiles := findRequirement_eq_none_iff

theorem findRequirement_dropRequirement_ne (hne : q ≠ p) (rs : List Requirement) :
    findRequirement p (dropRequirement q rs) = findRequirement p rs := by
  induction rs with
  | nil => rfl
  | cons r rest ih =>
      by_cases hq : r.profile = q
      · have hp : r.profile ≠ p := fun h => hne (hq.symm.trans h)
        simp [dropRequirement, findRequirement, hq, hne]
      · simp [dropRequirement, findRequirement, hq, ih]

theorem find?_erase (d : Document) (q p : String) :
    (d.erase q).find? p = if q = p then none else d.find? p := by
  by_cases h : q = p
  · subst h
    rw [if_pos rfl, find?_eq_none_iff, profiles_erase]
    exact d.distinct.not_mem_erase
  · rw [if_neg h]
    exact findRequirement_dropRequirement_ne h d.requirements

theorem getOrCreate_eq (d : Document) (p : String) :
    (d.getOrCreate p).1 = (d.find? p).getD { profile := p } := by
  cases h : d.find? p <;> simp [getOrCreate, h]

/-- The requirement that is handed out is the one that is in the document from then on. -/
theorem find?_getOrCreate (d : Document) (q p : String) :
    (d.getOrCreate q).2.find? p = if q = p then some (d.getOrCreate q).1 else d.find? p := by
  cases h : d.find? q with
  | some r =>
      by_cases hp : q = p
      · simp [getOrCreate, h, ← hp]
      · simp [getOrCreate, h, hp]
  | none => simp [getOrCreate, h, find?_insert]

theorem find?_setMinimum (d : Document) (q p : String) (minimum : Option Int) :
    (d.setMinimum q minimum).find? p =
      if q = p then (d.find? q).map ({ · with minimum }) else d.find? p := by
  cases h : d.find? q with
  | some r => simp [setMinimum, h, find?_insert, (mem_profiles_of_find? h).1]
  | none =>
      by_cases hp : q = p
      · simp [setMinimum, h, ← hp]
      · simp [setMinimum, h, hp]

/-- An edit writes the requirement of its profile and no other. -/
theorem find?_edit (d : Document) (e : Edit) (p : String) :
    (d.edit e).find? p = if e.profile = p then Edit.write (d.find? p) e else d.find? p := by
  cases e with
  | put r => exact find?_insert d r p
  | remove profile => exact find?_erase d profile p
  | fetch profile assigned =>
      by_cases hp : profile = p
      · subst hp
        cases assigned <;>
          simp [edit, Edit.profile, Edit.write, find?_setMinimum, find?_getOrCreate, getOrCreate_eq]
      · cases assigned <;>
          simp [edit, Edit.profile, find?_setMinimum, find?_getOrCreate, hp]

/-! ## What an edit leaves alone -/

theorem filter_putRequirement (r : Requirement) (rs : List Requirement) :
    (putRequirement r rs).filter (fun q => q.profile ≠ r.profile)
      = rs.filter fun q => q.profile ≠ r.profile := by
  induction rs with
  | nil => simp [putRequirement]
  | cons q rest ih =>
      by_cases hq : q.profile = r.profile
      · simp [putRequirement, hq]
      · simp only [putRequirement, hq, if_false, List.filter_cons, ih]

theorem filter_dropRequirement (p : String) (rs : List Requirement) :
    (dropRequirement p rs).filter (fun q => q.profile ≠ p) = rs.filter fun q => q.profile ≠ p := by
  induction rs with
  | nil => rfl
  | cons q rest ih =>
      by_cases hq : q.profile = p
      · simp [dropRequirement, hq]
      · simp only [dropRequirement, hq, if_false, List.filter_cons, ih]

/-- No profile occurs twice, so nothing of a dropped one is left. -/
theorem requirements_erase (d : Document) (p : String) :
    (d.erase p).requirements = d.requirements.filter fun r => r.profile ≠ p := by
  rw [← filter_dropRequirement]
  refine (List.filter_eq_self.mpr ?_).symm
  intro r hr
  have hmem : r.profile ∈ (d.erase p).profiles := List.mem_map_of_mem hr
  rw [profiles_erase] at hmem
  simpa using (d.distinct.mem_erase_iff.mp hmem).1

theorem others_setMinimum (d : Document) (p : String) (minimum : Option Int) :
    (d.setMinimum p minimum).requirements.filter (fun r => r.profile ≠ p)
      = d.requirements.filter fun r => r.profile ≠ p := by
  cases h : d.find? p with
  | some r =>
      obtain ⟨rfl, -⟩ := mem_profiles_of_find? h
      simp only [setMinimum, h]
      exact filter_putRequirement { r with minimum } d.requirements
  | none => simp [setMinimum, h]

theorem others_getOrCreate (d : Document) (p : String) :
    (d.getOrCreate p).2.requirements.filter (fun r => r.profile ≠ p)
      = d.requirements.filter fun r => r.profile ≠ p := by
  cases h : d.find? p with
  | some r => simp [getOrCreate, h]
  | none =>
      simp only [getOrCreate, h]
      exact filter_putRequirement { profile := p } d.requirements

/-- The requirements of the other profiles stay as they are and in their order. -/
theorem others_edit (d : Document) (e : Edit) :
    (d.edit e).requirements.filter (fun r => r.profile ≠ e.profile)
      = d.requirements.filter fun r => r.profile ≠ e.profile := by
  cases e with
  | put r => exact filter_putRequirement r d.requirements
  | remove profile => exact filter_dropRequirement profile d.requirements
  | fetch profile assigned =>
      cases assigned with
      | none => exact others_getOrCreate d profile
      | some minimum =>
          exact (others_setMinimum _ profile minimum).trans (others_getOrCreate d profile)

/-! ## Equal documents -/

/-- A document is told by its profiles and what is found for them. -/
theorem requirements_eq_filterMap (d : Document) :
    d.requirements = d.profiles.filterMap d.find? := by
  have hfind : ∀ r ∈ d.requirements, (d.find? ∘ Requirement.profile) r = some r :=
    fun _ hr => findRequirement_of_mem d.distinct hr
  rw [profiles, List.filterMap_map, List.filterMap_congr hfind, List.filterMap_some]

theorem eq_iff : d = d' ↔ d.profiles = d'.profiles ∧ ∀ p ∈ d.profiles, d.find? p = d'.find? p := by
  constructor
  · rintro rfl
    exact ⟨rfl, fun _ _ => rfl⟩
  · intro h
    obtain ⟨hprofiles, hfind⟩ := h
    refine eq_of_requirements ?_
    rw [requirements_eq_filterMap d, requirements_eq_filterMap d', ← hprofiles]
    exact List.filterMap_congr hfind

/-! ## The document follows the history -/

theorem records_empty : Records [] empty where
  distinct := List.nodup_nil
  present := by intro p; simp [profiles, empty, stay_nil]
  order := List.Pairwise.nil
  find := by intro p; simp [stay_nil, written, find?, empty, findRequirement]

/-- What was written last is found after one more edit. -/
theorem Records.find_edit (h : Records history d) (e : Edit) (p : String) :
    (d.edit e).find? p = written p (stay p (history ++ [e])) := by
  rw [find?_edit, h.find]
  by_cases hp : e.profile = p
  · rw [if_pos hp]
    by_cases he : e = .remove p
    · subst he
      rw [stay_removed]
      rfl
    · by_cases hs : stay p history = []
      · rw [stay_begun hs hp he, hs, ← List.nil_append [e], written_concat, if_pos hp]
      · rw [stay_longer hs he, written_concat, if_pos hp]
  · rw [if_neg hp]
    by_cases hs : stay p history = []
    · rw [stay_absent hs hp, hs]
    · have he : e ≠ .remove p := fun h => hp (h ▸ rfl)
      rw [stay_longer hs he, written_concat, if_neg hp]

/-- Whoever is in front stays in front: an edit adds as much to the one stay as to the other. -/
theorem Records.order_concat (h : Records history d) {ps : List String}
    (hsub : ps.Sublist d.profiles) (he : ∀ p ∈ ps, e ≠ .remove p) :
    ps.Pairwise fun p q =>
      (stay q (history ++ [e])).length < (stay p (history ++ [e])).length := by
  have hlonger : ∀ p ∈ ps, (stay p (history ++ [e])).length = (stay p history).length + 1 := by
    intro p hp
    have hs := (h.present p).mp (hsub.subset hp)
    rw [stay_longer hs (he p hp), List.length_append, List.length_singleton]
  refine (h.order.sublist hsub).imp_of_mem ?_
  intro p q hp hq hlt
  rw [hlonger p hp, hlonger q hq]
  omega

/-- Removing a profile ends its stay and no other. -/
theorem Records.erase (h : Records history d) (q : String) :
    Records (history ++ [.remove q]) (d.edit (.remove q)) := by
  have hprofiles : (d.edit (.remove q)).profiles = d.profiles.erase q := profiles_erase d q
  refine ⟨(d.edit (.remove q)).distinct, ?_, ?_, h.find_edit _⟩
  · intro p
    rw [hprofiles, h.distinct.mem_erase_iff, h.present]
    by_cases hp : p = q
    · subst hp
      simp [stay_removed]
    · have hne : (Edit.remove q).profile ≠ p := fun h => hp h.symm
      have he : Edit.remove q ≠ .remove p := fun h => hp (Edit.remove.inj h).symm
      by_cases hs : stay p history = []
      · simp [stay_absent hs hne, hs]
      · simp [stay_longer hs he, hs, hp]
  · rw [hprofiles]
    refine h.order_concat List.erase_sublist ?_
    intro p hp he
    obtain rfl := Edit.remove.inj he
    exact h.distinct.not_mem_erase hp

/-- Any other edit begins the stay of its profile, if it is not there, behind all that are. -/
theorem Records.enter (h : Records history d) (he : ∀ p, e ≠ .remove p) :
    Records (history ++ [e]) (d.edit e) := by
  have hprofiles := profiles_edit (d := d) (he e.profile)
  have hold := h.order_concat (List.Sublist.refl _) fun p _ => he p
  refine ⟨(d.edit e).distinct, ?_, ?_, h.find_edit e⟩
  · intro p
    have hmem : p ∈ (d.edit e).profiles ↔ p ∈ d.profiles ∨ e.profile = p := by
      rw [hprofiles]
      split
      · rename_i hin
        exact ⟨.inl, fun h => h.elim id fun heq => heq ▸ hin⟩
      · rw [List.mem_append, List.mem_singleton, eq_comm]
    rw [hmem, h.present]
    by_cases hs : stay p history = []
    · by_cases hp : e.profile = p
      · simp [stay_begun hs hp (he p), hp]
      · simp [stay_absent hs hp, hs, hp]
    · simp [stay_longer hs (he p), hs]
  · rw [hprofiles]
    split
    · exact hold
    · rename_i hin
      rw [List.pairwise_append]
      refine ⟨hold, List.pairwise_singleton _ _, ?_⟩
      intro p hp q hq
      rw [List.mem_singleton] at hq
      subst hq
      -- the new one has only just come
      have hnew : stay e.profile history = [] :=
        Decidable.not_not.mp (mt (h.present e.profile).mpr hin)
      have hs := (h.present p).mp hp
      rw [stay_begun hnew rfl (he _), stay_longer hs (he p), List.length_append]
      exact Nat.lt_add_of_pos_left (List.length_pos_iff.mpr hs)

theorem Records.edit (h : Records history d) (e : Edit) : Records (history ++ [e]) (d.edit e) := by
  cases e with
  | put r => exact h.enter fun p he => nomatch he
  | remove profile => exact h.erase profile
  | fetch profile assigned => exact h.enter fun p he => nomatch he

theorem Records.editAll (h : Records history d) (edits : List Edit) :
    Records (history ++ edits) (d.editAll edits) := by
  induction edits generalizing history d with
  | nil => rwa [List.append_nil]
  | cons e rest ih =>
      rw [List.append_cons]
      exact ih (h.edit e)

theorem ofList_eq_editAll (rs : List Requirement) : ofList rs = empty.editAll (rs.map .put) := by
  rw [editAll, List.foldl_map]
  rfl

/-- **A document is a map in the order of entry.** Whatever list it was made of and whatever edits
followed, its profiles are those that were entered and not removed since, each once and in the
order in which they came, and each has the requirement that was written last. A profile is removed
exactly if it is there. No edit touches the requirements of other profiles or their order, and two
documents are equal exactly if they have equal requirements in the same order. -/
theorem insertion_ordered_map (rs : List Requirement) (edits : List Edit) :
    let d := (ofList rs).editAll edits
    Records (rs.map .put ++ edits) d ∧
      (∀ p, ((d.remove p).1 = true ↔ p ∈ d.profiles) ∧
        (d.remove p).2.requirements = d.requirements.filter fun r => r.profile ≠ p) ∧
      (∀ p, (d.getOrCreate p).2.find? p = some (d.getOrCreate p).1) ∧
      (∀ e : Edit, (d.edit e).requirements.filter (fun r => r.profile ≠ e.profile)
        = d.requirements.filter fun r => r.profile ≠ e.profile) ∧
      ∀ d', d = d' ↔ d.profiles = d'.profiles ∧ ∀ p ∈ d.profiles, d.find? p = d'.find? p := by
  intro d
  have hrecords : Records (rs.map .put ++ edits) d := by
    have hlist := records_empty.editAll (rs.map .put)
    rw [← ofList_eq_editAll] at hlist
    exact hlist.editAll edits
  refine ⟨hrecords, ?_, ?_, others_edit d, fun _ => eq_iff⟩
  · intro p
    exact ⟨contains_eq_true_iff, requirements_erase d p⟩
  · intro p
    rw [find?_getOrCreate, if_pos rfl]

/-- A profile that was removed comes back behind the others, and without what it was. -/
example :
    ((ofList [{ profile := "api", minimum := some 2 }, { profile := "front" }]).editAll
      [.remove "api", .fetch "front" (some (some 1)), .fetch "api" none]).requirements
      = [{ profile := "front", minimum := some 1 }, { profile := "api" }] := by decide

end FleetScaler.Document
