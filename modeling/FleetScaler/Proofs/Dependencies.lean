import FleetScaler.Proofs.Document
import Mathlib.Data.List.Chain
import Mathlib.Data.List.Perm.Subperm
import Mathlib.Logic.Relation

/-!
# Which profiles wait for which

A profile may grow once its dependencies have their minimum, so a profile with a minimum awaits
those of its dependencies that have one, too. Where nobody awaits itself, not even through others,
a chain of profiles that await one another meets each of them once and is therefore no longer than
there are profiles with a minimum.
-/

namespace FleetScaler.Document

/-- The first profile has a minimum, and may grow only when the second has reached its own. -/
def Awaits (d : Document) (profile dependency : String) : Prop :=
  ∃ r ∈ d.requirements, r.profile = profile ∧ r.isManaged ∧ dependency ∈ r.dependencies ∧
    (d.minimum? dependency).isSome

/-- No profile awaits itself, not even through others. -/
def Acyclic (d : Document) : Prop := ∀ profile, ¬ Relation.TransGen d.Awaits profile profile

/-- Every chain of awaited profiles from the profile on has fewer steps than the number. -/
def Shallow (d : Document) (profile : String) (n : Nat) : Prop :=
  ∀ chain, (profile :: chain).IsChain d.Awaits → chain.length < n

/-- The profiles with a minimum. -/
def managed (d : Document) : List String := profilesOf (d.requirements.filter Requirement.isManaged)

variable {d : Document} {profile dependency : String} {m n : Nat}

theorem mem_managed : profile ∈ d.managed ↔ (d.minimum? profile).isSome := by
  rw [managed, List.mem_map, Option.isSome_iff_exists]
  constructor
  · rintro ⟨r, hr, rfl⟩
    obtain ⟨hmem, hmanaged⟩ := List.mem_filter.mp hr
    obtain ⟨minimum, hm⟩ := Option.isSome_iff_exists.mp hmanaged
    exact ⟨minimum, minimum?_eq_some_iff.mpr ⟨r, hmem, rfl, hm⟩⟩
  · rintro ⟨minimum, hm⟩
    obtain ⟨r, hmem, rfl, hr⟩ := minimum?_eq_some_iff.mp hm
    exact ⟨r, List.mem_filter.mpr ⟨hmem, by simp [Requirement.isManaged, hr]⟩, rfl⟩

theorem Awaits.isSome_left (h : d.Awaits profile dependency) : (d.minimum? profile).isSome := by
  obtain ⟨r, hr, rfl, hmanaged, -⟩ := h
  rw [minimum?_of_mem hr]
  exact hmanaged

theorem Awaits.isSome_right (h : d.Awaits profile dependency) :
    (d.minimum? dependency).isSome := by
  obtain ⟨r, -, -, -, -, hsome⟩ := h
  exact hsome

/-! ## How deep a profile is -/

theorem not_shallow_zero (d : Document) (profile : String) : ¬ d.Shallow profile 0 := by
  intro h
  have hnone := h [] (List.isChain_singleton profile)
  exact Nat.not_lt_zero _ hnone

theorem Shallow.mono (h : d.Shallow profile m) (hle : m ≤ n) : d.Shallow profile n :=
  fun chain hchain => Nat.lt_of_lt_of_le (h chain hchain) hle

/-- What is awaited is less deep. -/
theorem Shallow.of_awaits (h : d.Shallow profile (n + 1)) (ha : d.Awaits profile dependency) :
    d.Shallow dependency n := by
  intro chain hchain
  have hlonger := h (dependency :: chain) (hchain.cons_cons ha)
  rw [List.length_cons] at hlonger
  omega

/-- Whoever is met on a chain has a minimum, unless the chain ends at once. -/
theorem isSome_of_isChain {chain : List String} (h : (profile :: chain).IsChain d.Awaits) :
    ∀ q ∈ chain, (d.minimum? q).isSome := by
  induction chain generalizing profile with
  | nil => simp
  | cons next rest ih =>
      obtain ⟨hawaits, hrest⟩ := List.isChain_cons_cons.mp h
      intro q hq
      rcases List.mem_cons.mp hq with rfl | hq'
      · exact hawaits.isSome_right
      · exact ih hrest q hq'

/-- Profiles that await only profiles of a lower rank make no cycle. -/
theorem acyclic_of_rank (rank : String → Nat)
    (h : ∀ r ∈ d.requirements, r.isManaged → ∀ q ∈ r.dependencies, (d.minimum? q).isSome →
      rank q < rank r.profile) : d.Acyclic := by
  have hstep : ∀ p q, d.Awaits p q → rank q < rank p := by
    rintro p q ⟨r, hr, rfl, hmanaged, hdep, hsome⟩
    exact h r hr hmanaged q hdep hsome
  have hpath : ∀ p q, Relation.TransGen d.Awaits p q → rank q < rank p := by
    intro p q hpq
    induction hpq with
    | single ha => exact hstep _ _ ha
    | tail _ ha ih => exact Nat.lt_trans (hstep _ _ ha) ih
  exact fun p hp => Nat.lt_irrefl _ (hpath p p hp)

/-- A chain meets nobody twice. -/
theorem Acyclic.nodup_of_isChain (hd : d.Acyclic) {chain : List String}
    (h : chain.IsChain d.Awaits) : chain.Nodup := by
  have htrans : chain.IsChain (Relation.TransGen d.Awaits) :=
    h.imp fun _ _ ha => Relation.TransGen.single ha
  refine (List.isChain_iff_pairwise.mp htrans).imp ?_
  rintro p q hpq rfl
  exact hd p hpq

/-- **Without cycles no chain is as long as the list of profiles with a minimum.** -/
theorem Acyclic.shallow (hd : d.Acyclic) (hm : (d.minimum? profile).isSome) :
    d.Shallow profile d.managed.length := by
  intro chain hchain
  have hnodup := hd.nodup_of_isChain hchain
  have hsubset : profile :: chain ⊆ d.managed := by
    intro q hq
    rcases List.mem_cons.mp hq with rfl | hq'
    · exact mem_managed.mpr hm
    · exact mem_managed.mpr (isSome_of_isChain hchain q hq')
  have hlength := (List.subperm_of_subset hnodup hsubset).length_le
  rw [List.length_cons] at hlength
  omega

end FleetScaler.Document
