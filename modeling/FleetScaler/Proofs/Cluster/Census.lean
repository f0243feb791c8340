import FleetScaler.Proofs.Cluster.Run
import FleetScaler.Proofs.Counting
import Mathlib.Data.List.Nodup
import Mathlib.Data.List.Perm.Basic

/-!
# Counting instances

The countable instances of each profile, before and after everything that scaling does. A request
to start instances adds to one profile. A request to stop instances takes away as many as it says,
from those it names and from no others, because an id names one instance only.
-/

namespace FleetScaler.Cluster

/-- The instances of a profile, with their numbers. -/
def placementsOf (c : Cluster) (profile : String) : List Placement :=
  c.placements.filter fun p => p.profile = profile

/-- The countable instances of a profile. -/
def countables (c : Cluster) (profile : String) : List Instance :=
  (c.instancesOf profile).filter Instance.isCountable

variable {c c' : Cluster}

theorem instancesOf_eq (c : Cluster) (profile : String) :
    c.instancesOf profile = (c.placementsOf profile).map Placement.toInstance := by
  simp [instancesOf, instances, placementsOf, List.filter_map, Function.comp_def]

theorem countables_eq (c : Cluster) (profile : String) :
    c.countables profile
      = ((c.placementsOf profile).filter (·.isCountable)).map Placement.toInstance := by
  rw [countables, instancesOf_eq, List.filter_map]
  rfl

theorem countableCount_eq (c : Cluster) (profile : String) :
    c.countableCount profile = (c.placementsOf profile).countP (·.isCountable) := by
  rw [countableCount, instances, List.countP_map, placementsOf, List.countP_filter]
  refine List.countP_congr fun p _ => ?_
  simp [and_comm]

theorem length_countables (c : Cluster) (profile : String) :
    (c.countables profile).length = c.countableCount profile := by
  rw [countables_eq, List.length_map, countableCount_eq, List.countP_eq_length_filter]

theorem countableCount_congr {profile : String}
    (h : c'.placementsOf profile = c.placementsOf profile) :
    c'.countableCount profile = c.countableCount profile := by
  rw [countableCount_eq, countableCount_eq, h]

theorem countables_congr {profile : String}
    (h : c'.placementsOf profile = c.placementsOf profile) :
    c'.countables profile = c.countables profile := by
  rw [countables_eq, countables_eq, h]

theorem countableCount_le_of_sublist (h : c'.placements.Sublist c.placements) (profile : String) :
    c'.countableCount profile ≤ c.countableCount profile := by
  rw [countableCount_eq, countableCount_eq]
  exact (h.filter _).countP_le

/-! ## Settling and dying -/

theorem isCountable_settled (p : Placement) : p.settled.isCountable = p.isCountable := by
  unfold Placement.settled
  split
  · rename_i hpending
    simp [Instance.isCountable, hpending]
  · rfl

theorem profile_settled (p : Placement) : p.settled.profile = p.profile := by
  unfold Placement.settled
  split <;> rfl

/-- Settling brings up what was counted before, and removes what was not. -/
theorem countableCount_settle (c : Cluster) (profile : String) :
    c.settle.2.countableCount profile = c.countableCount profile := by
  simp only [countableCount, instances, settle, List.countP_map, List.countP_filter]
  refine List.countP_congr fun p _ => ?_
  have hcount : p.settled.toInstance.isCountable = p.toInstance.isCountable :=
    isCountable_settled p
  simp [profile_settled, hcount]

theorem countP_onFirst_le (f : Placement → Bool) (hf : ∀ p, f p.killed = true → f p = true)
    (id : String) (ps : List Placement) :
    (onFirst Placement.killed id ps).countP f ≤ ps.countP f := by
  induction ps with
  | nil => simp [onFirst]
  | cons p rest ih =>
      by_cases hp : p.id = id
      · simp only [onFirst, hp, if_true, List.countP_cons]
        by_cases hk : f p.killed = true
        · simp [hk, hf p hk]
        · simp [hk]
      · simp only [onFirst, hp, if_false, List.countP_cons]
        omega

theorem countableCount_kill_le (c : Cluster) (id profile : String) :
    (c.kill id).2.countableCount profile ≤ c.countableCount profile := by
  simp only [countableCount, instances, kill, List.countP_map]
  refine countP_onFirst_le _ ?_ id c.placements
  intro p hp
  simp [Placement.killed, Instance.isCountable] at hp

/-! ## Starting instances -/

theorem mem_started {request : ScaleUp} {first : Nat} {p : Placement}
    (h : p ∈ started request first) :
    p.profile = request.profile ∧ p.alive = false ∧ p.pending = true ∧ first ≤ p.sequence := by
  obtain ⟨k, -, rfl⟩ := List.mem_map.mp h
  exact ⟨rfl, rfl, rfl, Nat.le_add_right first k⟩

theorem placementsOf_provision_self (c : Cluster) (request : ScaleUp) :
    (c.provision request).placementsOf request.profile
      = c.placementsOf request.profile ++ started request c.nextSequence := by
  have hall : (started request c.nextSequence).filter (fun p => p.profile = request.profile)
      = started request c.nextSequence := by
    rw [List.filter_eq_self]
    intro p hp
    simp [(mem_started hp).1]
  simp [placementsOf, provision, List.filter_append, hall]

theorem placementsOf_provision_ne (c : Cluster) (request : ScaleUp) {profile : String}
    (hne : profile ≠ request.profile) :
    (c.provision request).placementsOf profile = c.placementsOf profile := by
  have hnone : (started request c.nextSequence).filter (fun p => p.profile = profile) = [] := by
    rw [List.filter_eq_nil_iff]
    intro p hp
    simp [(mem_started hp).1, hne.symm]
  simp [placementsOf, provision, List.filter_append, hnone]

theorem countableCount_provision_self (c : Cluster) (request : ScaleUp) :
    (c.provision request).countableCount request.profile
      = c.countableCount request.profile + request.count.toNat := by
  have hall : (started request c.nextSequence).countP (·.isCountable)
      = (started request c.nextSequence).length := by
    rw [List.countP_eq_length]
    intro p hp
    simp [Instance.isCountable, (mem_started hp).2.2.1]
  rw [countableCount_eq, placementsOf_provision_self, List.countP_append, hall,
    ← countableCount_eq]
  simp [started]

/-! ## Stopping instances -/

theorem mem_named {profile : String} {candidates : List Instance} {p : Placement} :
    p ∈ c.named profile candidates
      ↔ p ∈ c.placementsOf profile ∧ p.id ∈ candidates.map (·.id) := by
  simp only [named, placementsOf, List.mem_flatMap, List.mem_filter, List.mem_map,
    Bool.and_eq_true, decide_eq_true_eq]
  constructor
  · rintro ⟨candidate, hcandidate, hp, hid, hprofile⟩
    exact ⟨⟨hp, hprofile⟩, candidate, hcandidate, hid.symm⟩
  · rintro ⟨⟨hp, hprofile⟩, candidate, hcandidate, hid⟩
    exact ⟨candidate, hcandidate, hp, hid.symm, hprofile⟩

theorem Orderly.nodup_named (h : c.Orderly) (profile : String) {candidates : List Instance}
    (hd : (candidates.map (·.id)).Nodup) : (c.named profile candidates).Nodup := by
  rw [named, List.nodup_flatMap]
  refine ⟨fun _ _ => h.nodup.filter _, ?_⟩
  rw [List.Nodup, List.pairwise_map] at hd
  refine hd.imp ?_
  intro a b hne p hpa hpb
  simp only [List.mem_filter, Bool.and_eq_true, decide_eq_true_eq] at hpa hpb
  exact hne (hpa.2.1.symm.trans hpb.2.1)

/-- Candidates with different ids name each instance once. -/
theorem Orderly.named_perm (h : c.Orderly) (profile : String) {candidates : List Instance}
    (hd : (candidates.map (·.id)).Nodup) :
    (c.named profile candidates).Perm
      ((c.placementsOf profile).filter fun p => p.id ∈ candidates.map (·.id)) := by
  have hn : (c.placementsOf profile).Nodup := h.nodup.filter _
  rw [List.perm_ext_iff_of_nodup (h.nodup_named profile hd) (hn.filter _)]
  intro p
  rw [mem_named, List.mem_filter, decide_eq_true_eq]

theorem order_perm_named (c : Cluster) (request : ScaleDown) :
    (c.order request).Perm (c.named request.profile request.candidates) :=
  List.mergeSort_perm _ _

theorem mem_placements_of_mem_order {request : ScaleDown} {p : Placement}
    (h : p ∈ c.order request) : p ∈ c.placements :=
  List.mem_of_mem_filter (mem_named.mp ((c.order_perm_named request).mem_iff.mp h)).1

theorem Orderly.nodup_order (h : c.Orderly) {request : ScaleDown}
    (hd : (request.candidates.map (·.id)).Nodup) : (c.order request).Nodup :=
  (c.order_perm_named request).nodup_iff.mpr (h.nodup_named request.profile hd)

/-- An id names one instance only, so whoever bears the id of a victim is the victim. -/
theorem Orderly.placements_stop (h : c.Orderly) {victims : List Placement}
    (hv : ∀ p ∈ victims, p ∈ c.placements) :
    (c.stop victims).placements = c.placements.filter fun p => p ∉ victims := by
  refine List.filter_congr fun p hp => ?_
  have hiff : p.id ∈ victims.map (·.id) ↔ p ∈ victims := by
    constructor
    · intro hid
      obtain ⟨q, hq, heq⟩ := List.mem_map.mp hid
      exact h.eq_of_id_eq (hv q hq) hp heq ▸ hq
    · exact List.mem_map_of_mem
  simp [hiff]

/-- The first of the instances that a request names, as many as it says. -/
def foremost (c : Cluster) (request : ScaleDown) : List Placement :=
  (c.order request).take request.count.toNat

theorem mem_placements_of_mem_foremost {request : ScaleDown} {p : Placement}
    (h : p ∈ c.foremost request) : p ∈ c.placements :=
  mem_placements_of_mem_order (List.mem_of_mem_take h)

theorem Orderly.nodup_foremost (h : c.Orderly) {request : ScaleDown}
    (hd : (request.candidates.map (·.id)).Nodup) : (c.foremost request).Nodup :=
  (h.nodup_order hd).sublist (List.take_sublist _ _)

section Short

variable {request : ScaleDown}
  (hm : (c.named request.profile request.candidates).length < 2147483648)
include hm

theorem count32_order : count32 (c.order request)
    = (c.named request.profile request.candidates).length := by
  have hlength := (c.order_perm_named request).length_eq
  rw [count32_of_lt (by omega), hlength]

/-- Where 32 bits hold the number of those named, the foremost of them are stopped. -/
theorem victims_of_nonneg (hcount : 0 ≤ request.count) :
    c.victims request = .ok (c.foremost request) := by
  have hlength := (c.order_perm_named request).length_eq
  rw [victims, cut, count32_order hm]
  split
  · rw [if_neg (by omega), foremost]
  · rw [foremost, List.take_of_length_le (by omega)]

/-- Where 32 bits hold the number of those named, a negative count is refused. -/
theorem victims_of_neg (hcount : request.count < 0) :
    c.victims request = .error .negativeCount := by
  rw [victims, cut, count32_order hm, if_pos (by omega), if_pos hcount]

end Short

/-- What is left of a list after some of its entries were taken out. -/
theorem countP_filter_not_mem {α : Type} [DecidableEq α] {l out : List α} {f : α → Bool}
    (hl : l.Nodup) (ho : out.Nodup) (hmem : ∀ a ∈ out, a ∈ l ∧ f a = true) :
    (l.filter fun a => a ∉ out).countP f + out.length = l.countP f := by
  -- what was taken out and what is left make up the list
  have htaken : (l.filter fun a => a ∈ out).Perm out := by
    rw [List.perm_ext_iff_of_nodup (hl.filter _) ho]
    intro a
    rw [List.mem_filter, decide_eq_true_eq]
    exact ⟨fun h => h.2, fun h => ⟨(hmem a h).1, h⟩⟩
  have hall : out.countP f = out.length := List.countP_eq_length.mpr fun a ha => (hmem a ha).2
  have hsplit := (List.filter_append_perm (fun a => decide (a ∈ out)) l).countP_eq f
  rw [List.countP_append, htaken.countP_eq f, hall] at hsplit
  simp only [← decide_not] at hsplit
  omega

/-- A cluster has stopped a number of countable instances of a profile, and nothing else. -/
structure Stops (c : Cluster) (profile : String) (n : Nat) (stopped : List Placement)
    (c' : Cluster) : Prop where
  left : c'.placements = c.placements.filter fun p => p ∉ stopped
  distinct : stopped.Nodup
  length : stopped.length = n
  mem : ∀ p ∈ stopped, p ∈ c.placements ∧ p.profile = profile ∧ p.isCountable = true
  nextSequence : c'.nextSequence = c.nextSequence
  unscalable : c'.unscalable = c.unscalable

theorem map_id_countables (c : Cluster) (profile : String) :
    (c.countables profile).map (·.id)
      = ((c.placementsOf profile).filter (·.isCountable)).map (·.id) := by
  rw [countables_eq, List.map_map]
  rfl

theorem sublist_countable (c : Cluster) (profile : String) :
    ((c.placementsOf profile).filter (·.isCountable)).Sublist c.placements :=
  List.filter_sublist.trans List.filter_sublist

theorem Orderly.nodup_ids_countables (h : c.Orderly) (profile : String) :
    ((c.countables profile).map (·.id)).Nodup := by
  rw [map_id_countables]
  exact h.nodup_ids.sublist ((sublist_countable c profile).map _)

/-- The countable instances of a profile name themselves. -/
theorem Orderly.named_countables (h : c.Orderly) (profile : String) :
    (c.named profile (c.countables profile)).Perm
      ((c.placementsOf profile).filter (·.isCountable)) := by
  refine (h.named_perm profile (h.nodup_ids_countables profile)).trans (List.Perm.of_eq ?_)
  refine List.filter_congr fun p hp => ?_
  have hiff : p.id ∈ (c.countables profile).map (·.id) ↔ p.isCountable = true := by
    rw [map_id_countables]
    constructor
    · intro hid
      obtain ⟨q, hq, heq⟩ := List.mem_map.mp hid
      have hpq := h.eq_of_id_eq ((sublist_countable c profile).subset hq)
        (List.mem_of_mem_filter hp) heq
      exact hpq ▸ (List.mem_filter.mp hq).2
    · exact fun hc => List.mem_map_of_mem (List.mem_filter.mpr ⟨hp, hc⟩)
  by_cases hc : p.isCountable = true
  · simp [hiff.mpr hc, hc]
  · simp [mt hiff.mp hc, hc]

/-- **A cluster stops as many of the countable instances of a profile as it is asked to**, if 32
bits hold their number. -/
theorem Orderly.destroy_countables (h : c.Orderly) {profile : String} {n : Nat}
    (hn : n ≤ c.countableCount profile) (hr : c.countableCount profile < 2147483648) :
    ∃ c' stopped,
      collaborators.destroy ()
        { profile, count := n, candidates := c.countables profile } c = (.ok (), c') ∧
      c.Stops profile n stopped c' := by
  have hperm := h.named_countables profile
  let request : ScaleDown := { profile, count := n, candidates := c.countables profile }
  have hd : (request.candidates.map (·.id)).Nodup := h.nodup_ids_countables profile
  have hlength : (c.named profile request.candidates).length = c.countableCount profile := by
    rw [hperm.length_eq, ← List.countP_eq_length_filter, ← countableCount_eq]
  have hvictims : c.victims request = .ok (c.foremost request) :=
    victims_of_nonneg (by rwa [hlength]) (Int.natCast_nonneg n)
  refine ⟨_, c.foremost request, destroy_of_ok hvictims, ?_, h.nodup_foremost hd, ?_, ?_, rfl, rfl⟩
  · exact h.placements_stop fun p hp => mem_placements_of_mem_foremost hp
  · have horder : (c.order request).length = c.countableCount profile :=
      (c.order_perm_named request).length_eq.trans hlength
    have hcount : request.count.toNat = n := rfl
    rw [foremost, List.length_take]
    omega
  · intro p hmem
    have hnamed := (c.order_perm_named request).mem_iff.mp (List.mem_of_mem_take hmem)
    obtain ⟨hof, hcount⟩ := List.mem_filter.mp (hperm.mem_iff.mp hnamed)
    obtain ⟨hin, hprofile⟩ := List.mem_filter.mp hof
    exact ⟨hin, by simpa using hprofile, hcount⟩

section Stops

variable {profile : String} {n : Nat} {stopped : List Placement}

theorem Stops.placementsOf_ne (h : c.Stops profile n stopped c') {other : String}
    (hne : other ≠ profile) : c'.placementsOf other = c.placementsOf other := by
  rw [placementsOf, h.left, List.filter_filter, placementsOf]
  refine List.filter_congr fun p _ => ?_
  by_cases ho : p.profile = other
  · have hin : p ∉ stopped := fun hs => hne (ho ▸ (h.mem p hs).2.1)
    simp [ho, hin]
  · simp [ho]

theorem Stops.countableCount (h : c.Stops profile n stopped c') (hc : c.Orderly) :
    c'.countableCount profile + n = c.countableCount profile := by
  rw [countableCount_eq, countableCount_eq, placementsOf, placementsOf, List.countP_filter,
    List.countP_filter, h.left, ← h.length]
  refine countP_filter_not_mem hc.nodup h.distinct ?_
  intro p hp
  obtain ⟨hin, hprofile, hcount⟩ := h.mem p hp
  simp [hin, hprofile, hcount]

end Stops

theorem countableCount_destroy_le (c : Cluster) (request : ScaleDown) (profile : String) :
    (collaborators.destroy () request c).2.countableCount profile ≤ c.countableCount profile := by
  rcases destroy_cases c request with ⟨heq, -⟩ | ⟨victims, heq, -⟩
  · exact Nat.le_of_eq (by rw [heq])
  · rw [heq]
    exact countableCount_le_of_sublist List.filter_sublist profile

/-! ## Any number of instances -/

theorem run_replicate_add (c : Cluster) (profile : String) (alive pending : Bool) (n : Nat) :
    c.run (List.replicate n (.add profile alive pending)) =
      { c with
        placements := c.placements ++ (List.range n).map fun k =>
          Placement.create profile alive pending (c.nextSequence + k)
        nextSequence := c.nextSequence + n } := by
  induction n generalizing c with
  | zero => simp
  | succ n ih =>
      have hshift : ∀ k, c.nextSequence + 1 + k = c.nextSequence + (k + 1) := by omega
      rw [List.replicate_succ, run_cons, ih]
      simp [perform, add, List.range_succ_eq_map, hshift, Function.comp_def]

/-- A cluster with a number of running instances of one profile. -/
def swarm (n : Nat) : Cluster := ({} : Cluster).run (List.replicate n (.add "web" true false))

theorem swarm_eq (n : Nat) : swarm n = {
    placements := (List.range n).map (Placement.create "web" true false)
    nextSequence := n } := by
  simp [swarm, run_replicate_add]

theorem reachable_swarm (n : Nat) : (swarm n).Reachable := ⟨"1.0", _, rfl⟩

theorem length_placements_swarm (n : Nat) : (swarm n).placements.length = n := by
  simp [swarm_eq]

theorem countableCount_swarm (n : Nat) : (swarm n).countableCount "web" = n := by
  have hall : ∀ i ∈ (swarm n).instances, (i.profile = "web" && i.isCountable) = true := by
    simp [swarm_eq, instances, Placement.create, Instance.isCountable]
  rw [countableCount, List.countP_eq_length.mpr hall, instances, List.length_map,
    length_placements_swarm]

theorem scales_swarm (n : Nat) (profile : String) : (swarm n).scales profile = true := by
  simp [swarm_eq, scales]

end FleetScaler.Cluster
