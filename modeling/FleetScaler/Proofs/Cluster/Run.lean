import FleetScaler.Cluster.Basic
import FleetScaler.Proofs.Membership.Identity
import FleetScaler.Proofs.Pass.World
import Mathlib.Data.List.Nodup

/-!
# Runs of a cluster

A `Change` is anything that can happen to a cluster in one step, and a run is a list of them. What
every run keeps is that the instances stand in the order of their numbers, that the next number is
still free, and that each id is made of the profile and the number of its instance. Profiles are
free text, but the number is what follows the last dash of an id, so no two instances share one.
-/

namespace FleetScaler

/-- What never changes about an instance. -/
def Placement.tag (p : Placement) : String × String × Nat := (p.id, p.profile, p.sequence)

namespace Cluster

/-- Something that happens to a cluster. -/
inductive Change where
  | add (profile : String) (alive pending : Bool)
  | kill (id : String)
  | settle
  | setUnscalable (profile : String) (unscalable : Bool)
  | setVersion (version : String)
  | provision (request : ScaleUp)
  /-- A request to stop instances; one that is refused changes nothing. -/
  | decommission (request : ScaleDown)
  | pass (document : Document)
  deriving DecidableEq

/-- The cluster after a change. -/
def perform (c : Cluster) : Change → Cluster
  | .add profile alive pending => (c.add profile alive pending).2
  | .kill id => (c.kill id).2
  | .settle => c.settle.2
  | .setUnscalable profile unscalable => c.setUnscalable profile unscalable
  | .setVersion version => c.setVersion version
  | .provision request => c.provision request
  | .decommission request => (collaborators.destroy () request c).2
  | .pass document => (c.pass document).2

/-- The cluster after some changes, one after the other. -/
def run (c : Cluster) (changes : List Change) : Cluster := changes.foldl perform c

@[simp] theorem run_nil (c : Cluster) : c.run [] = c := rfl

@[simp] theorem run_cons (c : Cluster) (x : Change) (rest : List Change) :
    c.run (x :: rest) = (c.perform x).run rest := rfl

/-- The cluster can come about: it started without instances, and the rest is changes. -/
def Reachable (c : Cluster) : Prop :=
  ∃ version changes, c = ({ version } : Cluster).run changes

/-! ## Ids -/

/-- **The number of an instance can be read off its id.** -/
theorem sequence_eq_of_id_eq {profile profile' : String} {j k : Nat}
    (h : profile ++ "-" ++ toString j = profile' ++ "-" ++ toString k) : j = k := by
  have split : ∀ (p : String) (n : Nat),
      (p ++ "-" ++ toString n).toList = p.toList ++ '-' :: Nat.toDigits 10 n := by
    intro p n
    simp
  have hl := congrArg String.toList h
  rw [split, split] at hl
  have hd := Coordination.tail_eq_of_append_cons_eq (Coordination.dash_not_mem_toDigits j)
    (Coordination.dash_not_mem_toDigits k) hl
  have hn := congrArg (fun ds => Nat.ofDigitChars 10 ds 0) hd
  simpa using hn

/-- The instances of a cluster are numbered in their order, and their ids say so. -/
structure Orderly (c : Cluster) : Prop where
  ids : ∀ p ∈ c.placements, p.id = p.profile ++ "-" ++ toString p.sequence
  below : ∀ p ∈ c.placements, p.sequence < c.nextSequence
  increasing : c.placements.Pairwise fun p q => p.sequence < q.sequence

variable {c c' : Cluster}

theorem Orderly.nodup_ids (h : c.Orderly) : (c.placements.map (·.id)).Nodup := by
  rw [List.Nodup, List.pairwise_map]
  refine h.increasing.imp_of_mem ?_
  intro p q hp hq hlt heq
  rw [h.ids p hp, h.ids q hq] at heq
  have := sequence_eq_of_id_eq heq
  omega

theorem Orderly.eq_of_id_eq (h : c.Orderly) {p q : Placement} (hp : p ∈ c.placements)
    (hq : q ∈ c.placements) (heq : p.id = q.id) : p = q :=
  List.inj_on_of_nodup_map h.nodup_ids hp hq heq

theorem Orderly.nodup (h : c.Orderly) : c.placements.Nodup := h.nodup_ids.of_map _

/-! ## Every change keeps the order -/

theorem orderly_empty (version : String) : ({ version } : Cluster).Orderly where
  ids := by intro p hp; simp at hp
  below := by intro p hp; simp at hp
  increasing := List.Pairwise.nil

/-- Instances may go and may change what is not in their tags. -/
theorem orderly_of_sublist (h : c.Orderly)
    (hs : (c'.placements.map Placement.tag).Sublist (c.placements.map Placement.tag))
    (hn : c'.nextSequence = c.nextSequence) : c'.Orderly := by
  -- whoever is left was there before, under the same tag
  have hold : ∀ p ∈ c'.placements, ∃ q ∈ c.placements, q.tag = p.tag := by
    intro p hp
    exact List.mem_map.mp (hs.subset (List.mem_map_of_mem hp))
  refine ⟨?_, ?_, ?_⟩
  · intro p hp
    obtain ⟨q, hq, ht⟩ := hold p hp
    simp only [Placement.tag, Prod.mk.injEq] at ht
    obtain ⟨hid, hprofile, hseq⟩ := ht
    rw [← hid, ← hprofile, ← hseq]
    exact h.ids q hq
  · intro p hp
    obtain ⟨q, hq, ht⟩ := hold p hp
    simp only [Placement.tag, Prod.mk.injEq] at ht
    rw [hn, ← ht.2.2]
    exact h.below q hq
  · have hw : (c.placements.map Placement.tag).Pairwise fun s t => s.2.2 < t.2.2 := by
      rw [List.pairwise_map]
      exact h.increasing
    have hw' := hw.sublist hs
    rw [List.pairwise_map] at hw'
    exact hw'

/-- Instances that are new get the next numbers. -/
theorem orderly_append (h : c.Orderly) {profile : String} {alive pending : Bool} {n : Nat}
    (hp : c'.placements = c.placements ++ (List.range n).map fun k =>
      Placement.create profile alive pending (c.nextSequence + k))
    (hn : c'.nextSequence = c.nextSequence + n) : c'.Orderly := by
  have hnew : ∀ p ∈ (List.range n).map (fun k =>
      Placement.create profile alive pending (c.nextSequence + k)),
      p.id = p.profile ++ "-" ++ toString p.sequence ∧
        c.nextSequence ≤ p.sequence ∧ p.sequence < c.nextSequence + n := by
    intro p hp
    obtain ⟨k, hk, rfl⟩ := List.mem_map.mp hp
    rw [List.mem_range] at hk
    exact ⟨rfl, by simp [Placement.create], by simp [Placement.create, hk]⟩
  refine ⟨?_, ?_, ?_⟩
  · intro p hmem
    rw [hp] at hmem
    rcases List.mem_append.mp hmem with hold | hnew'
    · exact h.ids p hold
    · exact (hnew p hnew').1
  · intro p hmem
    rw [hp] at hmem
    rw [hn]
    rcases List.mem_append.mp hmem with hold | hnew'
    · have := h.below p hold
      omega
    · exact (hnew p hnew').2.2
  · rw [hp, List.pairwise_append]
    refine ⟨h.increasing, ?_, ?_⟩
    · rw [List.pairwise_map]
      refine List.pairwise_lt_range.imp ?_
      intro j k hjk
      simp [Placement.create, hjk]
    · intro p hold q hq
      have hlt := h.below p hold
      have hle := (hnew q hq).2.1
      omega

theorem orderly_of_eq (h : c.Orderly) (hp : c'.placements = c.placements)
    (hn : c'.nextSequence = c.nextSequence) : c'.Orderly :=
  orderly_of_sublist h (by rw [hp]) hn

theorem orderly_add (h : c.Orderly) (profile : String) (alive pending : Bool) :
    (c.add profile alive pending).2.Orderly := by
  have hp : (c.add profile alive pending).2.placements = c.placements ++ (List.range 1).map fun k =>
      Placement.create profile alive pending (c.nextSequence + k) := by simp [add]
  exact orderly_append h hp rfl

theorem map_tag_onFirst (id : String) (ps : List Placement) :
    (onFirst Placement.killed id ps).map Placement.tag = ps.map Placement.tag := by
  induction ps with
  | nil => rfl
  | cons p rest ih =>
      by_cases hp : p.id = id
      · simp [onFirst, hp, Placement.killed, Placement.tag]
      · simp [onFirst, hp, ih]

theorem orderly_kill (h : c.Orderly) (id : String) : (c.kill id).2.Orderly :=
  orderly_of_sublist h (by rw [kill, map_tag_onFirst]) rfl

theorem tag_settled (p : Placement) : p.settled.tag = p.tag := by
  unfold Placement.settled
  split <;> rfl

/-- Settling takes no instance for another. -/
theorem sublist_tag_settle (c : Cluster) :
    (c.settle.2.placements.map Placement.tag).Sublist (c.placements.map Placement.tag) := by
  have htag : (c.placements.map Placement.settled).map Placement.tag
      = c.placements.map Placement.tag := by
    rw [List.map_map]
    exact List.map_congr_left fun p _ => tag_settled p
  rw [← htag]
  exact List.filter_sublist.map Placement.tag

theorem orderly_settle (h : c.Orderly) : c.settle.2.Orderly :=
  orderly_of_sublist h (sublist_tag_settle c) rfl

theorem orderly_provision (h : c.Orderly) (request : ScaleUp) : (c.provision request).Orderly :=
  orderly_append h rfl (by simp [provision, started])

/-- Some of the first are taken, or all; a refusal is due to a negative count. -/
theorem cut_cases (count : Int) (order : List Placement) :
    cut count order = .error .negativeCount ∧ count < 0 ∨
      ∃ victims, cut count order = .ok victims ∧ victims.Sublist order := by
  unfold cut
  split
  · split
    · rename_i hneg
      exact .inl ⟨rfl, hneg⟩
    · exact .inr ⟨_, rfl, List.take_sublist _ _⟩
  · exact .inr ⟨_, rfl, List.Sublist.refl _⟩

theorem destroy_of_error {request : ScaleDown} {e : Failure} (h : c.victims request = .error e) :
    collaborators.destroy () request c = (.error e, c) := by
  simp only [collaborators, decommission, h, Except.map]

theorem destroy_of_ok {request : ScaleDown} {victims : List Placement}
    (h : c.victims request = .ok victims) :
    collaborators.destroy () request c = (.ok (), c.stop victims) := by
  simp only [collaborators, decommission, h, Except.map]

/-- A request to stop instances is refused, or it leaves some of the instances as they are. -/
theorem destroy_cases (c : Cluster) (request : ScaleDown) :
    collaborators.destroy () request c = (.error .negativeCount, c) ∧ request.count < 0 ∨
    ∃ victims, collaborators.destroy () request c = (.ok (), c.stop victims) ∧
      victims.Sublist (c.order request) := by
  rcases cut_cases request.count (c.order request) with ⟨heq, hneg⟩ | ⟨victims, heq, hsub⟩
  · exact .inl ⟨destroy_of_error heq, hneg⟩
  · exact .inr ⟨victims, destroy_of_ok heq, hsub⟩

theorem orderly_destroy (h : c.Orderly) (request : ScaleDown) :
    (collaborators.destroy () request c).2.Orderly := by
  rcases destroy_cases c request with ⟨heq, -⟩ | ⟨victims, heq, -⟩
  · rw [heq]
    exact h
  · rw [heq]
    exact orderly_of_sublist h (List.filter_sublist.map Placement.tag) rfl

/-- What a pass asks of a cluster keeps the order. -/
theorem keeps_orderly : collaborators.Keeps Orderly where
  offer _ _ _ h := h
  instances _ _ h := h
  version _ h := h
  create _ request _ h := orderly_provision h request
  destroy _ request _ h := orderly_destroy h request
  note _ _ h := orderly_of_eq h rfl rfl

theorem orderly_perform (h : c.Orderly) (x : Change) : (c.perform x).Orderly := by
  cases x with
  | add profile alive pending => exact orderly_add h profile alive pending
  | kill id => exact orderly_kill h id
  | settle => exact orderly_settle h
  | setUnscalable profile unscalable => exact orderly_of_eq h rfl rfl
  | setVersion version => exact orderly_of_eq h rfl rfl
  | provision request => exact orderly_provision h request
  | decommission request => exact orderly_destroy h request
  | pass document => exact Pass.world_run keeps_orderly document h

/-- **The instances of every cluster are in the order of their numbers.** -/
theorem Reachable.orderly (h : c.Reachable) : c.Orderly := by
  obtain ⟨version, changes, rfl⟩ := h
  have hrun : ∀ {c : Cluster}, c.Orderly → (c.run changes).Orderly := by
    induction changes with
    | nil => exact fun h => h
    | cons x rest ih => exact fun h => ih (orderly_perform h x)
  exact hrun (orderly_empty version)

end Cluster

end FleetScaler
