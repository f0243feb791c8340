import FleetScaler.Proofs.Cluster.Census

/-!
# Who is stopped

A request to stop instances names candidates, as an inventory saw them some time ago. Which of them
go is for the cluster to say, and it goes by what they are now: those that are not alive first, and
then the newest. Numbers are given out once, so this leaves no choice: there is one order, and the
first of it go.

All of this is on the condition that 32 bits hold the number of those named. With more of them than
that, a cluster may take them for too few to choose from, and stops all.
-/

namespace FleetScaler

/-- The first instance is stopped before the second: it is not alive and the other one is, or it is
the newer of two that are alike in this. -/
def Placement.Precedes (p q : Placement) : Prop :=
  (p.alive = false ∧ q.alive = true) ∨ (p.alive = q.alive ∧ q.sequence < p.sequence)

instance (p q : Placement) : Decidable (p.Precedes q) := inferInstanceAs (Decidable (_ ∨ _))

namespace Cluster

/-- The instances that a request may stop: those of its profile that a candidate names. -/
def eligible (c : Cluster) (request : ScaleDown) : List Placement :=
  (c.placementsOf request.profile).filter fun p => p.id ∈ request.candidates.map (·.id)

/-- The second cluster is the first one after a request to stop instances. -/
structure Culled (c : Cluster) (request : ScaleDown) (c' : Cluster) : Prop where
  /-- The first of those who may be stopped are gone; all others are as before and where they
  were. -/
  exact : ∃ order : List Placement,
    order.Perm (c.eligible request) ∧ order.Pairwise Placement.Precedes ∧
      c'.placements = c.placements.filter fun p => p ∉ order.take request.count.toNat
  number : c'.placements.length + min request.count.toNat (c.eligible request).length
    = c.placements.length
  spared : ∀ p ∈ c.placements, p ∉ c.eligible request → p ∈ c'.placements
  first : ∀ p ∈ c.eligible request, p ∉ c'.placements →
    ∀ q ∈ c.eligible request, q ∈ c'.placements → p.Precedes q
  /-- Nobody who is alive is stopped as long as somebody is left who is not. -/
  living : ∀ p ∈ c.eligible request, p ∉ c'.placements → p.alive = true →
    ∀ q ∈ c.eligible request, q ∈ c'.placements → q.alive = true
  nextSequence : c'.nextSequence = c.nextSequence
  unscalable : c'.unscalable = c.unscalable
  version : c'.version = c.version

end Cluster

/-! ## The order -/

namespace Placement

variable {p q r : Placement}

theorem goesFirst_trans (hpq : p.goesFirst q = true) (hqr : q.goesFirst r = true) :
    p.goesFirst r = true := by
  cases hp : p.alive <;> cases hq : q.alive <;> cases hr : r.alive <;>
    simp only [goesFirst, hp, hq, hr, reduceCtorEq, if_true, if_false, Bool.not_true,
      Bool.not_false, decide_eq_true_eq] at hpq hqr ⊢ <;> omega

theorem goesFirst_total (p q : Placement) : (p.goesFirst q || q.goesFirst p) = true := by
  cases hp : p.alive <;> cases hq : q.alive <;>
    simp [goesFirst, hp, hq, Nat.le_total]

theorem precedes_of_goesFirst (h : p.goesFirst q = true) (hne : p.sequence ≠ q.sequence) :
    p.Precedes q := by
  unfold goesFirst at h
  split at h
  · rename_i halive
    have hle : q.sequence ≤ p.sequence := of_decide_eq_true h
    exact .inr ⟨halive, by omega⟩
  · rename_i hdiffer
    have hp : p.alive = false := by simpa using h
    have hq : q.alive = true := by simpa [hp] using hdiffer
    exact .inl ⟨hp, hq⟩

theorem Precedes.asymm (h : p.Precedes q) : ¬ q.Precedes p := by
  rcases h with ⟨hp, hq⟩ | ⟨heq, hlt⟩
  · simp [Precedes, hp, hq]
  · intro h'
    rcases h' with ⟨hq, hp⟩ | ⟨-, hlt'⟩
    · simp [heq, hq] at hp
    · omega

/-- Whoever is stopped after somebody alive is alive. -/
theorem Precedes.alive (h : p.Precedes q) (hp : p.alive = true) : q.alive = true := by
  rcases h with ⟨-, hq⟩ | ⟨heq, -⟩
  · exact hq
  · exact heq ▸ hp

/-- Instances can stand in this order in one way only. -/
theorem eq_of_perm {l l' : List Placement} (hperm : l.Perm l')
    (h : l.Pairwise Placement.Precedes) (h' : l'.Pairwise Placement.Precedes) : l = l' := by
  refine hperm.eq_of_pairwise ?_ h h'
  exact fun p q _ _ hpq hqp => absurd hqp hpq.asymm

end Placement

namespace Cluster

variable {c c' : Cluster} {request : ScaleDown} {p q : Placement}

theorem Orderly.sequence_ne (h : c.Orderly) (hp : p ∈ c.placements) (hq : q ∈ c.placements)
    (hne : p ≠ q) : p.sequence ≠ q.sequence := by
  have hnodup : (c.placements.map (·.sequence)).Nodup := by
    rw [List.Nodup, List.pairwise_map]
    exact h.increasing.imp fun hlt => Nat.ne_of_lt hlt
  exact fun heq => hne (List.inj_on_of_nodup_map hnodup hp hq heq)

theorem mem_placements_of_mem_eligible (h : p ∈ c.eligible request) : p ∈ c.placements :=
  List.mem_of_mem_filter (List.mem_of_mem_filter h)

section Orderly

variable (h : c.Orderly) (hd : (request.candidates.map (·.id)).Nodup)
include h hd

theorem Orderly.order_perm : (c.order request).Perm (c.eligible request) :=
  (c.order_perm_named request).trans (h.named_perm request.profile hd)

theorem Orderly.pairwise_order : (c.order request).Pairwise Placement.Precedes := by
  have hperm := h.order_perm hd
  have hsorted : (c.order request).Pairwise fun p q => p.goesFirst q = true :=
    @List.pairwise_mergeSort _ Placement.goesFirst (fun _ _ _ => Placement.goesFirst_trans)
      Placement.goesFirst_total _
  have hnodup : (c.order request).Nodup :=
    hperm.nodup_iff.mpr ((h.nodup.filter _).filter _)
  refine (hsorted.and hnodup).imp_of_mem ?_
  intro p q hp hq hboth
  obtain ⟨hgoes, hne⟩ := hboth
  have hp' := mem_placements_of_mem_eligible (hperm.mem_iff.mp hp)
  have hq' := mem_placements_of_mem_eligible (hperm.mem_iff.mp hq)
  exact Placement.precedes_of_goesFirst hgoes (h.sequence_ne hp' hq' hne)

/-- Whom a request stops is settled by the ids of its candidates. -/
theorem Orderly.order_congr {candidates : List Instance}
    (hids : (candidates.map (·.id)).Perm (request.candidates.map (·.id))) :
    c.order { request with candidates } = c.order request := by
  have hd' : (candidates.map (·.id)).Nodup := hids.nodup_iff.mpr hd
  have heligible : c.eligible { request with candidates } = c.eligible request := by
    refine List.filter_congr fun p _ => ?_
    simp only [hids.mem_iff]
  have hperm : (c.order { request with candidates }).Perm (c.order request) :=
    (h.order_perm hd').trans ((List.Perm.of_eq heligible).trans (h.order_perm hd).symm)
  exact Placement.eq_of_perm hperm (h.pairwise_order hd') (h.pairwise_order hd)

/-- Whoever is stopped comes before everybody who may be stopped and is left. -/
theorem Orderly.precedes_of_mem_foremost (hp : p ∈ c.foremost request)
    (hq : q ∈ c.eligible request) (hleft : q ∉ c.foremost request) : p.Precedes q := by
  have hmem : q ∈ c.order request := (h.order_perm hd).mem_iff.mpr hq
  have hsorted := h.pairwise_order hd
  rw [foremost] at hp hleft
  rw [← List.take_append_drop request.count.toNat (c.order request)] at hmem hsorted
  have hdrop := (List.mem_append.mp hmem).resolve_left hleft
  exact (List.pairwise_append.mp hsorted).2.2 p hp q hdrop

/-- As many are gone as the request says, or all that it names if these are fewer. -/
theorem Orderly.length_left :
    (c.placements.filter fun p => p ∉ c.foremost request).length
      + min request.count.toNat (c.eligible request).length = c.placements.length := by
  have hlength : (c.foremost request).length
      = min request.count.toNat (c.eligible request).length := by
    rw [foremost, List.length_take, (h.order_perm hd).length_eq]
  have hcut := countP_filter_not_mem (f := fun _ => true) h.nodup (h.nodup_foremost hd)
    fun p hp => ⟨mem_placements_of_mem_foremost hp, rfl⟩
  simp only [List.countP_true] at hcut
  rw [hlength] at hcut
  exact hcut

theorem Orderly.culled (hc : c' = c.stop (c.foremost request)) : c.Culled request c' := by
  have hplacements : c'.placements = c.placements.filter fun p => p ∉ c.foremost request := by
    rw [hc]
    exact h.placements_stop fun p hp => mem_placements_of_mem_foremost hp
  have hperm := h.order_perm hd
  have hleft : ∀ p, p ∈ c'.placements ↔ p ∈ c.placements ∧ p ∉ c.foremost request := by
    intro p
    rw [hplacements, List.mem_filter, decide_eq_true_eq]
  have hfirst : ∀ p ∈ c.eligible request, p ∉ c'.placements →
      ∀ q ∈ c.eligible request, q ∈ c'.placements → p.Precedes q := by
    intro p hp hgone q hq hin
    have hvictim : p ∈ c.foremost request := by
      by_contra hnot
      exact hgone ((hleft p).mpr ⟨mem_placements_of_mem_eligible hp, hnot⟩)
    exact h.precedes_of_mem_foremost hd hvictim hq ((hleft q).mp hin).2
  constructor
  · exact ⟨c.order request, hperm, h.pairwise_order hd, hplacements⟩
  · rw [hplacements]
    exact h.length_left hd
  · intro p hp hnot
    refine (hleft p).mpr ⟨hp, fun hvictim => hnot ?_⟩
    exact hperm.mem_iff.mp (List.mem_of_mem_take hvictim)
  · exact hfirst
  · intro p hp hgone halive q hq hin
    exact (hfirst p hp hgone q hq hin).alive halive
  · rw [hc]
    rfl
  · rw [hc]
    rfl
  · rw [hc]
    rfl

end Orderly

/-- There is only one order, so it tells who is left. -/
theorem Culled.placements_eq (h : c.Culled request c') (order : List Placement)
    (hperm : order.Perm (c.eligible request)) (hsorted : order.Pairwise Placement.Precedes) :
    c'.placements = c.placements.filter fun p => p ∉ order.take request.count.toNat := by
  obtain ⟨order', hperm', hsorted', heq⟩ := h.exact
  rw [heq, Placement.eq_of_perm (hperm'.trans hperm.symm) hsorted' hsorted]

/-! ## The request -/

/-- A request does to the cluster what it answers, and nothing if it fails. -/
theorem perform_decommission (c : Cluster) (request : ScaleDown) :
    c.perform (.decommission request) = (c.decommission request).toOption.getD c := by
  simp only [perform, collaborators]
  cases c.decommission request <;> rfl

theorem decommission_of_ok {victims : List Placement} (h : c.victims request = .ok victims) :
    c.decommission request = .ok (c.stop victims) := by
  rw [decommission, h, Except.map]

theorem decommission_of_error {e : Failure} (h : c.victims request = .error e) :
    c.decommission request = .error e := by
  rw [decommission, h, Except.map]

/-- **The right instances are stopped**, on the condition that 32 bits hold the number of those that
are named. A request names candidates of different ids, but what it says about them otherwise does
not matter, and neither does their order. Of the instances of its profile that it names, as many are
stopped as it says: those that are not alive first, and then the newest. All others stay as they are
and where they are. A negative count changes nothing. -/
theorem decommission_culls (hc : c.Reachable) (request : ScaleDown)
    (hm : (c.named request.profile request.candidates).length < 2147483648) :
    (0 ≤ request.count → (request.candidates.map (·.id)).Nodup →
      ∃ c', c.decommission request = .ok c' ∧ c.perform (.decommission request) = c' ∧
        c.Culled request c' ∧
        ∀ candidates, (candidates.map (·.id)).Perm (request.candidates.map (·.id)) →
          c.decommission { request with candidates } = .ok c') ∧
    (request.count < 0 →
      c.decommission request = .error .negativeCount ∧
        c.perform (.decommission request) = c) := by
  have h := hc.orderly
  constructor
  · intro hcount hd
    have heq := decommission_of_ok (victims_of_nonneg hm hcount)
    refine ⟨_, heq, ?_, h.culled hd rfl, ?_⟩
    · rw [perform_decommission, heq]
      rfl
    · intro candidates hids
      have horder := h.order_congr hd hids
      rw [← heq, decommission, decommission, victims, victims, horder]
  · intro hneg
    have heq := decommission_of_error (victims_of_neg hm hneg)
    refine ⟨heq, ?_⟩
    rw [perform_decommission, heq]
    rfl

/-- Three instances of one profile, of which the first has died, and one of another. -/
def bereaved : Cluster :=
  ({} : Cluster).run [.add "db" true false, .add "web" true false, .add "web" true false,
    .add "web" true false, .kill "web-1"]

/-- A request that has heard of other things: it names an instance that was never there and one of
another profile, and it takes the dead for the living. -/
def outdated : ScaleDown where
  profile := "web"
  count := 2
  candidates := [{ id := "web-2", profile := "web" }, { id := "web-9", profile := "web" },
    { id := "db-0", profile := "db" }, { id := "web-1", profile := "web", alive := true },
    { id := "web-3", profile := "web", pending := true }]

/-- The dead one goes, and the newest of the others. -/
theorem bereaved_decommission :
    (bereaved.Reachable ∧
        (bereaved.named outdated.profile outdated.candidates).length < 2147483648 ∧
        0 ≤ outdated.count ∧ (outdated.candidates.map (·.id)).Nodup) ∧
      ∃ c', bereaved.decommission outdated = .ok c' ∧
        c'.placements.map (·.id) = ["db-0", "web-2"] := by
  have hc : bereaved.Reachable := ⟨"1.0", _, rfl⟩
  have hd : (outdated.candidates.map (·.id)).Nodup := by decide
  have hm : (bereaved.named outdated.profile outdated.candidates).length < 2147483648 := by decide
  refine ⟨⟨hc, hm, by decide, hd⟩, ?_⟩
  obtain ⟨c', heq, -, hculled, -⟩ := (decommission_culls hc outdated hm).1 (by decide) hd
  refine ⟨c', heq, ?_⟩
  rw [hculled.placements_eq [
    { id := "web-1", profile := "web", sequence := 1 },
    { id := "web-3", profile := "web", alive := true, sequence := 3 },
    { id := "web-2", profile := "web", alive := true, sequence := 2 }] (by decide) (by decide)]
  decide

/-- A request that names every instance of a swarm. -/
def dismissal (n : Nat) (count : Int) : ScaleDown where
  profile := "web"
  count := count
  candidates := (swarm n).instances

theorem nodup_dismissal (n : Nat) (count : Int) :
    ((dismissal n count).candidates.map (·.id)).Nodup := by
  have hids := (reachable_swarm n).orderly.nodup_ids
  rwa [dismissal, instances, List.map_map]

theorem eligible_dismissal (n : Nat) (count : Int) :
    (swarm n).eligible (dismissal n count) = (swarm n).placements := by
  have hprofile : (swarm n).placementsOf (dismissal n count).profile = (swarm n).placements := by
    rw [placementsOf, List.filter_eq_self]
    simp [swarm_eq, dismissal, Placement.create]
  rw [eligible, hprofile, List.filter_eq_self]
  intro p hp
  exact decide_eq_true (List.mem_map_of_mem (List.mem_map_of_mem hp))

/-- A swarm that is counted for no more than the request says is stopped as a whole. -/
theorem decommission_swarm {n : Nat} {count : Int} (hn : wrap32 n ≤ count) :
    ∃ c', (swarm n).decommission (dismissal n count) = .ok c' ∧ c'.placements = [] := by
  have h := (reachable_swarm n).orderly
  have hperm : ((swarm n).order (dismissal n count)).Perm (swarm n).placements :=
    eligible_dismissal n count ▸ h.order_perm (nodup_dismissal n count)
  have hcount : count32 ((swarm n).order (dismissal n count)) = wrap32 n := by
    rw [count32, hperm.length_eq, length_placements_swarm]
  have hvictims : (swarm n).victims (dismissal n count)
      = .ok ((swarm n).order (dismissal n count)) := by
    rw [victims, cut, hcount]
    exact if_neg (Int.not_lt.mpr hn)
  refine ⟨_, decommission_of_ok hvictims, ?_⟩
  rw [h.placements_stop fun p hp => hperm.mem_iff.mp hp, List.filter_eq_nil_iff]
  intro p hp
  simp [hperm.mem_iff.mpr hp]

/-- With more instances than 32 bits can count, all of them are stopped where one should be, and
even where a negative count should be refused. -/
theorem decommission_culls_wrong :
    let c := swarm 2147483648
    (c.Reachable ∧ ((dismissal 2147483648 1).candidates.map (·.id)).Nodup ∧
        c.eligible (dismissal 2147483648 1) = c.placements ∧ c.placements.length = 2147483648) ∧
      (∃ c', c.decommission (dismissal 2147483648 1) = .ok c' ∧ c'.placements = []) ∧
      ∃ c', c.decommission (dismissal 2147483648 (-1)) = .ok c' ∧ c'.placements = [] :=
  ⟨⟨reachable_swarm _, nodup_dismissal _ _, eligible_dismissal _ _, length_placements_swarm _⟩,
    decommission_swarm (by decide), decommission_swarm (by decide)⟩

end Cluster

end FleetScaler
