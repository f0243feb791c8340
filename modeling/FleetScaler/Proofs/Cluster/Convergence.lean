import FleetScaler.Proofs.Cluster.Effect
import FleetScaler.Proofs.Dependencies
import FleetScaler.Proofs.Pass.Commands

/-!
# Passes converge

A pass starts what is missing only where every dependency has its minimum, so it takes several of
them until all profiles have theirs. With each pass the profiles that are one step deeper come to
their minimum, and whoever has it keeps it: the instances that a pass starts are counted although
they are still pending, and settling changes no count. Where no profile awaits itself there is an
end to it, after which passes find everything as it should be.

All of this is on the condition that the counts at the start are 32-bit numbers; then they stay so.
-/

namespace FleetScaler.Cluster

variable {c : Cluster} {d : Document} {r : Requirement} {profile : String} {minimum : Int} {n : Nat}

/-- Nothing happens but passes of the document and settling. -/
def Undisturbed (d : Document) (changes : List Change) : Prop :=
  ∀ x ∈ changes, x = .settle ∨ x = .pass d

/-- The number of passes of a document. -/
def passes (d : Document) (changes : List Change) : Nat := changes.count (.pass d)

/-- The profile has its minimum, neither more nor less. -/
def AtMinimum (d : Document) (c : Cluster) (profile : String) : Prop :=
  d.minimum? profile = some (c.countableCount profile : Int)

/-- A cluster that a document can scale: it has an autoscaler for every profile that has a minimum,
and 32 bits hold the number of its instances. -/
structure Governed (d : Document) (c : Cluster) : Prop where
  orderly : c.Orderly
  inRange : c.InRange d
  scales : ∀ profile, (d.minimum? profile).isSome → c.scales profile = true

/-! ## One pass -/

theorem keeps_unscalable (unscalable : List String) :
    collaborators.Keeps fun c => c.unscalable = unscalable where
  offer _ _ _ h := h
  instances _ _ h := h
  version _ h := h
  create _ _ _ h := h
  destroy _ request c h := by
    rcases destroy_cases c request with ⟨heq, -⟩ | ⟨victims, heq, -⟩
    · rw [heq]
      exact h
    · rw [heq]
      exact h
  note _ _ h := h

theorem unscalable_pass (c : Cluster) (d : Document) : (c.pass d).2.unscalable = c.unscalable :=
  Pass.world_run (keeps_unscalable c.unscalable) d rfl

/-- A profile that is scaled gets its minimum, unless it lacks instances and one of its
dependencies does so, too. -/
theorem assess_cases (c : Cluster) (minimum? : String → Option Int) (hm : r.minimum = some minimum)
    (hs : c.scales r.profile = true) :
    (c.assess minimum? r).outcome ∈ [.satisfied, .scaledUp, .scaledDown] ∨
      (c.assess minimum? r).outcome = .gated ∧ c.countableCount r.profile < minimum ∧
        ∃ q ∈ r.dependencies, c.lags minimum? q = true := by
  simp only [assess, hm, hs, if_true]
  split
  · simp
  · split
    · simp
    · split
      · rename_i hf
        refine .inr ⟨rfl, by omega, _, List.mem_of_find?_eq_some hf, ?_⟩
        exact List.find?_some hf
      · simp

/-- **What a pass does for a profile with a minimum**: either the profile has its minimum
afterwards, or it is as before, lacks instances and awaits a profile that lacks instances. -/
theorem Governed.pass_cases (h : Governed d c) (hd : d.Admissible)
    (hm : d.minimum? profile = some minimum) :
    AtMinimum d (c.pass d).2 profile ∨
      (c.pass d).2.countableCount profile = c.countableCount profile ∧
        c.countableCount profile < minimum ∧ ∃ q, d.Awaits profile q ∧ ¬ AtMinimum d c q := by
  obtain ⟨r, hr, rfl, hmin⟩ := Document.minimum?_eq_some_iff.mp hm
  obtain ⟨hverdicts, -, -, hfulfils⟩ := h.orderly.pass hd h.inRange
  have hmem : c.assess d.minimum? r ∈ (c.pass d).1.verdicts := by
    rw [hverdicts]
    exact List.mem_map_of_mem hr
  have hful := hfulfils _ hmem
  have hscales := h.scales r.profile (by simp [hm])
  rcases assess_cases c d.minimum? hmin hscales with hout | ⟨hgated, hless, q, hq, hlags⟩
  · have hreached := hful.reached hout
    rw [profile_assess] at hreached
    exact .inl hreached
  · have hspared := hful.spared (by simp [hgated])
    rw [profile_assess] at hspared
    refine .inr ⟨countableCount_congr hspared, hless, q, ?_⟩
    unfold lags at hlags
    split at hlags
    · cases hlags
    · rename_i least hleast
      have hlt := of_decide_eq_true hlags
      refine ⟨⟨r, hr, rfl, by simp [Requirement.isManaged, hmin], hq, by simp [hleast]⟩, ?_⟩
      intro hat
      rw [AtMinimum, hleast, Option.some.injEq] at hat
      omega

theorem Governed.pass (h : Governed d c) (hd : d.Admissible) : Governed d (c.pass d).2 where
  orderly := orderly_perform h.orderly (.pass d)
  inRange := by
    intro profile minimum hm
    rcases h.pass_cases hd hm with hat | ⟨hsame, -⟩
    · rw [AtMinimum, hm, Option.some.injEq] at hat
      have hlt := (hd profile minimum hm).2
      omega
    · rw [hsame]
      exact h.inRange profile minimum hm
  scales := by
    intro profile hsome
    rw [Cluster.scales, unscalable_pass]
    exact h.scales profile hsome

theorem Governed.settle (h : Governed d c) : Governed d c.settle.2 where
  orderly := orderly_settle h.orderly
  inRange := by
    intro profile minimum hm
    rw [countableCount_settle]
    exact h.inRange profile minimum hm
  scales := h.scales

/-! ## Level by level -/

/-- The profiles that are less deep than the number have their minimum. -/
def Levelled (d : Document) (n : Nat) (c : Cluster) : Prop :=
  ∀ profile, (d.minimum? profile).isSome → d.Shallow profile n → AtMinimum d c profile

theorem levelled_zero (d : Document) (c : Cluster) : Levelled d 0 c :=
  fun profile _ hshallow => absurd hshallow (Document.not_shallow_zero d profile)

theorem Levelled.settle (h : Levelled d n c) : Levelled d n c.settle.2 := by
  intro profile hsome hshallow
  rw [AtMinimum, countableCount_settle]
  exact h profile hsome hshallow

/-- A pass brings the profiles that are one step deeper to their minimum. -/
theorem Levelled.pass (h : Levelled d n c) (hg : Governed d c) (hd : d.Admissible) :
    Levelled d (n + 1) (c.pass d).2 := by
  intro profile hsome hshallow
  obtain ⟨minimum, hm⟩ := Option.isSome_iff_exists.mp hsome
  rcases hg.pass_cases hd hm with hat | ⟨-, -, q, hawaits, hlacks⟩
  · exact hat
  · exact absurd (h q hawaits.isSome_right (hshallow.of_awaits hawaits)) hlacks

/-- As many levels have their minimum as there have been passes. -/
theorem Levelled.run (hd : d.Admissible) {changes : List Change} (hu : Undisturbed d changes)
    (hg : Governed d c) (h : Levelled d n c) :
    Governed d (c.run changes) ∧ Levelled d (n + passes d changes) (c.run changes) := by
  induction changes generalizing c n with
  | nil => exact ⟨hg, h⟩
  | cons x rest ih =>
      have hrest : Undisturbed d rest := fun y hy => hu y (List.mem_cons_of_mem _ hy)
      rcases hu x List.mem_cons_self with rfl | rfl
      · have hcount : passes d (.settle :: rest) = passes d rest :=
          List.count_cons_of_ne (by simp)
        rw [hcount]
        exact ih hrest hg.settle h.settle
      · have hcount : passes d (.pass d :: rest) = passes d rest + 1 := List.count_cons_self
        have hsum : n + passes d (.pass d :: rest) = n + 1 + passes d rest := by omega
        rw [hsum]
        exact ih hrest (hg.pass hd) (h.pass hg hd)

/-! ## A cluster at rest -/

/-- A cluster that has as many instances of each profile as before has the same instances. -/
theorem Turnover.placements_eq {c' : Cluster} (h : Turnover c c') (hc : c.Orderly)
    (hsame : ∀ profile, c'.placementsOf profile = c.placementsOf profile) :
    c'.placements = c.placements := by
  obtain ⟨kept, new, hp, hkept, -, hnew⟩ := h.instances
  have hmem : ∀ p, p ∈ c'.placements ↔ p ∈ c.placements := by
    intro p
    have hiff : p ∈ c'.placementsOf p.profile ↔ p ∈ c.placementsOf p.profile := by
      rw [hsame]
    simpa [placementsOf] using hiff
  -- whoever is new has a number that was not given before
  have hnone : new = [] := by
    rw [List.eq_nil_iff_forall_not_mem]
    intro p hin
    have hold : p ∈ c.placements := by
      rw [← hmem, hp]
      exact List.mem_append_right _ hin
    have hbelow := hc.below p hold
    have hnext := (hnew p hin).2.2
    omega
  rw [hnone, List.append_nil] at hp
  rw [hp]
  refine hkept.eq_of_length_le ?_
  refine (List.subperm_of_subset hc.nodup ?_).length_le
  intro p hin
  rwa [← hp, hmem]

theorem Governed.outcome_assess (h : Governed d c)
    (hat : ∀ profile, (d.minimum? profile).isSome → AtMinimum d c profile)
    (hr : r ∈ d.requirements) :
    (c.assess d.minimum? r).outcome = if r.isManaged then .satisfied else .unmanaged := by
  cases hm : r.minimum with
  | none => simp [assess, hm, Requirement.isManaged]
  | some minimum =>
      have hmin : d.minimum? r.profile = some minimum := by
        rw [Document.minimum?_of_mem hr, hm]
      have hscales := h.scales r.profile (by simp [hmin])
      have heq := hat r.profile (by simp [hmin])
      rw [AtMinimum, hmin, Option.some.injEq] at heq
      simp [assess, hm, hscales, heq, Requirement.isManaged]

/-- A pass over a cluster whose profiles have their minimum finds just that, and does nothing. -/
theorem Governed.pass_idle (h : Governed d c) (hd : d.Admissible)
    (hat : ∀ profile, (d.minimum? profile).isSome → AtMinimum d c profile) :
    ((c.pass d).1.verdicts.map fun v => (v.profile, v.outcome))
        = d.requirements.map (fun r =>
          (r.profile, if r.isManaged then Outcome.satisfied else .unmanaged)) ∧
      (∀ call ∈ Pass.callsOf collaborators d c, call.command? = none) ∧
      (c.pass d).2.placements = c.placements := by
  obtain ⟨hverdicts, hturnover, hothers, hfulfils⟩ := h.orderly.pass hd h.inRange
  have houtcome : ∀ r ∈ d.requirements, (c.assess d.minimum? r).outcome
      = if r.isManaged then .satisfied else .unmanaged := fun r hr => h.outcome_assess hat hr
  have hspared : ∀ profile, (c.pass d).2.placementsOf profile = c.placementsOf profile := by
    intro profile
    by_cases hin : profile ∈ d.profiles
    · obtain ⟨r, hr, rfl⟩ := List.mem_map.mp hin
      have hmem : c.assess d.minimum? r ∈ (c.pass d).1.verdicts := by
        rw [hverdicts]
        exact List.mem_map_of_mem hr
      have hful := hfulfils _ hmem
      have hout : (c.assess d.minimum? r).outcome
          ∈ [Outcome.unmanaged, .noAutoscaler, .satisfied, .gated] := by
        rw [houtcome r hr]
        split <;> simp
      have hsame := hful.spared hout
      rwa [profile_assess] at hsame
    · exact hothers profile hin
  refine ⟨?_, ?_, hturnover.placements_eq h.orderly hspared⟩
  · rw [hverdicts, List.map_map]
    refine List.map_congr_left fun r hr => ?_
    simp only [Function.comp_apply, profile_assess, houtcome r hr]
  · intro call hcall
    cases hcommand : call.command? with
    | none => rfl
    | some profile =>
        obtain ⟨v, hv, -, hout⟩ := (Pass.callsOf_lawful collaborators c hd).2 call hcall _ hcommand
        have hv' : v ∈ (c.pass d).1.verdicts := hv
        rw [hverdicts] at hv'
        obtain ⟨r, hr, rfl⟩ := List.mem_map.mp hv'
        rw [houtcome r hr] at hout
        split at hout <;> simp at hout

/-- **Passes converge where no profile awaits itself**, on the condition that the counts at the
start are 32-bit numbers. After some passes every profile that is less deep than their number has
its minimum, and keeps it. After as many passes as there are profiles with a minimum, a pass finds
all of them satisfied, gives no command and leaves every instance. Out of range a profile may be far
from its minimum after them; a case of it stands at the end of this module. -/
theorem passes_converge (hc : c.Reachable) (hd : d.Admissible) (hr : c.InRange d)
    (hacyclic : d.Acyclic)
    (hs : ∀ profile, (d.minimum? profile).isSome → c.scales profile = true) :
    (∀ first later, Undisturbed d (first ++ later) → ∀ profile,
      (d.minimum? profile).isSome → d.Shallow profile (passes d first) →
        AtMinimum d (c.run (first ++ later)) profile) ∧
    ∀ changes, Undisturbed d changes → d.managed.length ≤ passes d changes →
      let now := c.run changes
      ((now.pass d).1.verdicts.map fun v => (v.profile, v.outcome))
          = d.requirements.map (fun r =>
            (r.profile, if r.isManaged then Outcome.satisfied else .unmanaged)) ∧
        (∀ call ∈ Pass.callsOf collaborators d now, call.command? = none) ∧
        (now.pass d).2.placements = now.placements := by
  have hg : Governed d c := ⟨hc.orderly, hr, hs⟩
  have hlevels : ∀ changes, Undisturbed d changes →
      Governed d (c.run changes) ∧ Levelled d (passes d changes) (c.run changes) := by
    intro changes hu
    have hrun := Levelled.run hd hu hg (levelled_zero d c)
    rwa [Nat.zero_add] at hrun
  refine ⟨?_, ?_⟩
  · intro first later hu profile hsome hshallow
    have hle : passes d first ≤ passes d (first ++ later) := by
      rw [passes, passes, List.count_append]
      omega
    exact (hlevels _ hu).2 profile hsome (hshallow.mono hle)
  · intro changes hu hlong
    obtain ⟨hgoverned, hlevelled⟩ := hlevels changes hu
    refine hgoverned.pass_idle hd fun profile hsome => ?_
    exact hlevelled profile hsome ((hacyclic.shallow hsome).mono hlong)

/-- Three profiles, of which each awaits the next. -/
def tiers : Document where
  requirements := [
    { profile := "frontend", minimum := some 2, dependencies := ["store", "ghost"] },
    { profile := "store", minimum := some 1, dependencies := ["log"] },
    { profile := "log", minimum := some 1 }]
  distinct := by decide

/-- A cluster with a dead instance and one that nobody asks for. -/
def derelict : Cluster := ({} : Cluster).run [.add "log" false false, .add "ghost" true false]

/-- As many passes as there are tiers. -/
def rounds : List Change := [.pass tiers, .settle, .pass tiers, .pass tiers, .settle]

/-- The tiers come up from the last to the first. -/
theorem tiers_converge :
    (derelict.Reachable ∧ tiers.Admissible ∧ derelict.InRange tiers ∧ tiers.Acyclic ∧
        ∀ profile, (tiers.minimum? profile).isSome → derelict.scales profile = true) ∧
      AtMinimum tiers (derelict.run rounds) "frontend" ∧
      ((derelict.run rounds).pass tiers).2.placements = (derelict.run rounds).placements := by
  have hc : derelict.Reachable := ⟨"1.0", _, rfl⟩
  have hd : tiers.Admissible := by decide
  have hr : derelict.InRange tiers := inRange_of_length (by decide) tiers
  have hacyclic : tiers.Acyclic := Document.acyclic_of_rank String.length (by decide)
  have hs : ∀ profile, (tiers.minimum? profile).isSome → derelict.scales profile = true :=
    fun _ _ => by simp [scales, derelict, perform, add]
  have hu : Undisturbed tiers rounds := by simp [Undisturbed, rounds]
  have hpasses : passes tiers rounds = 3 := by decide
  obtain ⟨hlevels, hrest⟩ := passes_converge hc hd hr hacyclic hs
  refine ⟨⟨hc, hd, hr, hacyclic, hs⟩, ?_, (hrest rounds hu (by decide)).2.2⟩
  have hshallow : tiers.Shallow "frontend" 3 := hacyclic.shallow (by decide)
  exact hlevels rounds [] hu "frontend" (by decide) (hpasses ▸ hshallow)

/-- With one pass less, the first of the tiers still waits. -/
example : (derelict.run [.pass tiers, .pass tiers]).countableCount "frontend" = 0 := by decide

theorem not_atMinimum_swarm {n : Nat} (hn : 0 < wrap32 (0 - wrap32 n)) :
    ¬ AtMinimum disbanded ((swarm n).run [.pass disbanded]) "web" := by
  intro hat
  have hminimum : disbanded.minimum? "web" = some 0 := by decide
  have hcount := (pass_swarm hn).2
  rw [AtMinimum, hminimum, run_cons, run_nil, Option.some.injEq] at hat
  simp only [perform] at hat
  omega

/-- With more instances than 32 bits can count, a profile that awaits nobody does not have its
minimum after a pass. -/
theorem passes_converge_wrong :
    let c := swarm 2147483649
    (c.Reachable ∧ disbanded.Admissible ∧ disbanded.Acyclic ∧
        ∀ profile, (disbanded.minimum? profile).isSome → c.scales profile = true) ∧
      (Undisturbed disbanded [.pass disbanded] ∧ (disbanded.minimum? "web").isSome ∧
        disbanded.Shallow "web" (passes disbanded [.pass disbanded])) ∧
      ¬ AtMinimum disbanded (c.run [.pass disbanded]) "web" := by
  have hacyclic : disbanded.Acyclic := Document.acyclic_of_rank String.length (by decide)
  have hpasses : passes disbanded [.pass disbanded] = 1 := by decide
  have hsome : (disbanded.minimum? "web").isSome := by decide
  have hshallow : disbanded.Shallow "web" 1 := hacyclic.shallow hsome
  exact ⟨⟨reachable_swarm _, by decide, hacyclic, fun profile _ => scales_swarm _ profile⟩,
    ⟨by simp [Undisturbed], hsome, hpasses ▸ hshallow⟩, not_atMinimum_swarm (by decide)⟩

end FleetScaler.Cluster
