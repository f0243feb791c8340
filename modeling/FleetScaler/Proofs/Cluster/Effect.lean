import FleetScaler.Proofs.Cluster.Judgement
import FleetScaler.Proofs.Pass.Reference

/-!
# What a pass does to a cluster

A pass changes the cluster while it is still asking about it. All the same each of its decisions is
the one that the cluster before the pass calls for: a command touches the instances of one profile,
and by then the pass has heard about that profile and does not ask again. So the verdicts can be
told from the cluster before, requirement by requirement and in any order. The commands do what
they say, since the instances that a pass offers to stop are all still there.

Counts are 32-bit numbers, so all of this is on the condition that 32 bits hold the number of
instances of each profile that has a minimum. With more of them a pass goes by a wrong number, and
may start instances of a profile that has far too many.
-/

namespace FleetScaler

namespace Cluster

open Pass (judge judgeAll)

/-! ## The verdicts that a cluster calls for -/

/-- The profile has a minimum and has not reached it. -/
def lags (c : Cluster) (minimum? : String → Option Int) (profile : String) : Bool :=
  match minimum? profile with
  | none => false
  | some minimum => c.countableCount profile < minimum

/-- The verdict on a requirement, from the instances of the cluster and the minimums alone. -/
def assess (c : Cluster) (minimum? : String → Option Int) (r : Requirement) : Verdict :=
  match r.minimum with
  | none => { profile := r.profile, outcome := .unmanaged }
  | some desired =>
    if c.scales r.profile then
      let observed : Int := c.countableCount r.profile
      let v : Verdict := { profile := r.profile, desired, observed, delta := desired - observed }
      if desired < observed then { v with outcome := .scaledDown }
      else if desired = observed then { v with outcome := .satisfied }
      else
        match r.dependencies.find? (c.lags minimum?) with
        | some dependency => { v with outcome := .gated, blocking := dependency }
        | none => { v with outcome := .scaledUp }
    else { profile := r.profile, outcome := .noAutoscaler, desired }

theorem profile_assess (c : Cluster) (minimum? : String → Option Int) (r : Requirement) :
    (c.assess minimum? r).profile = r.profile := by
  unfold assess
  split
  · rfl
  · split
    · dsimp only
      split
      · rfl
      · split
        · rfl
        · split <;> rfl
    · rfl

/-- The counts that a pass of the document takes are 32-bit numbers: no profile that has a minimum
has more instances than that. -/
def InRange (c : Cluster) (d : Document) : Prop :=
  ∀ profile minimum, d.minimum? profile = some minimum → c.countableCount profile < 2147483648

/-! ## What becomes of the instances -/

/-- Some countable instances of a cluster were stopped and others started. Those that are left are
as they were and in their order; the new ones come after them, are pending and have new numbers. -/
structure Turnover (c c' : Cluster) : Prop where
  nextSequence : c.nextSequence ≤ c'.nextSequence
  instances : ∃ kept new, c'.placements = kept ++ new ∧ kept.Sublist c.placements ∧
    (∀ p ∈ c.placements, p.isCountable = false → p ∈ kept) ∧
    ∀ p ∈ new, p.alive = false ∧ p.pending = true ∧ c.nextSequence ≤ p.sequence

/-- A cluster has become what the verdict says. -/
structure Fulfils (d : Document) (v : Verdict) (c c' : Cluster) : Prop where
  sound : v.outcome ≠ .failed
  reached : v.outcome ∈ [.satisfied, .scaledUp, .scaledDown] →
    d.minimum? v.profile = some (c'.countableCount v.profile : Int)
  spared : v.outcome ∈ [.unmanaged, .noAutoscaler, .satisfied, .gated] →
    c'.placementsOf v.profile = c.placementsOf v.profile

variable {c c' c'' before : Cluster} {d : Document} {r : Requirement} {v : Verdict}
  {s s' : PassState Cluster}

theorem turnover_of_eq (hp : c'.placements = c.placements)
    (hn : c'.nextSequence = c.nextSequence) : Turnover c c' where
  nextSequence := by omega
  instances := ⟨c.placements, [], by simp [hp], List.Sublist.refl _, fun _ hin _ => hin, by simp⟩

theorem Turnover.trans (h : Turnover c c') (h' : Turnover c' c'') : Turnover c c'' where
  nextSequence := Nat.le_trans h.nextSequence h'.nextSequence
  instances := by
    obtain ⟨kept, new, hp, hkept, hdead, hnew⟩ := h.instances
    obtain ⟨kept', new', hp', hkept', hdead', hnew'⟩ := h'.instances
    rw [hp] at hkept'
    obtain ⟨old, young, rfl, hold, hyoung⟩ := List.sublist_append_iff.mp hkept'
    refine ⟨old, young ++ new', by simp [hp'], hold.trans hkept, ?_, ?_⟩
    · intro p hmem hcount
      have hin : p ∈ c'.placements := by
        rw [hp]
        exact List.mem_append_left _ (hdead p hmem hcount)
      rcases List.mem_append.mp (hdead' p hin hcount) with ho | hy
      · exact ho
      · -- whoever was started is countable
        have hpending := (hnew p (hyoung.subset hy)).2.1
        simp [Instance.isCountable, hpending] at hcount
    · intro p hmem
      rcases List.mem_append.mp hmem with hy | hn
      · exact hnew p (hyoung.subset hy)
      · obtain ⟨halive, hpending, hle⟩ := hnew' p hn
        exact ⟨halive, hpending, Nat.le_trans h.nextSequence hle⟩

theorem turnover_provision (c : Cluster) (request : ScaleUp) :
    Turnover c (c.provision request) where
  nextSequence := Nat.le_add_right _ _
  instances := ⟨c.placements, started request c.nextSequence, rfl, List.Sublist.refl _,
    fun _ hin _ => hin, fun _ hin => (mem_started hin).2⟩

theorem Stops.turnover {profile : String} {n : Nat} {stopped : List Placement}
    (h : c.Stops profile n stopped c') : Turnover c c' where
  nextSequence := by
    have := h.nextSequence
    omega
  instances := by
    refine ⟨c'.placements, [], by simp, ?_, ?_, by simp⟩
    · rw [h.left]
      exact List.filter_sublist
    · intro p hp hcount
      have hin : p ∉ stopped := by
        intro hs
        have hyes := (h.mem p hs).2.2
        rw [hcount] at hyes
        cases hyes
      rw [h.left]
      exact List.mem_filter.mpr ⟨hp, by simp [hin]⟩

/-- Only the instances of the profile that the verdict is about matter to it. -/
theorem Fulfils.congr {b b' : Cluster} (h : Fulfils d v c c')
    (hc : b.placementsOf v.profile = c.placementsOf v.profile)
    (hc' : b'.placementsOf v.profile = c'.placementsOf v.profile) : Fulfils d v b b' where
  sound := h.sound
  reached ho := by
    rw [countableCount_congr hc']
    exact h.reached ho
  spared ho := by
    rw [hc, hc']
    exact h.spared ho

/-! ## The pass sees the cluster as it was before -/

/-- What a pass would hear about any profile is what the cluster had before the pass. -/
structure Sees (before : Cluster) (d : Document) (s : PassState Cluster) : Prop where
  minimums : ∀ profile, s.lookup.minimum? profile = d.minimum? profile
  heard : ∀ profile, heard s profile = before.countables profile
  unscalable : s.world.unscalable = before.unscalable

theorem sees_init (c : Cluster) (d : Document) : Sees c d { world := c, lookup := d } :=
  ⟨fun _ => rfl, fun _ => rfl, rfl⟩

theorem Sees.asks (h : Sees before d s) (ha : Asks s s') : Sees before d s' where
  minimums profile := (ha.minimums profile).trans (h.minimums profile)
  heard profile := (ha.heard profile).trans (h.heard profile)
  unscalable := (unscalable_of_bare ha.world).trans h.unscalable

/-- **A command shows in no later answer**: it touches one profile, about which the pass knows. -/
theorem Sees.command (h : Sees before d s) {profile : String} {instances : List Instance}
    (hk : s.answers.lookup profile = some instances)
    (ho : ∀ other, other ≠ profile → c.placementsOf other = s.world.placementsOf other)
    (hu : c.unscalable = s.world.unscalable) : Sees before d { s with world := c } where
  minimums := h.minimums
  heard other := by
    rw [← h.heard other, Cluster.heard, Cluster.heard]
    by_cases he : other = profile
    · subst he
      simp only [hk, Option.getD_some]
    · rw [countables_congr (ho other he)]
  unscalable := hu.trans h.unscalable

theorem Sees.length_heard (h : Sees before d s) (profile : String) :
    (Cluster.heard s profile).length = before.countableCount profile := by
  rw [h.heard, length_countables]

/-- What a pass hears about can be counted. -/
theorem Sees.count32_heard (h : Sees before d s) (hr : before.InRange d) {profile : String}
    {minimum : Int} (hm : d.minimum? profile = some minimum) :
    count32 (Cluster.heard s profile) = before.countableCount profile := by
  have hlength := h.length_heard profile
  have hcount := hr profile minimum hm
  rw [count32_of_lt (by omega), hlength]

theorem Sees.lagging (h : Sees before d s) (hr : before.InRange d) :
    lagging s = before.lags d.minimum? := by
  funext profile
  rw [Cluster.lagging, h.minimums, lags]
  cases hm : d.minimum? profile with
  | none => rfl
  | some minimum => rw [h.count32_heard hr hm]

theorem Sees.scales (h : Sees before d s) (profile : String) :
    s.world.scales profile = before.scales profile := by
  rw [Cluster.scales, h.unscalable, Cluster.scales]

/-- A difference of 32-bit counts does not wrap around. -/
theorem Sees.shortfall (h : Sees before d s) (hd : d.Admissible) (hr : before.InRange d)
    {profile : String} {minimum : Int} (hm : d.minimum? profile = some minimum) :
    shortfall s profile minimum = minimum - before.countableCount profile := by
  obtain ⟨hlow, hhigh⟩ := hd profile minimum hm
  have hcount := hr profile minimum hm
  rw [Cluster.shortfall, h.count32_heard hr hm]
  exact wrap32_of_range (by omega) (by omega)

theorem Sees.findings (h : Sees before d s) (hd : d.Admissible) (hr : before.InRange d)
    {profile : String} {minimum : Int} (hm : d.minimum? profile = some minimum) :
    findings s profile minimum =
      { profile, desired := minimum, observed := before.countableCount profile
        delta := minimum - before.countableCount profile } := by
  rw [Cluster.findings, h.shortfall hd hr hm, h.count32_heard hr hm]

/-- What is too many can be stopped. -/
theorem Sees.surplus (h : Sees before d s) (hd : d.Admissible) (hr : before.InRange d)
    {profile : String} {minimum : Int} (hm : d.minimum? profile = some minimum)
    (hneg : Cluster.shortfall s profile minimum < 0) :
    ∃ n : Nat, (n : Int) = before.countableCount profile - minimum ∧
      surplus s profile minimum
        = { profile, count := n, candidates := before.countables profile } := by
  obtain ⟨hlow, hhigh⟩ := hd profile minimum hm
  have hcount := hr profile minimum hm
  have hdelta := h.shortfall hd hr hm
  have hwrap : wrap32 (-Cluster.shortfall s profile minimum)
      = before.countableCount profile - minimum := by
    rw [hdelta, wrap32_of_range (by omega) (by omega)]
    omega
  obtain ⟨n, hn⟩ := Int.eq_ofNat_of_zero_le (a := before.countableCount profile - minimum)
    (by omega)
  refine ⟨n, hn.symm, ?_⟩
  rw [Cluster.surplus, hwrap, h.heard, hn]

/-! ## One judgement -/

/-- What comes of judging one requirement in a pass that sees the cluster as it was before. -/
structure Carried (before : Cluster) (d : Document) (r : Requirement) (s : PassState Cluster)
    (v : Verdict) (s' : PassState Cluster) : Prop where
  verdict : v = before.assess d.minimum? r
  sees : Sees before d s'
  turnover : Turnover s.world s'.world
  others : ∀ other, other ≠ r.profile →
    s'.world.placementsOf other = s.world.placementsOf other
  fulfils : Fulfils d v s.world s'.world

/-- A verdict that comes of asking alone. -/
theorem Sees.carried_asks (h : Sees before d s) (ha : Asks s s')
    (hv : v = before.assess d.minimum? r) (hf : v.outcome ≠ .failed)
    (hr : v.outcome ∈ [.satisfied, .scaledUp, .scaledDown] →
      d.minimum? v.profile = some (before.countableCount v.profile : Int))
    (hsame : s.world.placementsOf v.profile = before.placementsOf v.profile) :
    Carried before d r s v s' where
  verdict := hv
  sees := h.asks ha
  turnover := turnover_of_eq (placements_of_bare ha.world) (nextSequence_of_bare ha.world)
  others other _ := placementsOf_of_bare ha.world other
  fulfils := by
    have hnow := placementsOf_of_bare ha.world v.profile
    refine ⟨hf, fun ho => ?_, fun _ => hnow⟩
    rw [countableCount_congr (hnow.trans hsame)]
    exact hr ho

/-- **Judging a requirement** comes to the verdict that the cluster before the pass calls for, and
makes that verdict true. -/
theorem Sees.carried (h : Sees before d s) (hd : d.Admissible) (hr : before.InRange d)
    (hmem : r ∈ d.requirements) (ho : s.world.Orderly)
    (hsame : s.world.placementsOf r.profile = before.placementsOf r.profile)
    (hj : Judged r s v s') : Carried before d r s v s' := by
  have hminimum := Document.minimum?_of_mem hmem
  have hscales := h.scales r.profile
  cases hj with
  | unmanaged hm =>
      exact h.carried_asks (Asks.refl s) (by simp [assess, hm]) (by simp) (by simp) hsame
  | noAutoscaler hm hs ha =>
      rw [hscales] at hs
      exact h.carried_asks ha (by simp [assess, hm, hs]) (by simp) (by simp) hsame
  | @satisfied minimum _ hm hs hzero ha =>
      rw [hm] at hminimum
      rw [hscales] at hs
      rw [h.shortfall hd hr hminimum] at hzero
      have heq : minimum = before.countableCount r.profile := by omega
      rw [h.findings hd hr hminimum]
      refine h.carried_asks ha ?_ (by simp) (fun _ => ?_) hsame
      · simp [assess, hm, hs, ← heq]
      · rw [hminimum, heq]
  | @gated minimum dependency _ hm hs hpos hf ha =>
      rw [hm] at hminimum
      rw [hscales] at hs
      rw [h.shortfall hd hr hminimum] at hpos
      rw [h.lagging hr] at hf
      have hless : ¬ minimum < before.countableCount r.profile := by omega
      have hne : ¬ minimum = before.countableCount r.profile := by omega
      rw [h.findings hd hr hminimum]
      refine h.carried_asks ha ?_ (by simp) (by simp) hsame
      simp [assess, hm, hs, hless, hne, hf]
  | @grown minimum request s₁ hm hs hpos hf ha hk hp hc =>
      rw [hm] at hminimum
      rw [hscales] at hs
      rw [h.shortfall hd hr hminimum] at hpos hc
      rw [h.lagging hr] at hf
      have hless : ¬ minimum < before.countableCount r.profile := by omega
      have hne : ¬ minimum = before.countableCount r.profile := by omega
      have hothers : ∀ other, other ≠ r.profile →
          (s₁.world.provision request).placementsOf other = s₁.world.placementsOf other :=
        fun other hne => placementsOf_provision_ne s₁.world request (hp ▸ hne)
      -- what was missing has been started
      have hcount : ((s₁.world.provision request).countableCount r.profile : Int) = minimum := by
        have hself := countableCount_provision_self s₁.world request
        have hbefore : s₁.world.countableCount r.profile = before.countableCount r.profile :=
          countableCount_congr ((placementsOf_of_bare ha.world _).trans hsame)
        rw [hp, hbefore] at hself
        rw [hself]
        omega
      rw [h.findings hd hr hminimum]
      refine ⟨?_, ?_, ?_, ?_, ?_⟩
      · simp [assess, hm, hs, hless, hne, hf]
      · exact (h.asks ha).command hk hothers rfl
      · exact (turnover_of_eq (placements_of_bare ha.world) (nextSequence_of_bare ha.world)).trans
          (turnover_provision s₁.world request)
      · intro other ho
        exact (hothers other ho).trans (placementsOf_of_bare ha.world other)
      · refine ⟨by simp, fun _ => ?_, by simp⟩
        rw [hminimum, hcount]
  | @shrunk minimum s₁ after hm hs hneg ha hk hc =>
      rw [hm] at hminimum
      rw [hscales] at hs
      obtain ⟨n, hn, hsurplus⟩ := h.surplus hd hr hminimum hneg
      rw [h.shortfall hd hr hminimum] at hneg
      -- the instances that the pass offers to stop are all still there
      have hnow : s₁.world.placementsOf r.profile = before.placementsOf r.profile :=
        (placementsOf_of_bare ha.world _).trans hsame
      have ho₁ : s₁.world.Orderly :=
        orderly_of_eq ho (placements_of_bare ha.world) (nextSequence_of_bare ha.world)
      have hle : n ≤ s₁.world.countableCount r.profile := by
        have hlow := (hd r.profile minimum hminimum).1
        rw [countableCount_congr hnow]
        omega
      have hshort : s₁.world.countableCount r.profile < 2147483648 := by
        rw [countableCount_congr hnow]
        exact hr r.profile minimum hminimum
      obtain ⟨c', stopped, heq, hstops⟩ := ho₁.destroy_countables hle hshort
      rw [hsurplus, ← countables_congr hnow, heq] at hc
      have hafter : c' = after := (Prod.mk.inj hc).2
      subst hafter
      have hcount : (c'.countableCount r.profile : Int) = minimum := by
        have hsum := hstops.countableCount ho₁
        rw [countableCount_congr hnow] at hsum
        omega
      have hless : minimum < before.countableCount r.profile := by omega
      rw [h.findings hd hr hminimum]
      refine ⟨?_, ?_, ?_, ?_, ?_⟩
      · simp [assess, hm, hs, hless]
      · exact (h.asks ha).command hk (fun other ho => hstops.placementsOf_ne ho)
          hstops.unscalable
      · exact (turnover_of_eq (placements_of_bare ha.world) (nextSequence_of_bare ha.world)).trans
          hstops.turnover
      · intro other ho
        exact (hstops.placementsOf_ne ho).trans (placementsOf_of_bare ha.world other)
      · refine ⟨by simp, fun _ => ?_, by simp⟩
        rw [hminimum, hcount]
  | refused hm hs hneg hc ha =>
      rw [hm] at hminimum
      obtain ⟨n, hn, hsurplus⟩ := h.surplus hd hr hminimum hneg
      rw [hsurplus] at hc
      exact absurd hc (by simp)

/-! ## A whole pass -/

/-- Requirements of different profiles do not get in each other's way. -/
theorem Sees.carried_all (hd : d.Admissible) (hr : before.InRange d) {rs : List Requirement}
    (hmem : ∀ r ∈ rs, r ∈ d.requirements) (hdistinct : (profilesOf rs).Nodup)
    (h : Sees before d s) (ho : s.world.Orderly)
    (hsame : ∀ r ∈ rs, s.world.placementsOf r.profile = before.placementsOf r.profile) :
    let out := judgeAll collaborators d rs s
    out.1 = rs.map (before.assess d.minimum?) ∧
      Turnover s.world out.2.world ∧
      (∀ other, other ∉ profilesOf rs →
        out.2.world.placementsOf other = s.world.placementsOf other) ∧
      ∀ v ∈ out.1, Fulfils d v before out.2.world := by
  induction rs generalizing s with
  | nil => exact ⟨rfl, turnover_of_eq rfl rfl, fun _ _ => rfl, by simp [judgeAll]⟩
  | cons r rest ih =>
      obtain ⟨hr', hrest⟩ := List.nodup_cons.mp hdistinct
      have hfirst := hsame r (by simp)
      have hone := h.carried hd hr (hmem r (by simp)) ho hfirst (judged_judge d r s)
      have hkept : ∀ q ∈ rest, (judge collaborators d r s).2.world.placementsOf q.profile
          = before.placementsOf q.profile := by
        intro q hq
        have hne : q.profile ≠ r.profile := fun he => hr' (List.mem_map.mpr ⟨q, hq, he⟩)
        exact (hone.others q.profile hne).trans (hsame q (List.mem_cons_of_mem _ hq))
      obtain ⟨hverdicts, hturnover, hothers, hfulfils⟩ :=
        ih (fun q hq => hmem q (List.mem_cons_of_mem _ hq)) hrest hone.sees
          (Pass.world_judge keeps_orderly d r ho) hkept
      have hname : (judge collaborators d r s).1.profile = r.profile := by
        rw [hone.verdict]
        exact profile_assess before d.minimum? r
      refine ⟨?_, hone.turnover.trans hturnover, ?_, ?_⟩
      · simp only [judgeAll, List.map_cons, ← hone.verdict, hverdicts]
      · intro other hnot
        simp only [List.map_cons, List.mem_cons, not_or] at hnot
        exact (hothers other hnot.2).trans (hone.others other hnot.1)
      · intro v hv
        rcases List.mem_cons.mp hv with rfl | hv'
        · -- the rest of the pass leaves the profile alone
          refine hone.fulfils.congr ?_ ?_
          · rw [hname]
            exact hfirst.symm
          · rw [hname]
            exact hothers r.profile hr'
        · exact hfulfils v hv'

/-- A pass comes to the verdicts that the cluster calls for, and makes them true, if its counts are
in range. -/
theorem Orderly.pass (hc : c.Orderly) (hd : d.Admissible) (hr : c.InRange d) :
    (c.pass d).1.verdicts = d.requirements.map (c.assess d.minimum?) ∧
      Turnover c (c.pass d).2 ∧
      (∀ profile, profile ∉ d.profiles →
        (c.pass d).2.placementsOf profile = c.placementsOf profile) ∧
      ∀ v ∈ (c.pass d).1.verdicts, Fulfils d v c (c.pass d).2 := by
  obtain ⟨hverdicts, hturnover, hothers, hfulfils⟩ :=
    (sees_init c d).carried_all hd hr (fun _ h => h) d.distinct hc fun _ _ => rfl
  -- the last log record makes no difference
  have hlast : (c.pass d).2.bare
      = (judgeAll collaborators d d.requirements { world := c, lookup := d }).2.world.bare := rfl
  refine ⟨hverdicts, ?_, ?_, ?_⟩
  · exact hturnover.trans (turnover_of_eq (placements_of_bare hlast) (nextSequence_of_bare hlast))
  · exact hothers
  · intro v hv
    exact (hfulfils v hv).congr rfl (placementsOf_of_bare hlast v.profile)

theorem inRange_of_length (h : c.placements.length < 2147483648) (d : Document) :
    c.InRange d := by
  intro profile _ _
  have hle : c.countableCount profile ≤ c.placements.length := by
    rw [countableCount, ← List.length_map Placement.toInstance]
    exact List.countP_le_length
  omega

theorem InRange.perm {d' : Document} (hr : c.InRange d)
    (h : d'.requirements.Perm d.requirements) : c.InRange d' := by
  intro profile minimum hm
  rw [Document.minimum?_perm h] at hm
  exact hr profile minimum hm

/-- **What a pass does to a cluster**, on the condition that its counts are 32-bit numbers. Every
verdict is the one that the cluster before the pass calls for, in whatever order the document lists
its requirements. What a verdict says is true afterwards. Instances of profiles that the document
does not mention stay as they are, and so do dead ones; whoever else is left is as before and where
it was, and whoever is new is pending. Out of range a pass may do the opposite; a case of it stands
at the end of this module. -/
theorem pass_effect (hc : c.Reachable) (hd : d.Admissible) (hr : c.InRange d) :
    (c.pass d).1.verdicts = d.requirements.map (c.assess d.minimum?) ∧
      (∀ d' : Document, d'.requirements.Perm d.requirements →
        (c.pass d').1.verdicts = d'.requirements.map (c.assess d.minimum?)) ∧
      (∀ v ∈ (c.pass d).1.verdicts, Fulfils d v c (c.pass d).2) ∧
      (∀ profile, profile ∉ d.profiles →
        (c.pass d).2.placementsOf profile = c.placementsOf profile) ∧
      Turnover c (c.pass d).2 := by
  obtain ⟨hverdicts, hturnover, hothers, hfulfils⟩ := hc.orderly.pass hd hr
  refine ⟨hverdicts, ?_, hfulfils, hothers, hturnover⟩
  intro d' hperm
  have hpass := (hc.orderly.pass (hd.perm hperm) (hr.perm hperm)).1
  rw [hpass, Document.minimum?_perm hperm]

/-- A profile that waits for three others, of which one has no minimum. -/
def staffing : Document where
  requirements := [
    { profile := "front", minimum := some 2, dependencies := ["log", "store", "queue"] },
    { profile := "store", minimum := some 1 },
    { profile := "queue", minimum := some 1, dependencies := ["log"] },
    { profile := "log", dependencies := ["front"] }]
  distinct := by decide

/-- A cluster with three instances of one profile, a dead one of another, and one that no document
mentions. -/
def crowded : Cluster :=
  ({} : Cluster).run [.add "store" true false, .add "store" false true, .add "front" true false,
    .add "store" true false, .kill "front-2", .add "stranger" true false]

/-- A pass over a crowd stops the newest, starts what is missing and waits for nobody. -/
theorem crowded_pass :
    (crowded.Reachable ∧ staffing.Admissible ∧ crowded.InRange staffing) ∧
      (crowded.pass staffing).1.verdicts =
        [{ profile := "front", outcome := .gated, desired := 2, delta := 2, blocking := "queue" },
         { profile := "store", outcome := .scaledDown, desired := 1, observed := 3, delta := -2 },
         { profile := "queue", outcome := .scaledUp, desired := 1, delta := 1 },
         { profile := "log", outcome := .unmanaged }] ∧
      (crowded.pass staffing).2.countableCount "store" = 1 ∧
      (crowded.pass staffing).2.placementsOf "front" = crowded.placementsOf "front" ∧
      (crowded.pass staffing).2.placementsOf "stranger" = crowded.placementsOf "stranger" := by
  have hc : crowded.Reachable := ⟨"1.0", _, rfl⟩
  have hd : staffing.Admissible := by decide
  have hr : crowded.InRange staffing := inRange_of_length (by decide) staffing
  obtain ⟨hverdicts, -, hfulfils, hothers, -⟩ := pass_effect hc hd hr
  have hlist : (crowded.pass staffing).1.verdicts =
      [{ profile := "front", outcome := .gated, desired := 2, delta := 2, blocking := "queue" },
       { profile := "store", outcome := .scaledDown, desired := 1, observed := 3, delta := -2 },
       { profile := "queue", outcome := .scaledUp, desired := 1, delta := 1 },
       { profile := "log", outcome := .unmanaged }] := by
    rw [hverdicts]
    decide
  rw [hlist] at hfulfils
  refine ⟨⟨hc, hd, hr⟩, hlist, ?_, ?_, hothers "stranger" (by decide)⟩
  · have hstore := (hfulfils _ (List.mem_cons_of_mem _ List.mem_cons_self)).reached (by decide)
    have hminimum : staffing.minimum? "store" = some 1 := by decide
    rw [hminimum, Option.some.injEq] at hstore
    exact (Int.ofNat_inj.mp hstore).symm
  · exact (hfulfils _ List.mem_cons_self).spared (by decide)

/-- A document that asks for no instances of a profile. -/
def disbanded : Document where
  requirements := [{ profile := "web", minimum := some 0 }]
  distinct := by decide

/-- A swarm that is counted for less than nothing is made larger. -/
theorem pass_swarm {n : Nat} (hn : 0 < wrap32 (0 - wrap32 n)) :
    ((swarm n).pass disbanded).1.verdicts =
        [{ profile := "web", outcome := .scaledUp, observed := wrap32 n
           delta := wrap32 (0 - wrap32 n) }] ∧
      ((swarm n).pass disbanded).2.countableCount "web" = n + (wrap32 (0 - wrap32 n)).toNat := by
  let r : Requirement := { profile := "web", minimum := some 0 }
  let s : PassState Cluster := { world := swarm n, lookup := disbanded }
  have hcount : count32 (Cluster.heard s r.profile) = wrap32 n := by
    rw [count32, (sees_init (swarm n) disbanded).length_heard, countableCount_swarm]
  have hshortfall : shortfall s r.profile 0 = wrap32 (0 - wrap32 n) := by rw [shortfall, hcount]
  have hscales : s.world.scales r.profile = true := scales_swarm n _
  -- there is one requirement, so its judgement is the pass
  have hpass : ∀ v s', Judged r s v s' →
      v = { profile := "web", outcome := .scaledUp, observed := wrap32 n
            delta := wrap32 (0 - wrap32 n) } ∧
        s'.world.countableCount "web" = n + (wrap32 (0 - wrap32 n)).toNat := by
    intro v s' hj
    cases hj with
    | unmanaged hm => cases hm
    | noAutoscaler hm hs ha => simp [hscales] at hs
    | satisfied hm hs hd ha =>
        cases hm
        omega
    | gated hm hs hd hf ha => cases hf
    | @grown _ request s₁ hm hs hd hf ha hk hp hc =>
        cases hm
        have hself := countableCount_provision_self s₁.world request
        have hbefore : s₁.world.countableCount r.profile = n :=
          (countableCount_congr (placementsOf_of_bare ha.world _)).trans (countableCount_swarm n)
        rw [hp, hc, hshortfall, hbefore] at hself
        refine ⟨?_, hself⟩
        rw [findings, hcount, hshortfall]
    | shrunk hm hs hd ha hk hc =>
        cases hm
        omega
    | refused hm hs hd hc ha =>
        cases hm
        omega
  obtain ⟨hverdict, hafter⟩ := hpass _ _ (judged_judge disbanded r s)
  exact ⟨congrArg (fun v => [v]) hverdict, hafter⟩

/-- With more instances than 32 bits can count, a pass that should stop all of them starts more. -/
theorem pass_effect_wrong :
    let c := swarm 2147483649
    (c.Reachable ∧ disbanded.Admissible) ∧ c.countableCount "web" = 2147483649 ∧
      (c.pass disbanded).1.verdicts =
        [{ profile := "web", outcome := .scaledUp, observed := -2147483647
           delta := 2147483647 }] ∧
      (c.pass disbanded).2.countableCount "web" = 4294967296 := by
  have hn : wrap32 (2147483649 : Nat) = -2147483647 := by decide
  have hdelta : wrap32 (0 - wrap32 (2147483649 : Nat)) = 2147483647 := by decide
  obtain ⟨hverdicts, hcount⟩ := pass_swarm (n := 2147483649) (by rw [hdelta]; decide)
  rw [hdelta] at hverdicts hcount
  rw [hn] at hverdicts
  exact ⟨⟨reachable_swarm _, by decide⟩, countableCount_swarm _, hverdicts, hcount⟩

end Cluster

end FleetScaler
