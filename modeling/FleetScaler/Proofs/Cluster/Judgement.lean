import FleetScaler.Proofs.Cluster.Census
import FleetScaler.Proofs.Document

/-!
# Judging a requirement over a cluster

A cluster never fails to answer, so a pass over it is a matter of what the pass has heard and what
it does. `heard` is what a pass takes for the countable instances of a profile: the answer that it
keeps, or else what the cluster would answer now. Asking changes nothing about what is heard.
`Judged` lists all that can come of judging one requirement; whatever holds of a pass over a cluster
is shown by going through these cases, whether or not the instances are in order.
-/

namespace FleetScaler.Cluster

open Pass (countable blocking? judge)

/-- The cluster without its log records. -/
def bare (c : Cluster) : Cluster := { c with journal := [] }

/-- Two clusters that differ in their log records alone have the same instances. -/
theorem placements_of_bare {c c' : Cluster} (h : c'.bare = c.bare) :
    c'.placements = c.placements := by
  have hp := congrArg placements h
  exact hp

theorem unscalable_of_bare {c c' : Cluster} (h : c'.bare = c.bare) :
    c'.unscalable = c.unscalable := by
  have hu := congrArg unscalable h
  exact hu

theorem nextSequence_of_bare {c c' : Cluster} (h : c'.bare = c.bare) :
    c'.nextSequence = c.nextSequence := by
  have hn := congrArg nextSequence h
  exact hn

theorem placementsOf_of_bare {c c' : Cluster} (h : c'.bare = c.bare) (profile : String) :
    c'.placementsOf profile = c.placementsOf profile := by
  rw [placementsOf, placements_of_bare h, placementsOf]

/-! ## What a pass has heard -/

/-- The countable instances of a profile, as far as the pass can tell. -/
def heard (s : PassState Cluster) (profile : String) : List Instance :=
  (s.answers.lookup profile).getD (s.world.countables profile)

/-- The profile has a minimum and has not reached it, as far as the pass can tell. -/
def lagging (s : PassState Cluster) (profile : String) : Bool :=
  match s.lookup.minimum? profile with
  | none => false
  | some minimum => count32 (heard s profile) < minimum

/-- The pass has asked questions and written log records, and has done nothing else. -/
structure Asks (s s' : PassState Cluster) : Prop where
  world : s'.world.bare = s.world.bare
  minimums : ∀ profile, s'.lookup.minimum? profile = s.lookup.minimum? profile
  /-- What was not known before is as the cluster has it. -/
  answers : ∀ profile, s'.answers.lookup profile = s.answers.lookup profile ∨
    s'.answers.lookup profile = some (heard s profile)

variable {s s' s'' : PassState Cluster}

theorem Asks.refl (s : PassState Cluster) : Asks s s :=
  ⟨rfl, fun _ => rfl, fun _ => .inl rfl⟩

/-- A pass that has only asked is of the same opinion as before. -/
theorem Asks.heard (h : Asks s s') (profile : String) :
    heard s' profile = Cluster.heard s profile := by
  have hnow : s'.world.countables profile = s.world.countables profile :=
    countables_congr (placementsOf_of_bare h.world profile)
  rcases h.answers profile with hsame | hnew
  · rw [Cluster.heard, hsame, hnow, Cluster.heard]
  · rw [Cluster.heard, hnew]
    rfl

theorem Asks.lagging (h : Asks s s') (profile : String) :
    lagging s' profile = Cluster.lagging s profile := by
  rw [Cluster.lagging, h.minimums, Cluster.lagging]
  cases s.lookup.minimum? profile with
  | none => rfl
  | some minimum => rw [h.heard]

theorem Asks.trans (h : Asks s s') (h' : Asks s' s'') : Asks s s'' where
  world := h'.world.trans h.world
  minimums profile := (h'.minimums profile).trans (h.minimums profile)
  answers profile := by
    rcases h'.answers profile with hsame | hnew
    · rw [hsame]
      exact h.answers profile
    · rw [hnew, h.heard]
      exact .inr rfl

/-- What is known stays known. -/
theorem Asks.known (h : Asks s s') {profile : String} {instances : List Instance}
    (hk : s.answers.lookup profile = some instances) :
    s'.answers.lookup profile = some instances := by
  have hheard : Cluster.heard s profile = instances := by
    rw [Cluster.heard, hk]
    rfl
  rcases h.answers profile with hsame | hnew
  · rw [hsame, hk]
  · rw [hnew, hheard]

theorem asks_note (level : Log.Level) (message : String) (context : List (String × String))
    (s : PassState Cluster) : Asks s (Pass.note collaborators level message context s) :=
  ⟨rfl, fun _ => rfl, fun _ => .inl rfl⟩

theorem asks_noteInstances (instances : List Instance) (s : PassState Cluster) :
    Asks s (Pass.noteInstances collaborators instances s) := by
  induction instances generalizing s with
  | nil => exact Asks.refl s
  | cons i rest ih => exact (asks_note _ _ _ s).trans (ih _)

/-- A question about a profile gets what was heard, and from then on it is known. -/
theorem countable_eq (profile : String) (s : PassState Cluster) :
    ∃ s', countable collaborators profile s = (.ok (heard s profile), s') ∧ Asks s s' ∧
      s'.answers.lookup profile = some (heard s profile) := by
  cases hk : s.answers.lookup profile with
  | some instances =>
      have hheard : heard s profile = instances := by
        rw [heard, hk]
        rfl
      refine ⟨s, ?_, Asks.refl s, ?_⟩
      · rw [hheard, countable, hk]
      · rw [hk, hheard]
  | none =>
      have hheard : heard s profile = s.world.countables profile := by
        rw [heard, hk]
        rfl
      let noted := Pass.noteInstances collaborators (s.world.countables profile) s
      have hnoted : Asks s noted := asks_noteInstances _ s
      refine ⟨{ noted with
        answers := (profile, s.world.countables profile) :: noted.answers }, ?_, ?_, ?_⟩
      · rw [hheard, countable, hk]
        rfl
      · refine ⟨hnoted.world, hnoted.minimums, fun other => ?_⟩
        by_cases ho : other = profile
        · right
          subst ho
          simp [hheard]
        · have hmiss : (other == profile) = false := by simp [ho]
          simp only [List.lookup_cons, hmiss]
          exact hnoted.answers other
      · simp [hheard]

/-- A look-up in the copy of the document changes no minimum. -/
theorem asks_getOrCreate (s : PassState Cluster) (profile : String) :
    Asks s { s with lookup := (s.lookup.getOrCreate profile).2 } :=
  ⟨rfl, Document.minimum?_getOrCreate s.lookup profile, fun _ => .inl rfl⟩

/-- A dependency check names the first dependency that lags. -/
theorem blocking?_eq (profile : String) (dependencies : List String) (s : PassState Cluster) :
    ∃ s', blocking? collaborators profile dependencies s
        = (.ok (dependencies.find? (lagging s)), s') ∧ Asks s s' := by
  induction dependencies generalizing s with
  | nil => exact ⟨s, rfl, Asks.refl s⟩
  | cons dependency rest ih =>
      have hlooked := asks_getOrCreate s dependency
      have hmin := Document.minimum_getOrCreate s.lookup dependency
      cases hd : s.lookup.minimum? dependency with
      | none =>
          -- nothing is asked for, so the check goes on
          have hlag : lagging s dependency = false := by rw [lagging, hd]
          obtain ⟨s', heq, hasks⟩ := ih { s with lookup := (s.lookup.getOrCreate dependency).2 }
          rw [hd] at hmin
          refine ⟨s', ?_, hlooked.trans hasks⟩
          simp only [blocking?, hmin, List.find?_cons, hlag, heq]
          rw [funext hlooked.lagging]
      | some minimum =>
          obtain ⟨s₁, hcount, hasked, -⟩ := countable_eq dependency
            { s with lookup := (s.lookup.getOrCreate dependency).2 }
          rw [hlooked.heard] at hcount
          have hasks := hlooked.trans hasked
          have hlag : lagging s dependency
              = decide (count32 (heard s dependency) < minimum) := by rw [lagging, hd]
          rw [hd] at hmin
          by_cases hless : count32 (heard s dependency) < minimum
          · simp only [blocking?, hmin, hcount, hless, if_true, List.find?_cons, hlag, decide_true]
            exact ⟨_, rfl, hasks.trans (asks_note _ _ _ s₁)⟩
          · obtain ⟨s', heq, hasks'⟩ := ih s₁
            refine ⟨s', ?_, hasks.trans hasks'⟩
            simp only [blocking?, hmin, hcount, hless, if_false, List.find?_cons, hlag,
              decide_false, heq]
            rw [funext hasks.lagging]

/-! ## What comes of a requirement -/

/-- The difference that a pass sees between a minimum and what it has heard. -/
def shortfall (s : PassState Cluster) (profile : String) (minimum : Int) : Int :=
  wrap32 (minimum - count32 (heard s profile))

/-- The verdict with the numbers that a pass sees, before it is known what comes of them. -/
def findings (s : PassState Cluster) (profile : String) (minimum : Int) : Verdict :=
  { profile, desired := minimum, observed := count32 (heard s profile)
    delta := shortfall s profile minimum }

/-- The request to stop what is too many of a profile. -/
def surplus (s : PassState Cluster) (profile : String) (minimum : Int) : ScaleDown :=
  { profile, count := wrap32 (-shortfall s profile minimum), candidates := heard s profile }

/-- All that can come of judging a requirement in a pass over a cluster: the verdict, and what the
pass carries on. -/
inductive Judged (r : Requirement) (s : PassState Cluster) :
    Verdict → PassState Cluster → Prop where
  | unmanaged (hm : r.minimum = none) : Judged r s { profile := r.profile } s
  | noAutoscaler {minimum : Int} {s' : PassState Cluster} (hm : r.minimum = some minimum)
      (hs : s.world.scales r.profile = false) (ha : Asks s s') :
      Judged r s { profile := r.profile, outcome := .noAutoscaler, desired := minimum } s'
  | satisfied {minimum : Int} {s' : PassState Cluster} (hm : r.minimum = some minimum)
      (hs : s.world.scales r.profile = true) (hd : shortfall s r.profile minimum = 0)
      (ha : Asks s s') :
      Judged r s { findings s r.profile minimum with outcome := .satisfied } s'
  | gated {minimum : Int} {dependency : String} {s' : PassState Cluster}
      (hm : r.minimum = some minimum) (hs : s.world.scales r.profile = true)
      (hd : 0 < shortfall s r.profile minimum)
      (hf : r.dependencies.find? (lagging s) = some dependency) (ha : Asks s s') :
      Judged r s { findings s r.profile minimum with outcome := .gated, blocking := dependency } s'
  /-- Instances are started. -/
  | grown {minimum : Int} {request : ScaleUp} {s₁ : PassState Cluster}
      (hm : r.minimum = some minimum) (hs : s.world.scales r.profile = true)
      (hd : 0 < shortfall s r.profile minimum)
      (hf : r.dependencies.find? (lagging s) = none) (ha : Asks s s₁)
      (hk : s₁.answers.lookup r.profile = some (heard s r.profile))
      (hp : request.profile = r.profile) (hc : request.count = shortfall s r.profile minimum) :
      Judged r s { findings s r.profile minimum with outcome := .scaledUp }
        { s₁ with world := s₁.world.provision request }
  /-- Instances are stopped. -/
  | shrunk {minimum : Int} {s₁ : PassState Cluster} {c : Cluster}
      (hm : r.minimum = some minimum) (hs : s.world.scales r.profile = true)
      (hd : shortfall s r.profile minimum < 0) (ha : Asks s s₁)
      (hk : s₁.answers.lookup r.profile = some (heard s r.profile))
      (hc : collaborators.destroy () (surplus s r.profile minimum) s₁.world = (.ok (), c)) :
      Judged r s { findings s r.profile minimum with outcome := .scaledDown }
        { s₁ with world := c }
  /-- The number of instances that are too many wraps around to a negative one. -/
  | refused {minimum : Int} {e : Failure} {s' : PassState Cluster}
      (hm : r.minimum = some minimum) (hs : s.world.scales r.profile = true)
      (hd : shortfall s r.profile minimum < 0)
      (hc : (surplus s r.profile minimum).count < 0) (ha : Asks s s') :
      Judged r s { findings s r.profile minimum with outcome := .failed, error := e.message } s'

section

variable {r : Requirement} {minimum : Int} {s₁ : PassState Cluster}

theorem judged_shrink (hm : r.minimum = some minimum) (hs : s.world.scales r.profile = true)
    (hd : shortfall s r.profile minimum < 0) (ha : Asks s s₁)
    (hk : s₁.answers.lookup r.profile = some (heard s r.profile)) :
    let out := Pass.shrink collaborators () (findings s r.profile minimum) (heard s r.profile) s₁
    Judged r s out.1 out.2 := by
  let noted := Pass.note collaborators .info ("scaling down " ++ r.profile ++ " by " ++
    toString (surplus s r.profile minimum).count ++ " " ++
    Pass.counts (findings s r.profile minimum)) [] s₁
  have hnoted : Asks s noted := ha.trans (asks_note _ _ _ s₁)
  have hcases := destroy_cases noted.world (surplus s r.profile minimum)
  unfold Pass.shrink
  simp only
  split
  · rename_i e world hcall
    rcases hcases with ⟨heq, hneg⟩ | ⟨victims, heq, -⟩
    · cases heq.symm.trans hcall
      exact .refused hm hs hd hneg (hnoted.trans (asks_note _ _ _ noted))
    · cases heq.symm.trans hcall
  · rename_i world hcall
    rcases hcases with ⟨heq, -⟩ | ⟨victims, heq, -⟩
    · cases heq.symm.trans hcall
    · cases heq.symm.trans hcall
      exact .shrunk hm hs hd hnoted hk heq

theorem judged_grow (d : Document) (hm : r.minimum = some minimum)
    (hs : s.world.scales r.profile = true) (hd : 0 < shortfall s r.profile minimum)
    (ha : Asks s s₁) (hk : s₁.answers.lookup r.profile = some (heard s r.profile)) :
    let out := Pass.grow collaborators d r () (findings s r.profile minimum) s₁
    Judged r s out.1 out.2 := by
  obtain ⟨s₂, hblock, hasked⟩ := blocking?_eq r.profile r.dependencies s₁
  have hlag : lagging s₁ = lagging s := funext ha.lagging
  rw [hlag] at hblock
  have hprofile : (findings s r.profile minimum).profile = r.profile := rfl
  cases hf : r.dependencies.find? (lagging s) with
  | some dependency =>
      rw [hf] at hblock
      simp only [Pass.grow, hprofile, hblock]
      exact .gated hm hs hd hf (ha.trans hasked)
  | none =>
      rw [hf] at hblock
      have hversion : collaborators.version s₂.world = (.ok s₂.world.version, s₂.world) := rfl
      simp only [Pass.grow, hprofile, hblock, hversion]
      refine .grown hm hs hd hf ?_ ?_ rfl rfl
      · exact (ha.trans hasked).trans (asks_note _ _ _ s₂)
      · exact hasked.known hk

end

/-- **Judging a requirement comes to one of the cases.** -/
theorem judged_judge (d : Document) (r : Requirement) (s : PassState Cluster) :
    Judged r s (judge collaborators d r s).1 (judge collaborators d r s).2 := by
  cases hm : r.minimum with
  | none =>
      simp only [judge, hm]
      exact .unmanaged hm
  | some minimum =>
      cases hs : s.world.scales r.profile with
      | false =>
          have hoffer : collaborators.offer d r s.world = (.ok none, s.world) := by
            simp [collaborators, hs]
          simp only [judge, hm, hoffer]
          exact .noAutoscaler hm hs (asks_note _ _ _ s)
      | true =>
          have hoffer : collaborators.offer d r s.world = (.ok (some ()), s.world) := by
            simp [collaborators, hs]
          obtain ⟨s₁, hcount, hasked, hknown⟩ := countable_eq r.profile s
          have hacts : judge collaborators d r s =
              if shortfall s r.profile minimum < 0 then
                Pass.shrink collaborators () (findings s r.profile minimum) (heard s r.profile) s₁
              else if 0 < shortfall s r.profile minimum then
                Pass.grow collaborators d r () (findings s r.profile minimum) s₁
              else ({ findings s r.profile minimum with outcome := .satisfied }, s₁) := by
            simp only [judge, hm, hoffer, Pass.compareAndAct, hcount]
            rfl
          rw [hacts]
          by_cases hneg : shortfall s r.profile minimum < 0
          · rw [if_pos hneg]
            exact judged_shrink hm hs hneg hasked hknown
          · rw [if_neg hneg]
            by_cases hpos : 0 < shortfall s r.profile minimum
            · rw [if_pos hpos]
              exact judged_grow d hm hs hpos hasked hknown
            · rw [if_neg hpos]
              exact .satisfied hm hs (by omega) hasked

end FleetScaler.Cluster
