import FleetScaler.Proofs.Pass.Ledger

/-!
# The commands of a pass

Whatever the collaborators do, and wherever they fail, the calls of a pass tell why each command
was given: its numbers are those of an answer that the inventory gave in this pass, and before
instances are started every dependency with a minimum has been asked about and found to have it.
-/

namespace FleetScaler

variable {σ α : Type}

namespace Pass

open PassState (calls)

variable {d : Document} {calls : List Call} {call : Call} {s s' s'' : PassState (σ × List Call)}

/-! ## Commands -/

/-- What comes of judging the requirement of a profile: commands are about that profile, and the
verdict on it tells that there was one. -/
structure Concludes (d : Document) (profile : String) (s : PassState (σ × List Call)) (v : Verdict)
    (s' : PassState (σ × List Call)) : Prop where
  accountable : Accountable d s'
  about : v.profile = profile
  calls : ∃ new, s'.calls = s.calls ++ new ∧ ∀ call ∈ new, ∀ other,
    call.command? = some other →
      other = profile ∧ v.outcome ∈ [.scaledUp, .scaledDown, .failed]

section Concludes

variable {profile : String} {v : Verdict}

theorem Inquires.concludes (h : Inquires s s') (hc : Concludes d profile s' v s'') :
    Concludes d profile s v s'' where
  accountable := hc.accountable
  about := hc.about
  calls := by
    obtain ⟨asked, hasked, hno⟩ := h.calls
    obtain ⟨new, hnew, hcommands⟩ := hc.calls
    refine ⟨asked ++ new, by rw [hnew, hasked, List.append_assoc], ?_⟩
    intro call hmem other hcommand
    rcases List.mem_append.mp hmem with hold | hmem'
    · rw [hno call hold] at hcommand
      cases hcommand
    · exact hcommands call hmem' other hcommand

theorem Inquires.conclusion (h : Inquires s s') (ha : Accountable d s')
    (hv : v.profile = profile) : Concludes d profile s v s' where
  accountable := ha
  about := hv
  calls := by
    obtain ⟨asked, hasked, hno⟩ := h.calls
    refine ⟨asked, hasked, fun call hmem other hcommand => ?_⟩
    rw [hno call hmem] at hcommand
    cases hcommand

theorem concludes_giveUp (c : Collaborators σ α) (h : Accountable d s) (hv : v.profile = profile)
    (e : Failure) :
    Concludes d profile s (giveUp c.recorded v e s).1 (giveUp c.recorded v e s).2 := by
  have hacc : Accountable d (giveUp c.recorded v e s).2 := accountable_of_eq h rfl rfl rfl
  have hinq : Inquires s (giveUp c.recorded v e s).2 := inquires_of_eq rfl rfl
  exact hinq.conclusion hacc hv

/-- A command is justified, and the pass goes on. -/
theorem Accountable.command (h : Accountable d s) (hj : Justified d s.calls call)
    (hp : call.command? = some profile) (world : σ)
    (hc : s'.calls = (Pass.after s call world).calls) (hl : s'.lookup = s.lookup)
    (ha : s'.answers = s.answers) (hv : v.profile = profile)
    (ho : v.outcome ∈ [.scaledUp, .scaledDown, .failed]) : Concludes d profile s v s' where
  accountable := by
    have hno : ∀ other all, call ≠ .instances other (.ok all) := by
      rintro other all rfl
      cases hp
    exact accountable_of_eq (h.after hj hno world) hc hl ha
  about := hv
  calls := by
    refine ⟨[call], by rw [hc, calls_after], fun other hmem p hcommand => ?_⟩
    rw [List.mem_singleton] at hmem
    subst hmem
    rw [hp] at hcommand
    exact ⟨(Option.some.inj hcommand).symm, ho⟩

theorem concludes_stop (c : Collaborators σ α) (h : Accountable d s) (autoscaler : α)
    {request : ScaleDown} (hv : v.profile = request.profile)
    (hf : Fresh d s.calls request.profile)
    (hdue : Short s.calls → ShrinkDue d s.calls request) :
    let out := stop c.recorded autoscaler v request s
    Concludes d request.profile s out.1 out.2 := by
  rcases hcall : c.destroy autoscaler request s.world.1 with ⟨answer, world⟩
  have hj : Justified d s.calls (.destroy request answer) := ⟨hf, hdue⟩
  cases answer with
  | error e =>
      simp only [stop, Collaborators.recorded, hcall]
      exact h.command hj rfl world rfl rfl rfl hv (by simp [giveUp])
  | ok done =>
      simp only [stop, Collaborators.recorded, hcall]
      exact h.command hj rfl world rfl rfl rfl hv (by simp)

theorem concludes_start (c : Collaborators σ α) (h : Accountable d s) (autoscaler : α)
    {request : ScaleUp} (hv : v.profile = request.profile)
    (hf : Fresh d s.calls request.profile)
    (hdue : Short s.calls → GrowthDue d s.calls request) :
    let out := start c.recorded autoscaler v request s
    Concludes d request.profile s out.1 out.2 := by
  rcases hcall : c.create autoscaler request s.world.1 with ⟨answer, world⟩
  have hj : Justified d s.calls (.create request answer) := ⟨hf, hdue⟩
  cases answer with
  | error e =>
      simp only [start, Collaborators.recorded, hcall]
      exact h.command hj rfl world rfl rfl rfl hv (by simp [giveUp])
  | ok done =>
      simp only [start, Collaborators.recorded, hcall]
      exact h.command hj rfl world rfl rfl rfl hv (by simp)

end Concludes

/-! ## The numbers of a command -/

/-- What is kept about a profile is in one of the answers. -/
theorem Accountable.answer (h : Accountable d s) {profile : String} {instances : List Instance}
    (hk : s.answers.lookup profile = some instances) :
    ∃ all, .instances profile (.ok all) ∈ s.calls ∧
      instances = all.filter Instance.isCountable ∧ instances.length = countableIn all := by
  obtain ⟨all, hmem, rfl⟩ := h.known profile instances hk
  exact ⟨all, hmem, rfl, (List.countP_eq_length_filter).symm⟩

theorem countableIn_lt {profile : String} {all : List Instance} (hs : Short calls)
    (hmem : .instances profile (.ok all) ∈ calls) : countableIn all < 2147483648 :=
  Nat.lt_of_le_of_lt List.countP_le_length (hs profile all hmem)

variable {r : Requirement} {minimum : Int} {instances : List Instance}

/-- What is too many is asked to go. -/
theorem Accountable.shrinkDue (h : Accountable d s) (hd : d.Admissible) {profile : String}
    (hm : d.minimum? profile = some minimum)
    (hk : s.answers.lookup profile = some instances)
    (hneg : wrap32 (minimum - count32 instances) < 0) (hs : Short s.calls) :
    ShrinkDue d s.calls
      { profile, count := wrap32 (-wrap32 (minimum - count32 instances))
        candidates := instances } := by
  obtain ⟨all, hmem, hkept, hlength⟩ := h.answer hk
  obtain ⟨hlow, hhigh⟩ := hd profile minimum hm
  have hshort := countableIn_lt hs hmem
  have hdelta : wrap32 (minimum - count32 instances) = minimum - instances.length :=
    wrap32_sub_count32 hlow hhigh (by omega)
  rw [hdelta] at hneg ⊢
  have hcount : wrap32 (-(minimum - instances.length)) = instances.length - minimum := by
    rw [wrap32_of_range (by omega) (by omega)]
    omega
  rw [hcount]
  refine ⟨⟨minimum, all, hm, hmem, hkept, ?_⟩, ?_, ?_⟩
  · rw [hlength]
  · show 1 ≤ (instances.length : Int) - minimum
    omega
  · show (instances.length : Int) - minimum ≤ instances.length
    omega

/-- What is missing is asked for. -/
theorem Accountable.growthDue (h : Accountable d s) (hd : d.Admissible)
    (hr : r ∈ d.requirements) (hm : r.minimum = some minimum)
    (hk : s.answers.lookup r.profile = some instances)
    (hpos : 0 < wrap32 (minimum - count32 instances))
    (hgate : ∀ dependency ∈ r.dependencies, ∀ n, d.minimum? dependency = some n →
      ∃ found, s.answers.lookup dependency = some found ∧ n ≤ (found.length : Int))
    {version : String} {world : σ} (hs : Short s.calls) :
    GrowthDue d (Pass.after s (.version (.ok version)) world).calls
      { version, profile := r.profile, count := wrap32 (minimum - count32 instances)
        requirements := d, requirement := r } := by
  obtain ⟨all, hmem, -, hlength⟩ := h.answer hk
  have hmin : d.minimum? r.profile = some minimum := by
    rw [Document.minimum?_of_mem hr, hm]
  obtain ⟨hlow, hhigh⟩ := hd r.profile minimum hmin
  have hshort := countableIn_lt hs hmem
  have hdelta : wrap32 (minimum - count32 instances) = minimum - instances.length :=
    wrap32_sub_count32 hlow hhigh (by omega)
  rw [hdelta] at hpos ⊢
  rw [calls_after]
  refine ⟨hr, rfl, rfl, ⟨s.calls, rfl⟩, ⟨minimum, all, hm, ?_, ?_⟩, ?_, ?_⟩
  · exact List.mem_append_left _ hmem
  · show minimum - (instances.length : Int) = minimum - countableIn all
    rw [hlength]
  · show 1 ≤ minimum - (instances.length : Int)
    omega
  · intro dependency hdep n hn
    obtain ⟨found, hfound, hle⟩ := hgate dependency hdep n hn
    obtain ⟨all', hmem', -, hlength'⟩ := h.answer hfound
    refine ⟨all', List.mem_append_left _ hmem', ?_⟩
    rw [← hlength']
    exact hle

/-! ## A judgement and a pass -/

variable (c : Collaborators σ α)

theorem Short.of_append {calls new : List Call} (h : Short (calls ++ new)) : Short calls :=
  fun profile all hmem => h profile all (List.mem_append_left _ hmem)

theorem grow_concludes (h : Accountable d s) (hd : d.Admissible) (hr : r ∈ d.requirements)
    (hm : r.minimum = some minimum) (hk : s.answers.lookup r.profile = some instances)
    (hf : Fresh d s.calls r.profile) (autoscaler : α) {v : Verdict} (hp : v.profile = r.profile)
    (hdelta : v.delta = wrap32 (minimum - count32 instances)) (hpos : 0 < v.delta) :
    let out := grow c.recorded d r autoscaler v s
    Concludes d r.profile s out.1 out.2 := by
  obtain ⟨message, heq⟩ := grow_eq d r autoscaler v
  obtain ⟨hacc, hinq, hgate⟩ := blocking?_accountable c v.profile r.dependencies h
  rw [heq]
  rcases hblock : blocking? c.recorded v.profile r.dependencies s with ⟨answer, s₁⟩
  rw [hblock] at hacc hinq hgate
  match answer with
  | .error e => exact hinq.concludes (concludes_giveUp c hacc hp e)
  | .ok (some dependency) => exact hinq.conclusion hacc hp
  | .ok none =>
      -- nothing holds the profile back, so it is up to the version and the autoscaler
      refine hinq.concludes ?_
      rcases hcall : c.version s₁.world.1 with ⟨fetched, world⟩
      have hrecorded : c.recorded.version s₁.world
          = (fetched, world, .version fetched :: s₁.world.2) := by
        simp [Collaborators.recorded, hcall]
      have hj : Justified d s₁.calls (.version fetched) := trivial
      have hversion : Accountable d (after s₁ (.version fetched) world) :=
        hacc.after hj (by simp) world
      have hasked : Inquires s₁ (after s₁ (.version fetched) world) := inquires_after s₁ rfl world
      cases fetched with
      | error e =>
          simp only [fetchAndStart, hrecorded]
          exact hasked.concludes (concludes_giveUp c hversion hp e)
      | ok version =>
          simp only [fetchAndStart, hrecorded, hp, hdelta]
          rw [hdelta] at hpos
          let request : ScaleUp :=
            { version, profile := r.profile, count := wrap32 (minimum - count32 instances)
              requirements := d, requirement := r }
          let noted := note c.recorded .info (message version) []
            (after s₁ (.version (.ok version)) world)
          have hcalls : noted.calls = s₁.calls ++ [.version (.ok version)] := calls_after _ _ _
          have hnoted : Accountable d noted := accountable_of_eq hversion rfl rfl rfl
          have hsame : Inquires s₁ noted := hasked.trans (inquires_of_eq rfl rfl)
          have hfresh : Fresh d noted.calls request.profile := hsame.fresh (hinq.fresh hf)
          have hdue : Short noted.calls → GrowthDue d noted.calls request := by
            intro hshort
            rw [hcalls] at hshort
            exact hacc.growthDue hd hr hm (hinq.keeps _ _ hk) hpos (hgate rfl) hshort.of_append
          exact hsame.concludes (concludes_start c hnoted autoscaler hp hfresh hdue)

theorem compareAndAct_concludes (h : Accountable d s) (hd : d.Admissible)
    (hr : r ∈ d.requirements) (hm : r.minimum = some minimum) (hf : Fresh d s.calls r.profile)
    (autoscaler : α) :
    let out := compareAndAct c.recorded d r minimum autoscaler s
    Concludes d r.profile s out.1 out.2 := by
  have hmin : d.minimum? r.profile = some minimum := by
    rw [Document.minimum?_of_mem hr, hm]
  obtain ⟨hacc, hinq, hknown⟩ := countable_accountable c h hf.1
  have hname : ({ profile := r.profile, desired := minimum } : Verdict).profile = r.profile := rfl
  unfold compareAndAct
  rcases hcount : countable c.recorded r.profile s with ⟨answer, s₁⟩
  rw [hcount] at hacc hinq hknown
  cases answer with
  | error e => exact hinq.concludes (concludes_giveUp c hacc hname e)
  | ok instances =>
      have hk := hknown instances rfl
      have hfresh : Fresh d s₁.calls r.profile := hinq.fresh hf
      refine hinq.concludes ?_
      dsimp only
      split
      · rename_i hneg
        obtain ⟨message, heq⟩ := shrink_eq autoscaler
          { profile := r.profile, desired := minimum, observed := count32 instances
            delta := wrap32 (minimum - count32 instances) } instances
        rw [heq]
        let noted := note c.recorded .info message [] s₁
        let request : ScaleDown :=
          { profile := r.profile, count := wrap32 (-wrap32 (minimum - count32 instances))
            candidates := instances }
        have hnoted : Accountable d noted := accountable_of_eq hacc rfl rfl rfl
        have hsame : Inquires s₁ noted := inquires_of_eq rfl rfl
        have hnew : Fresh d noted.calls request.profile := hfresh
        exact hsame.concludes (concludes_stop c hnoted autoscaler rfl hnew
          (hacc.shrinkDue hd hmin hk hneg))
      · split
        · rename_i hpos
          exact grow_concludes c hacc hd hr hm hk hfresh autoscaler rfl rfl hpos
        · exact (inquires_of_eq rfl rfl).conclusion hacc rfl

theorem judge_concludes (h : Accountable d s) (hd : d.Admissible) (hr : r ∈ d.requirements)
    (hf : ∀ call ∈ s.calls, call.command? ≠ some r.profile) :
    let out := judge c.recorded d r s
    Concludes d r.profile s out.1 out.2 := by
  cases hm : r.minimum with
  | none =>
      simp only [judge, hm]
      exact (inquires_of_eq rfl rfl).conclusion h rfl
  | some minimum =>
      have hsome : (d.minimum? r.profile).isSome := by
        rw [Document.minimum?_of_mem hr, hm]
        rfl
      rcases hcall : c.offer d r s.world.1 with ⟨answer, world⟩
      have hrecorded : c.recorded.offer d r s.world = (answer, world,
          .offer r.profile (answer.map Option.isSome) :: s.world.2) := by
        simp [Collaborators.recorded, hcall]
      let asked := after s (.offer r.profile (answer.map Option.isSome)) world
      have hj : Justified d s.calls (.offer r.profile (answer.map Option.isSome)) := hsome
      have hasked : Accountable d asked := h.after hj (by simp) world
      have hinq : Inquires s asked := inquires_after s rfl world
      have hname : ({ profile := r.profile, desired := minimum } : Verdict).profile = r.profile :=
        rfl
      refine hinq.concludes ?_
      rcases answer with e | offered
      · simp only [judge, hm, hrecorded]
        exact concludes_giveUp c hasked hname e
      · cases offered with
        | none =>
            simp only [judge, hm, hrecorded]
            let noted := note c.recorded .warn
              ("no autoscaler available for profile " ++ r.profile) [] asked
            have hnoted : Accountable d noted := accountable_of_eq hasked rfl rfl rfl
            have hsame : Inquires asked noted := inquires_of_eq rfl rfl
            exact hsame.conclusion hnoted rfl
        | some autoscaler =>
            simp only [judge, hm, hrecorded]
            exact compareAndAct_concludes c hasked hd hr hm (hinq.fresh ⟨hsome, hf⟩) autoscaler

/-- Requirements of different profiles lead to commands about different profiles. -/
theorem judgeAll_concludes (hd : d.Admissible) {rs : List Requirement}
    (hmem : ∀ r ∈ rs, r ∈ d.requirements) (hdistinct : (profilesOf rs).Nodup)
    (h : Accountable d s)
    (hf : ∀ r ∈ rs, ∀ call ∈ s.calls, call.command? ≠ some r.profile) :
    let out := judgeAll c.recorded d rs s
    Accountable d out.2 ∧ ∃ new, out.2.calls = s.calls ++ new ∧
      ∀ call ∈ new, ∀ profile, call.command? = some profile →
        ∃ v ∈ out.1, v.profile = profile ∧ v.outcome ∈ [.scaledUp, .scaledDown, .failed] := by
  induction rs generalizing s with
  | nil => exact ⟨h, [], by simp [judgeAll], by simp⟩
  | cons r rest ih =>
      obtain ⟨hr, hrest⟩ := List.nodup_cons.mp hdistinct
      have hone := judge_concludes c h hd (hmem r (by simp)) (hf r (by simp))
      obtain ⟨new, hnew, hcommands⟩ := hone.calls
      -- the commands so far are about other profiles than those to come
      have hfresh : ∀ q ∈ rest, ∀ call ∈ (judge c.recorded d r s).2.calls,
          call.command? ≠ some q.profile := by
        intro q hq call hcall hcommand
        rw [hnew] at hcall
        rcases List.mem_append.mp hcall with hold | hmem'
        · exact hf q (List.mem_cons_of_mem _ hq) call hold hcommand
        · have hsame := (hcommands call hmem' q.profile hcommand).1
          exact hr (List.mem_map.mpr ⟨q, hq, hsame⟩)
      obtain ⟨hacc, later, hlater, hverdicts⟩ :=
        ih (fun q hq => hmem q (List.mem_cons_of_mem _ hq)) hrest hone.accountable hfresh
      refine ⟨hacc, new ++ later, ?_, ?_⟩
      · simp only [judgeAll]
        rw [hlater, hnew, List.append_assoc]
      · intro call hcall profile hcommand
        rcases List.mem_append.mp hcall with hfirst | hrest'
        · obtain ⟨rfl, ho⟩ := hcommands call hfirst profile hcommand
          exact ⟨_, List.mem_cons_self, hone.about, ho⟩
        · obtain ⟨v, hv, hvp, ho⟩ := hverdicts call hrest' profile hcommand
          exact ⟨v, List.mem_cons_of_mem _ hv, hvp, ho⟩

variable (world : σ)

/-- A pass makes its calls as it may, and for each command there is a verdict that tells of it. -/
theorem callsOf_lawful (hd : d.Admissible) :
    Lawful d (callsOf c d world) ∧
      ∀ call ∈ callsOf c d world, ∀ profile, call.command? = some profile →
        ∃ v ∈ (run c d world).1.verdicts,
          v.profile = profile ∧ v.outcome ∈ [.scaledUp, .scaledDown, .failed] := by
  obtain ⟨hacc, new, hnew, hverdicts⟩ := judgeAll_concludes c hd (fun _ h => h) d.distinct
    (accountable_init d world) (by simp [PassState.calls])
  have hcalls : callsOf c d world = (judgeAll c.recorded d d.requirements
      { world := (world, []), lookup := d }).2.calls := rfl
  have hreport := congrArg Prod.fst (run_recorded c d world [])
  refine ⟨hcalls ▸ hacc.lawful, ?_⟩
  intro call hcall profile hcommand
  rw [hcalls, hnew] at hcall
  rw [hreport]
  exact hverdicts call (by simpa [PassState.calls] using hcall) profile hcommand

/-- **The commands of a pass are exact and gated**, whatever the collaborators do. A profile gets
one command at most, and none without a minimum. The inventory answers about it once, and whatever
is asked for is what the answers before the command call for. -/
theorem commands_exact_and_gated (hd : d.Admissible) (hshort : Short (callsOf c d world)) :
    (∀ profile, (callsOf c d world).countP (fun call => call.command? = some profile)
      ≤ if (d.minimum? profile).isSome then 1 else 0) ∧
    (∀ profile, (callsOf c d world).countP (Call.answers profile) ≤ 1) ∧
    (∀ before request answer later,
      callsOf c d world = before ++ .create request answer :: later →
        GrowthDue d before request) ∧
    (∀ before request answer later,
      callsOf c d world = before ++ .destroy request answer :: later →
        ShrinkDue d before request) := by
  obtain ⟨hlawful, -⟩ := callsOf_lawful c world hd
  refine ⟨hlawful.countP_command_le, hlawful.countP_answers_le, ?_, ?_⟩
  · intro before request answer later heq
    rw [heq] at hshort
    exact (hlawful before _ later heq).2 hshort.of_append
  · intro before request answer later heq
    rw [heq] at hshort
    exact (hlawful before _ later heq).2 hshort.of_append

/-- Two profiles that wait for a third. -/
def sluggish : Document where
  requirements := [
    { profile := "front", minimum := some 3, dependencies := ["store"] },
    { profile := "store", minimum := some 1 },
    { profile := "cache", minimum := some 3, dependencies := ["ghost", "store"] }]
  distinct := by decide

/-- One instance of a profile that runs, one that is dead and one that is on its way. -/
def assorted (profile : String) : List Instance :=
  [{ id := "a", profile, alive := true }, { id := "b", profile },
    { id := "c", profile, pending := true }]

/-- Collaborators that count the questions to the inventory, which fails at the first one. -/
def hesitant : Collaborators Nat Unit where
  offer _ _ n := (.ok (some ()), n)
  instances profile n :=
    (if n = 0 then .error (.collaborator "not ready") else .ok (assorted profile), n + 1)
  version n := (.ok "2.0", n)
  create _ _ n := (.error (.collaborator "no room"), n)
  destroy _ _ n := (.ok (), n)
  note _ n := n

/-- What a pass asks to stop, by what it has been told. -/
def dismissal : ScaleDown where
  profile := "store"
  count := 1
  candidates := [{ id := "a", profile := "store", alive := true },
    { id := "c", profile := "store", pending := true }]

/-- What a pass asks to start, although it has asked for instances to be stopped before. -/
def recruitment : ScaleUp where
  version := "2.0"
  profile := "cache"
  count := 1
  requirements := sluggish
  requirement := { profile := "cache", minimum := some 3, dependencies := ["ghost", "store"] }

/-- The calls of a pass over such collaborators. -/
def hesitantCalls : List Call :=
  [.offer "front" (.ok true), .instances "front" (.error (.collaborator "not ready")),
    .offer "store" (.ok true), .instances "store" (.ok (assorted "store")),
    .destroy dismissal (.ok ()),
    .offer "cache" (.ok true), .instances "cache" (.ok (assorted "cache")),
    .version (.ok "2.0"), .create recruitment (.error (.collaborator "no room"))]

/-- The inventory fails for the first profile, which costs that profile its turn and no other. -/
theorem hesitant_commands :
    (sluggish.Admissible ∧ Short (callsOf hesitant sluggish 0)) ∧
      callsOf hesitant sluggish 0 = hesitantCalls ∧
      ShrinkDue sluggish ((callsOf hesitant sluggish 0).take 4) dismissal ∧
      GrowthDue sluggish ((callsOf hesitant sluggish 0).take 8) recruitment := by
  have hd : sluggish.Admissible := by decide
  have hcalls : callsOf hesitant sluggish 0 = hesitantCalls := rfl
  have hshort : Short (callsOf hesitant sluggish 0) := by
    intro profile all hmem
    simp only [hcalls, hesitantCalls, List.mem_cons, Call.instances.injEq, Except.ok.injEq,
      reduceCtorEq, and_false, false_or, List.not_mem_nil, or_false] at hmem
    rcases hmem with ⟨-, rfl⟩ | ⟨-, rfl⟩ <;> decide
  obtain ⟨-, -, hgrowth, hshrink⟩ := commands_exact_and_gated hesitant 0 hd hshort
  exact ⟨⟨hd, hshort⟩, hcalls, hshrink _ dismissal _ _ rfl, hgrowth _ recruitment _ _ rfl⟩

end Pass

end FleetScaler
