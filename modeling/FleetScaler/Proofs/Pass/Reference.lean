import FleetScaler.Pass.Script
import FleetScaler.Proofs.Counting
import FleetScaler.Proofs.Document

/-!
# A pass against its reference

The reference judges every requirement alone: it asks for the instances of a profile each time it
needs them, looks dependencies up in the document that the pass was given, and counts without
wrapping around. A pass over collaborators that answer by the arguments of a call alone comes to the
same verdicts as long as 32 bits hold its numbers, although it keeps answers from profile to profile
and extends its own copy of the document. What carries this is that both are harmless: a kept answer
is the one that a new call would give, and the copy asks for nothing that the document does not ask
for.
-/

namespace FleetScaler

variable {σ α : Type}

/-! ## The reference -/

namespace Verdict

/-- The verdict on a profile that was given up on. -/
def failed (v : Verdict) (e : Failure) : Verdict :=
  { v with outcome := .failed, error := e.message }

end Verdict

namespace Script

/-- The countable instances of a profile. -/
def countable (script : Script α) (profile : String) : Except Failure (List Instance) :=
  match script.instances profile with
  | .error e => .error e
  | .ok all => .ok (all.filter Instance.isCountable)

/-- The first of the dependencies that has a minimum in the document and has not reached it. -/
def blocking? (script : Script α) (document : Document) :
    List String → Except Failure (Option String)
  | [] => .ok none
  | dependency :: rest =>
    match document.minimum? dependency with
    | none => script.blocking? document rest
    | some minimum =>
      match script.countable dependency with
      | .error e => .error e
      | .ok instances =>
        if (instances.length : Int) < minimum then .ok (some dependency)
        else script.blocking? document rest

/-- The verdict on a profile with too many instances. -/
def shrink (script : Script α) (autoscaler : α) (v : Verdict) (instances : List Instance) :
    Verdict :=
  match script.destroy autoscaler
      { profile := v.profile, count := -v.delta, candidates := instances } with
  | .error e => v.failed e
  | .ok _ => { v with outcome := .scaledDown }

/-- The verdict on a profile with instances missing. -/
def grow (script : Script α) (document : Document) (requirement : Requirement) (autoscaler : α)
    (v : Verdict) : Verdict :=
  match script.blocking? document requirement.dependencies with
  | .error e => v.failed e
  | .ok (some dependency) => { v with outcome := .gated, blocking := dependency }
  | .ok none =>
    match script.version with
    | .error e => v.failed e
    | .ok version =>
      let request : ScaleUp :=
        { version, profile := v.profile, count := v.delta, requirements := document, requirement }
      match script.create autoscaler request with
      | .error e => v.failed e
      | .ok _ => { v with outcome := .scaledUp }

/-- The verdict on one requirement, from the document and the answers alone. -/
def verdict (script : Script α) (document : Document) (requirement : Requirement) : Verdict :=
  match requirement.minimum with
  | none => { profile := requirement.profile, outcome := .unmanaged }
  | some desired =>
    let v : Verdict := { profile := requirement.profile, desired }
    match script.offer document requirement with
    | .error e => v.failed e
    | .ok none => { v with outcome := .noAutoscaler }
    | .ok (some autoscaler) =>
      match script.countable requirement.profile with
      | .error e => v.failed e
      | .ok instances =>
        let delta := desired - instances.length
        let v := { v with observed := instances.length, delta }
        if delta < 0 then script.shrink autoscaler v instances
        else if delta = 0 then { v with outcome := .satisfied }
        else script.grow document requirement autoscaler v

/-- The numbers of a requirement are 32-bit numbers: how many instances its profile has, and the
difference to the minimum with either sign. -/
def InRange (script : Script α) (requirement : Requirement) : Prop :=
  ∀ desired, requirement.minimum = some desired →
    ∀ instances, script.countable requirement.profile = .ok instances →
      instances.length < 2147483648 ∧
        -2147483648 < desired - instances.length ∧ desired - instances.length < 2147483648

/-- A profile that a document asks for can be counted if all its requirements are in range. -/
theorem InRange.length_lt {script : Script α} {document : Document}
    (h : ∀ requirement ∈ document.requirements, script.InRange requirement) {profile : String}
    {minimum : Int} (hm : document.minimum? profile = some minimum) {instances : List Instance}
    (hi : script.countable profile = .ok instances) : instances.length < 2147483648 := by
  obtain ⟨r, hr, rfl, hmin⟩ := Document.minimum?_eq_some_iff.mp hm
  exact (h r hr minimum hmin instances hi).1

end Script

/-- The collaborators answer every call as the script has it, whatever their state. -/
structure Follows (c : Collaborators σ α) (script : Script α) : Prop where
  offer : ∀ document requirement world,
    (c.offer document requirement world).1 = script.offer document requirement
  instances : ∀ profile world, (c.instances profile world).1 = script.instances profile
  version : ∀ world, (c.version world).1 = script.version
  create : ∀ autoscaler request world,
    (c.create autoscaler request world).1 = script.create autoscaler request
  destroy : ∀ autoscaler request world,
    (c.destroy autoscaler request world).1 = script.destroy autoscaler request

/-- The collaborators of a script follow it. -/
theorem follows_collaborators (script : Script α) : Follows script.collaborators script where
  offer _ _ _ := rfl
  instances _ _ := rfl
  version _ := rfl
  create _ _ _ := rfl
  destroy _ _ _ := rfl

/-! ## What a pass carries is harmless -/

/-- What a pass carries agrees with the document it was given and the answers it would get now. -/
structure PassState.Faithful (script : Script α) (document : Document) (s : PassState σ) :
    Prop where
  /-- The copy asks for what the document asks for. -/
  minimums : ∀ profile, s.lookup.minimum? profile = document.minimum? profile
  /-- A kept answer is the answer. -/
  answers : ∀ profile instances, s.answers.lookup profile = some instances →
    script.countable profile = .ok instances

namespace Pass

variable {c : Collaborators σ α} {script : Script α} {document : Document} {s : PassState σ}

open PassState (Faithful)

/-- A pass starts with the document itself and no answers. -/
theorem faithful_init (script : Script α) (document : Document) (world : σ) :
    Faithful script document { world, lookup := document } where
  minimums _ := rfl
  answers profile instances h := by simp at h

/-- Only the copy and the kept answers matter. -/
theorem faithful_of_eq {s' : PassState σ} (h : Faithful script document s)
    (hl : s'.lookup = s.lookup) (ha : s'.answers = s.answers) : Faithful script document s' where
  minimums profile := by rw [hl]; exact h.minimums profile
  answers profile instances hp := h.answers profile instances (by rw [← ha]; exact hp)

@[simp] theorem lookup_note (level : Log.Level) (message : String)
    (context : List (String × String)) (s : PassState σ) :
    (note c level message context s).lookup = s.lookup := rfl

@[simp] theorem answers_note (level : Log.Level) (message : String)
    (context : List (String × String)) (s : PassState σ) :
    (note c level message context s).answers = s.answers := rfl

theorem lookup_noteInstances (instances : List Instance) (s : PassState σ) :
    (noteInstances c instances s).lookup = s.lookup := by
  induction instances generalizing s with
  | nil => rfl
  | cons i rest ih => exact ih _

theorem answers_noteInstances (instances : List Instance) (s : PassState σ) :
    (noteInstances c instances s).answers = s.answers := by
  induction instances generalizing s with
  | nil => rfl
  | cons i rest ih => exact ih _

/-- Keeping the answer of a call is harmless. -/
theorem faithful_keep {profile : String} {instances : List Instance}
    (h : Faithful script document s) (hi : script.countable profile = .ok instances) :
    Faithful script document { s with answers := (profile, instances) :: s.answers } where
  minimums := h.minimums
  answers other kept hk := by
    by_cases he : other = profile
    · subst he
      have hsame : instances = kept := by simpa using hk
      exact hsame ▸ hi
    · have hmiss : (other == profile) = false := by simp [he]
      have hk' : s.answers.lookup other = some kept := by
        simpa only [List.lookup_cons, hmiss] using hk
      exact h.answers other kept hk'

/-! ## The steps of a pass

Every step gives the answer of the reference and leaves a state that is as harmless. -/

/-- The kept answer and a new one are the same. -/
theorem countable_spec (hc : Follows c script) (h : Faithful script document s)
    (profile : String) :
    (countable c profile s).1 = script.countable profile ∧
      Faithful script document (countable c profile s).2 := by
  cases hk : s.answers.lookup profile with
  | some kept =>
      have hstep : countable c profile s = (.ok kept, s) := by simp [countable, hk]
      rw [hstep]
      exact ⟨(h.answers profile kept hk).symm, h⟩
  | none =>
      have hanswer := hc.instances profile s.world
      rcases hcall : c.instances profile s.world with ⟨answer, world⟩
      rw [hcall] at hanswer
      cases answer with
      | error e =>
          have hstep : countable c profile s = (.error e, { s with world }) := by
            simp [countable, hk, hcall]
          rw [hstep]
          exact ⟨by simp [Script.countable, ← hanswer], faithful_of_eq h rfl rfl⟩
      | ok all =>
          have hnew : script.countable profile = .ok (all.filter Instance.isCountable) := by
            simp [Script.countable, ← hanswer]
          have hnoted : Faithful script document
              (noteInstances c (all.filter Instance.isCountable) { s with world }) :=
            faithful_of_eq h (lookup_noteInstances _ _) (answers_noteInstances _ _)
          simp only [countable, hk, hcall]
          exact ⟨hnew.symm, faithful_keep hnoted hnew⟩

/-- A dependency check names the dependency that the reference names. -/
theorem blocking?_spec (hc : Follows c script)
    (hrange : ∀ requirement ∈ document.requirements, script.InRange requirement)
    (profile : String) (dependencies : List String) (h : Faithful script document s) :
    (blocking? c profile dependencies s).1 = script.blocking? document dependencies ∧
      Faithful script document (blocking? c profile dependencies s).2 := by
  induction dependencies generalizing s with
  | nil => exact ⟨rfl, h⟩
  | cons dependency rest ih =>
      -- the look-up may enter a requirement, but one that asks for nothing
      have hlooked : Faithful script document
          { s with lookup := (s.lookup.getOrCreate dependency).2 } :=
        { minimums := fun p => by rw [Document.minimum?_getOrCreate]; exact h.minimums p
          answers := h.answers }
      have hmin : (s.lookup.getOrCreate dependency).1.minimum = document.minimum? dependency := by
        rw [Document.minimum_getOrCreate]
        exact h.minimums dependency
      cases hd : document.minimum? dependency with
      | none =>
          rw [hd] at hmin
          simp only [blocking?, hmin, Script.blocking?, hd]
          exact ih hlooked
      | some minimum =>
          rw [hd] at hmin
          obtain ⟨hanswer, hafter⟩ := countable_spec hc hlooked dependency
          simp only [blocking?, hmin, Script.blocking?, hd]
          rw [← hanswer]
          rcases hcount : countable c dependency
            { s with lookup := (s.lookup.getOrCreate dependency).2 } with ⟨answer, s'⟩
          rw [hcount] at hanswer hafter
          cases answer with
          | error e => exact ⟨rfl, hafter⟩
          | ok instances =>
              have hlength : count32 instances = instances.length :=
                count32_of_lt (Script.InRange.length_lt hrange hd hanswer.symm)
              simp only [hlength]
              by_cases hless : (instances.length : Int) < minimum
              · simp only [hless, if_true]
                exact ⟨trivial, faithful_of_eq hafter rfl rfl⟩
              · simp only [hless, if_false]
                exact ih hafter

theorem giveUp_spec (v : Verdict) (e : Failure) (h : Faithful script document s) :
    (giveUp c v e s).1 = v.failed e ∧ Faithful script document (giveUp c v e s).2 :=
  ⟨rfl, faithful_of_eq h rfl rfl⟩

theorem shrink_spec (hc : Follows c script) (h : Faithful script document s) (autoscaler : α)
    (v : Verdict) (instances : List Instance)
    (hlow : -2147483648 < v.delta) (hneg : v.delta < 0) :
    (shrink c autoscaler v instances s).1 = script.shrink autoscaler v instances ∧
      Faithful script document (shrink c autoscaler v instances s).2 := by
  have hcount : wrap32 (-v.delta) = -v.delta := wrap32_of_range (by omega) (by omega)
  simp only [shrink, Script.shrink, hcount]
  rw [← hc.destroy autoscaler _ (note c .info ("scaling down " ++ v.profile ++ " by " ++
    toString (-v.delta) ++ " " ++ counts v) [] s).world]
  rcases c.destroy autoscaler _ (note c .info ("scaling down " ++ v.profile ++ " by " ++
    toString (-v.delta) ++ " " ++ counts v) [] s).world with ⟨answer, world⟩
  cases answer with
  | error e => exact giveUp_spec v e (faithful_of_eq h rfl rfl)
  | ok done => exact ⟨rfl, faithful_of_eq h rfl rfl⟩

theorem grow_spec (hc : Follows c script)
    (hrange : ∀ requirement ∈ document.requirements, script.InRange requirement)
    (h : Faithful script document s) (requirement : Requirement) (autoscaler : α)
    (v : Verdict) :
    (grow c document requirement autoscaler v s).1 =
        script.grow document requirement autoscaler v ∧
      Faithful script document (grow c document requirement autoscaler v s).2 := by
  obtain ⟨hanswer, hafter⟩ := blocking?_spec hc hrange v.profile requirement.dependencies h
  simp only [grow, Script.grow]
  rw [← hanswer]
  rcases hblock : blocking? c v.profile requirement.dependencies s with ⟨answer, s'⟩
  rw [hblock] at hafter
  cases answer with
  | error e => exact giveUp_spec v e hafter
  | ok found =>
      cases found with
      | some dependency => exact ⟨rfl, hafter⟩
      | none =>
          -- nothing is in the way, so it is up to the version and the autoscaler
          simp only
          rw [← hc.version s'.world]
          rcases hversion : c.version s'.world with ⟨version, world⟩
          cases version with
          | error e => exact giveUp_spec v e (faithful_of_eq hafter rfl rfl)
          | ok version =>
              simp only
              rw [← hc.create autoscaler _ (note c .info ("scaling up " ++ v.profile ++ " by " ++
                toString v.delta ++ " at version " ++ version ++ " " ++ counts v) []
                { s' with world }).world]
              rcases c.create autoscaler _ (note c .info ("scaling up " ++ v.profile ++ " by " ++
                toString v.delta ++ " at version " ++ version ++ " " ++ counts v) []
                { s' with world }).world with ⟨answer, after⟩
              cases answer with
              | error e => exact giveUp_spec v e (faithful_of_eq hafter rfl rfl)
              | ok done => exact ⟨rfl, faithful_of_eq hafter rfl rfl⟩

theorem compareAndAct_spec (hc : Follows c script)
    (hrange : ∀ requirement ∈ document.requirements, script.InRange requirement)
    (h : Faithful script document s) {requirement : Requirement}
    (hr : requirement ∈ document.requirements) {desired : Int}
    (hd : requirement.minimum = some desired) {autoscaler : α}
    (ho : script.offer document requirement = .ok (some autoscaler)) :
    (compareAndAct c document requirement desired autoscaler s).1 =
        script.verdict document requirement ∧
      Faithful script document (compareAndAct c document requirement desired autoscaler s).2 := by
  obtain ⟨hanswer, hafter⟩ := countable_spec hc h requirement.profile
  simp only [compareAndAct, Script.verdict, hd, ho]
  rcases hcount : countable c requirement.profile s with ⟨answer, s'⟩
  rw [hcount] at hanswer hafter
  rw [← hanswer]
  cases answer with
  | error e => exact giveUp_spec _ e hafter
  | ok instances =>
      obtain ⟨hshort, hlow, hhigh⟩ := hrange requirement hr desired hd instances hanswer.symm
      -- the numbers are in range, so they are those that the reference takes
      have hlength : count32 instances = instances.length := count32_of_lt hshort
      have hdelta : wrap32 (desired - instances.length) = desired - instances.length :=
        wrap32_of_range (by omega) hhigh
      simp only [hlength, hdelta]
      by_cases hneg : desired - instances.length < 0
      · simp only [hneg, if_true]
        exact shrink_spec hc hafter autoscaler _ instances hlow hneg
      · by_cases hpos : 0 < desired - instances.length
        · have hne : ¬ desired - instances.length = 0 := by omega
          simp only [hneg, hpos, hne, if_true, if_false]
          exact grow_spec hc hrange hafter requirement autoscaler _
        · have hzero : desired - instances.length = 0 := by omega
          simp only [hzero, Int.lt_irrefl, if_true, if_false]
          exact ⟨trivial, hafter⟩

/-- The verdict on one requirement is that of the reference. -/
theorem judge_spec (hc : Follows c script)
    (hrange : ∀ requirement ∈ document.requirements, script.InRange requirement)
    (h : Faithful script document s) {requirement : Requirement}
    (hr : requirement ∈ document.requirements) :
    (judge c document requirement s).1 = script.verdict document requirement ∧
      Faithful script document (judge c document requirement s).2 := by
  cases hd : requirement.minimum with
  | none => exact ⟨by simp [judge, Script.verdict, hd], by simpa [judge, hd] using h⟩
  | some desired =>
      have hanswer := hc.offer document requirement s.world
      rcases hoffer : c.offer document requirement s.world with ⟨answer, world⟩
      rw [hoffer] at hanswer
      have hafter : Faithful script document { s with world } := faithful_of_eq h rfl rfl
      simp only [judge, hd, hoffer]
      cases answer with
      | error e =>
          simp only [Script.verdict, hd, ← hanswer]
          exact giveUp_spec _ e hafter
      | ok offered =>
          cases offered with
          | none =>
              simp only [Script.verdict, hd, ← hanswer]
              exact ⟨trivial, faithful_of_eq hafter rfl rfl⟩
          | some autoscaler =>
              exact compareAndAct_spec hc hrange hafter hr hd hanswer.symm

/-- Requirements that are judged one after the other get the verdicts of the reference. -/
theorem judgeAll_spec (hc : Follows c script)
    (hrange : ∀ requirement ∈ document.requirements, script.InRange requirement)
    {requirements : List Requirement} (hmem : ∀ r ∈ requirements, r ∈ document.requirements)
    (h : Faithful script document s) :
    (judgeAll c document requirements s).1 = requirements.map (script.verdict document) := by
  induction requirements generalizing s with
  | nil => rfl
  | cons requirement rest ih =>
      obtain ⟨hverdict, hafter⟩ := judge_spec hc hrange h (hmem requirement (by simp))
      have hrest := ih (fun r hr => hmem r (List.mem_cons_of_mem _ hr)) hafter
      simp only [judgeAll, List.map_cons, ← hverdict, ← hrest]

/-- **A pass comes to the verdicts of the reference**, one for each requirement and in the order of
the document, if its numbers fit into 32 bits: neither the kept answers nor the copy of the document
leave a trace in its report. -/
theorem run_eq_reference (hc : Follows c script) (document : Document)
    (hrange : ∀ requirement ∈ document.requirements, script.InRange requirement) (world : σ) :
    (run c document world).1.verdicts = document.requirements.map (script.verdict document) :=
  judgeAll_spec hc hrange (fun _ hr => hr) (faithful_init script document world)

/-- Two profiles that wait for each other, and a third that waits for a profile nobody asks for. -/
def entangled : Document where
  requirements := [
    { profile := "api", minimum := some 2, dependencies := ["worker"] },
    { profile := "worker", minimum := some 1, dependencies := ["cache", "api"] },
    { profile := "front", minimum := some 1, dependencies := ["cache"] }]
  distinct := by decide

/-- An inventory with one running instance of the first profile, and an autoscaler for all. -/
def oneRunning : Script Unit where
  offer _ _ := .ok (some ())
  instances profile :=
    if profile = "api" then .ok [{ id := "api-1", profile, alive := true }] else .ok []
  version := .ok "v1"
  create _ _ := .ok ()
  destroy _ _ := .ok ()

theorem inRange_entangled :
    ∀ requirement ∈ entangled.requirements, oneRunning.InRange requirement := by
  intro requirement hr desired hd instances hi
  simp only [entangled, List.mem_cons, List.not_mem_nil, or_false] at hr
  rcases hr with rfl | rfl | rfl <;>
    (simp [Script.countable, oneRunning] at hd hi; subst hd hi; decide)

/-- The two that wait for each other are held back, the third one grows. -/
theorem run_entangled :
    Follows oneRunning.collaborators oneRunning ∧
      (∀ requirement ∈ entangled.requirements, oneRunning.InRange requirement) ∧
      (run oneRunning.collaborators entangled []).1.verdicts =
        [{ profile := "api", outcome := .gated, desired := 2, observed := 1, delta := 1,
           blocking := "worker" },
         { profile := "worker", outcome := .gated, desired := 1, delta := 1, blocking := "api" },
         { profile := "front", outcome := .scaledUp, desired := 1, delta := 1 }] := by
  refine ⟨follows_collaborators oneRunning, inRange_entangled, ?_⟩
  rw [run_eq_reference (follows_collaborators oneRunning) entangled inRange_entangled]
  decide

end Pass

end FleetScaler
