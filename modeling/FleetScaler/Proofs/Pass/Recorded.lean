import FleetScaler.Pass.Basic

/-!
# Keeping the calls of a pass

Collaborators can keep the calls that are made to them. That has no bearing on a pass: it comes to
the same report and leaves the same world as without, so what is kept is what the pass calls.
-/

namespace FleetScaler

variable {σ α : Type}

namespace PassState

/-- The calls of a pass so far, oldest first. -/
def calls (s : PassState (σ × List Call)) : List Call := s.world.2.reverse

/-- What a pass carries, without the calls. -/
def forget (s : PassState (σ × List Call)) : PassState σ :=
  { world := s.world.1, lookup := s.lookup, answers := s.answers }

end PassState

namespace Pass

open PassState (forget)

/-! ## The ends of a judgement

A judgement ends with a command, after the log record that announces it. -/

/-- The verdict once a request to stop instances has been answered. -/
def stop (c : Collaborators σ α) (autoscaler : α) (v : Verdict) (request : ScaleDown)
    (s : PassState σ) : Verdict × PassState σ :=
  match c.destroy autoscaler request s.world with
  | (.error e, world) => giveUp c v e { s with world }
  | (.ok _, world) => ({ v with outcome := .scaledDown }, { s with world })

/-- The verdict once a request to start instances has been answered. -/
def start (c : Collaborators σ α) (autoscaler : α) (v : Verdict) (request : ScaleUp)
    (s : PassState σ) : Verdict × PassState σ :=
  match c.create autoscaler request s.world with
  | (.error e, world) => giveUp c v e { s with world }
  | (.ok _, world) => ({ v with outcome := .scaledUp }, { s with world })

/-- The verdict on a profile that nothing holds back: the version is fetched and instances of that
version are started, which the message announces. -/
def fetchAndStart (c : Collaborators σ α) (document : Document) (requirement : Requirement)
    (autoscaler : α) (v : Verdict) (message : String → String) (s : PassState σ) :
    Verdict × PassState σ :=
  match c.version s.world with
  | (.error e, world) => giveUp c v e { s with world }
  | (.ok version, world) =>
    start c autoscaler v
      { version, profile := v.profile, count := v.delta, requirements := document, requirement }
      (note c .info (message version) [] { s with world })

theorem shrink_eq (autoscaler : α) (v : Verdict) (instances : List Instance) :
    ∃ message, ∀ {σ : Type} (c : Collaborators σ α) (s : PassState σ),
      shrink c autoscaler v instances s =
        stop c autoscaler v
          { profile := v.profile, count := wrap32 (-v.delta), candidates := instances }
          (note c .info message [] s) :=
  ⟨_, fun _ _ => rfl⟩

theorem grow_eq (document : Document) (requirement : Requirement) (autoscaler : α) (v : Verdict) :
    ∃ message, ∀ {σ : Type} (c : Collaborators σ α) (s : PassState σ),
      grow c document requirement autoscaler v s =
        match blocking? c v.profile requirement.dependencies s with
        | (.error e, s) => giveUp c v e s
        | (.ok (some dependency), s) => ({ v with outcome := .gated, blocking := dependency }, s)
        | (.ok none, s) => fetchAndStart c document requirement autoscaler v message s :=
  ⟨_, fun _ _ => rfl⟩

/-! ## Keeping the calls -/

/-- The calls that a pass makes, oldest first. -/
def callsOf (c : Collaborators σ α) (document : Document) (world : σ) : List Call :=
  (run c.recorded document (world, [])).2.2.reverse

variable (c : Collaborators σ α) (document : Document)

theorem forget_note (level : Log.Level) (message : String) (context : List (String × String))
    (s : PassState (σ × List Call)) :
    forget (note c.recorded level message context s) = note c level message context (forget s) :=
  rfl

theorem forget_noteInstances (instances : List Instance) (s : PassState (σ × List Call)) :
    forget (noteInstances c.recorded instances s) = noteInstances c instances (forget s) := by
  induction instances generalizing s with
  | nil => rfl
  | cons i rest ih =>
      rw [noteInstances, List.foldl_cons]
      exact ih _

theorem countable_forget (profile : String) (s : PassState (σ × List Call)) :
    countable c profile (forget s)
      = ((countable c.recorded profile s).1, forget (countable c.recorded profile s).2) := by
  unfold countable
  cases hk : s.answers.lookup profile with
  | some instances => simp [forget, hk]
  | none =>
      rcases hcall : c.instances profile s.world.1 with ⟨answer, world⟩
      cases answer with
      | error e => simp [forget, hk, Collaborators.recorded, hcall]
      | ok all =>
          have hnoted := forget_noteInstances c (all.filter Instance.isCountable)
            { s with world := (world, .instances profile (.ok all) :: s.world.2) }
          have hkept := congrArg (fun t : PassState σ =>
            { t with answers := (profile, all.filter Instance.isCountable) :: t.answers }) hnoted
          have hforget : (forget s).answers.lookup profile = none := hk
          have hcall' : c.instances profile (forget s).world = (.ok all, world) := hcall
          simp only [hforget, hcall', Collaborators.recorded, hcall]
          exact Prod.ext rfl hkept.symm

theorem blocking?_forget (profile : String) (dependencies : List String)
    (s : PassState (σ × List Call)) :
    blocking? c profile dependencies (forget s)
      = ((blocking? c.recorded profile dependencies s).1,
        forget (blocking? c.recorded profile dependencies s).2) := by
  induction dependencies generalizing s with
  | nil => rfl
  | cons dependency rest ih =>
      have hlookup : (forget s).lookup = s.lookup := rfl
      simp only [blocking?, hlookup]
      cases (s.lookup.getOrCreate dependency).1.minimum with
      | none => exact ih { s with lookup := (s.lookup.getOrCreate dependency).2 }
      | some minimum =>
          have hcount := countable_forget c dependency
            { s with lookup := (s.lookup.getOrCreate dependency).2 }
          have hsame : forget { s with lookup := (s.lookup.getOrCreate dependency).2 }
              = { forget s with lookup := (s.lookup.getOrCreate dependency).2 } := rfl
          rw [hsame] at hcount
          rcases hanswer : countable c.recorded dependency
            { s with lookup := (s.lookup.getOrCreate dependency).2 } with ⟨answer, s'⟩
          rw [hanswer] at hcount
          simp only [hcount]
          cases answer with
          | error e => rfl
          | ok instances =>
              by_cases hless : count32 instances < minimum
              · simp only [hless, if_true]
                rfl
              · simp only [hless, if_false]
                exact ih s'

theorem giveUp_forget (v : Verdict) (e : Failure) (s : PassState (σ × List Call)) :
    giveUp c v e (forget s) = ((giveUp c.recorded v e s).1, forget (giveUp c.recorded v e s).2) :=
  rfl

theorem stop_forget (autoscaler : α) (v : Verdict) (request : ScaleDown)
    (s : PassState (σ × List Call)) :
    stop c autoscaler v request (forget s)
      = ((stop c.recorded autoscaler v request s).1,
        forget (stop c.recorded autoscaler v request s).2) := by
  rcases hcall : c.destroy autoscaler request s.world.1 with ⟨answer, world⟩
  cases answer <;> simp [stop, forget, giveUp, note, Collaborators.recorded, hcall]

theorem start_forget (autoscaler : α) (v : Verdict) (request : ScaleUp)
    (s : PassState (σ × List Call)) :
    start c autoscaler v request (forget s)
      = ((start c.recorded autoscaler v request s).1,
        forget (start c.recorded autoscaler v request s).2) := by
  rcases hcall : c.create autoscaler request s.world.1 with ⟨answer, world⟩
  cases answer <;> simp [start, forget, giveUp, note, Collaborators.recorded, hcall]

theorem fetchAndStart_forget (requirement : Requirement) (autoscaler : α) (v : Verdict)
    (message : String → String) (s : PassState (σ × List Call)) :
    fetchAndStart c document requirement autoscaler v message (forget s)
      = ((fetchAndStart c.recorded document requirement autoscaler v message s).1,
        forget (fetchAndStart c.recorded document requirement autoscaler v message s).2) := by
  rcases hcall : c.version s.world.1 with ⟨answer, world⟩
  have hversion : c.version (forget s).world = (answer, world) := hcall
  have hrecorded : c.recorded.version s.world = (answer, world, .version answer :: s.world.2) := by
    simp [Collaborators.recorded, hcall]
  simp only [fetchAndStart, hversion, hrecorded]
  let after : PassState (σ × List Call) :=
    { s with world := (world, .version answer :: s.world.2) }
  cases answer with
  | error e => exact giveUp_forget c v e after
  | ok version =>
      exact start_forget c autoscaler v
        { version, profile := v.profile, count := v.delta, requirements := document, requirement }
        (note c.recorded .info (message version) [] after)

theorem grow_forget (requirement : Requirement) (autoscaler : α) (v : Verdict)
    (s : PassState (σ × List Call)) :
    grow c document requirement autoscaler v (forget s)
      = ((grow c.recorded document requirement autoscaler v s).1,
        forget (grow c.recorded document requirement autoscaler v s).2) := by
  obtain ⟨message, heq⟩ := grow_eq document requirement autoscaler v
  rw [heq, heq, blocking?_forget]
  rcases blocking? c.recorded v.profile requirement.dependencies s with ⟨answer, s'⟩
  match answer with
  | .error e => exact giveUp_forget c v e s'
  | .ok (some dependency) => rfl
  | .ok none => exact fetchAndStart_forget c document requirement autoscaler v message s'

theorem compareAndAct_forget (requirement : Requirement) (desired : Int) (autoscaler : α)
    (s : PassState (σ × List Call)) :
    compareAndAct c document requirement desired autoscaler (forget s)
      = ((compareAndAct c.recorded document requirement desired autoscaler s).1,
        forget (compareAndAct c.recorded document requirement desired autoscaler s).2) := by
  simp only [compareAndAct, countable_forget]
  rcases countable c.recorded requirement.profile s with ⟨answer, s'⟩
  cases answer with
  | error e => exact giveUp_forget c _ e s'
  | ok instances =>
      dsimp only
      split
      · obtain ⟨message, heq⟩ := shrink_eq autoscaler
          { profile := requirement.profile, desired, observed := count32 instances
            delta := wrap32 (desired - count32 instances) } instances
        rw [heq, heq, ← forget_note]
        exact stop_forget c autoscaler _ _ _
      · split
        · exact grow_forget c document requirement autoscaler _ s'
        · rfl

theorem judge_forget (requirement : Requirement) (s : PassState (σ × List Call)) :
    judge c document requirement (forget s)
      = ((judge c.recorded document requirement s).1,
        forget (judge c.recorded document requirement s).2) := by
  cases hm : requirement.minimum with
  | none => simp [judge, hm]
  | some desired =>
      rcases hcall : c.offer document requirement s.world.1 with ⟨answer, world⟩
      have hoffer : c.offer document requirement (forget s).world = (answer, world) := hcall
      have hrecorded : c.recorded.offer document requirement s.world = (answer, world,
          .offer requirement.profile (answer.map Option.isSome) :: s.world.2) := by
        simp [Collaborators.recorded, hcall]
      simp only [judge, hm, hoffer, hrecorded]
      rcases answer with e | offered
      · rfl
      · cases offered with
        | none => rfl
        | some autoscaler =>
            exact compareAndAct_forget c document requirement desired autoscaler
              { s with world := (world, .offer requirement.profile (.ok true) :: s.world.2) }

theorem judgeAll_forget (requirements : List Requirement) (s : PassState (σ × List Call)) :
    judgeAll c document requirements (forget s)
      = ((judgeAll c.recorded document requirements s).1,
        forget (judgeAll c.recorded document requirements s).2) := by
  induction requirements generalizing s with
  | nil => rfl
  | cons requirement rest ih =>
      simp only [judgeAll, judge_forget, ih]

/-- **Keeping the calls has no bearing on a pass.** -/
theorem run_recorded (world : σ) (calls : List Call) :
    run c document world = ((run c.recorded document (world, calls)).1,
      (run c.recorded document (world, calls)).2.1) := by
  have hall := judgeAll_forget c document document.requirements
    { world := (world, calls), lookup := document }
  have hstart : forget { world := (world, calls), lookup := document }
      = ({ world, lookup := document } : PassState σ) := rfl
  rw [hstart] at hall
  simp only [run, hall]
  rfl

end Pass

end FleetScaler
