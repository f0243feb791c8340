import FleetScaler.Membership.Script

/-!
# Activation that fails half-way

An activation makes four calls, and any coordination service may fail at each of them. `Attempt`
lists how far it may come: what has been called, what whoever asked for the activation gets, and
which group the elector has in the end. An elector that could not join, listen or publish has none
and tries all of it again the next time. The group counts as joined before it is started, so an
elector whose start fails passes for active, and no later activation starts it.

Nothing is undone in any case: a group that was joined in vain is not closed, and what it has to say
goes on reaching the elector.
-/

namespace FleetScaler

variable {σ γ : Type}

/-! ## Calls -/

/-- A call that an elector made to its coordination service, with its answer. -/
inductive GroupCall (γ : Type) where
  | join (path nodeType : String) (answer : Except Failure γ)
  | listen (group : γ) (answer : Except Failure Unit)
  | update (group : γ) (state : MemberState) (answer : Except Failure Unit)
  | start (group : γ) (answer : Except Failure Unit)
  | unlisten (group : γ)
  | close (group : γ)

namespace GroupAccess

/-- The same service, which also keeps the calls made to it, newest first. -/
def recorded (access : GroupAccess σ γ) : GroupAccess (σ × List (GroupCall γ)) γ where
  join path nodeType s :=
    let (answer, world) := access.join path nodeType s.1
    (answer, world, .join path nodeType answer :: s.2)
  listen g s :=
    let (answer, world) := access.listen g s.1
    (answer, world, .listen g answer :: s.2)
  update g state s :=
    let (answer, world) := access.update g state s.1
    (answer, world, .update g state answer :: s.2)
  start g s :=
    let (answer, world) := access.start g s.1
    (answer, world, .start g answer :: s.2)
  unlisten g s := (access.unlisten g s.1, .unlisten g :: s.2)
  close g s := (access.close g s.1, .close g :: s.2)
  isMaster g s := access.isMaster g s.1
  memberId g s := access.memberId g s.1

end GroupAccess

namespace Elector

/-- The calls that an activation makes, oldest first. -/
def callsOf (e : Elector γ) (access : GroupAccess σ γ) (s : σ) : List (GroupCall γ) :=
  (e.activate (some access.recorded) (s, [])).2.2.2.reverse

/-- The calls of an activation that goes well. -/
def wholeActivation (e : Elector γ) (g : γ) : List (GroupCall γ) :=
  [.join e.config.groupPath e.config.nodeType (.ok g), .listen g (.ok ()),
    .update g e.state (.ok ()), .start g (.ok ())]

/-- How far the activation of an inactive elector may come: its calls, what comes of it, and the
group of the elector afterwards. -/
inductive Attempt (e : Elector γ) :
    List (GroupCall γ) → Except Failure Unit → Option γ → Prop where
  | notJoined (failure : Failure) :
      Attempt e [.join e.config.groupPath e.config.nodeType (.error failure)] (.error failure) none
  | notHeard (g : γ) (failure : Failure) :
      Attempt e ((e.wholeActivation g).take 1 ++ [.listen g (.error failure)])
        (.error failure) none
  | notPublished (g : γ) (failure : Failure) :
      Attempt e ((e.wholeActivation g).take 2 ++ [.update g e.state (.error failure)])
        (.error failure) none
  | notStarted (g : γ) (failure : Failure) :
      Attempt e ((e.wholeActivation g).take 3 ++ [.start g (.error failure)])
        (.error failure) (some g)
  | complete (g : γ) : Attempt e (e.wholeActivation g) (.ok ()) (some g)

/-! ## One activation -/

variable (e : Elector γ) (access : GroupAccess σ γ) (s : σ)

/-- An active elector makes no call and stays as it is. -/
theorem activate_of_active {e : Elector γ} (h : e.isActive = true)
    (service : Option (GroupAccess σ γ)) (s : σ) : e.activate service s = (.ok (), e, s) := by
  unfold activate
  rw [if_pos h]

/-- **How far an activation comes**, whichever of its calls fail, and whether or not its calls are
kept. Of the elector nothing changes but its group, and a log record once everything went well. -/
theorem attempt {e : Elector γ} (h : e.isActive = false) :
    let out := e.activate (some access) s
    let kept := e.activate (some access.recorded) (s, [])
    (kept.1, kept.2.1, kept.2.2.1) = out ∧
      Attempt e (e.callsOf access s) out.1 out.2.1.group ∧
      ∃ journal, out.2.1 = { e with group := out.2.1.group, journal := journal } ∧
        (out.1 ≠ .ok () → journal = e.journal) := by
  have hgroup : e.group = none := by simpa [isActive] using h
  have hsame : e = { e with group := none, journal := e.journal } := by rw [← hgroup]
  rcases hjoin : access.join e.config.groupPath e.config.nodeType s with ⟨failure | g, s₁⟩
  · simp only [callsOf, activate, h, Bool.false_eq_true, if_false, GroupAccess.recorded, hjoin]
    rw [hgroup]
    exact ⟨trivial, .notJoined failure, e.journal, hsame, fun _ => rfl⟩
  rcases hlisten : access.listen g s₁ with ⟨failure | _, s₂⟩
  · simp only [callsOf, activate, h, Bool.false_eq_true, if_false, GroupAccess.recorded, hjoin,
      hlisten]
    rw [hgroup]
    exact ⟨trivial, .notHeard g failure, e.journal, hsame, fun _ => rfl⟩
  rcases hupdate : access.update g e.state s₂ with ⟨failure | _, s₃⟩
  · simp only [callsOf, activate, h, Bool.false_eq_true, if_false, GroupAccess.recorded, hjoin,
      hlisten, hupdate]
    rw [hgroup]
    exact ⟨trivial, .notPublished g failure, e.journal, hsame, fun _ => rfl⟩
  rcases hstart : access.start g s₃ with ⟨failure | _, s₄⟩
  · simp only [callsOf, activate, h, Bool.false_eq_true, if_false, GroupAccess.recorded, hjoin,
      hlisten, hupdate, hstart]
    exact ⟨trivial, .notStarted g failure, e.journal, rfl, fun _ => rfl⟩
  · simp only [callsOf, activate, h, Bool.false_eq_true, if_false, GroupAccess.recorded, hjoin,
      hlisten, hupdate, hstart]
    exact ⟨trivial, .complete g, _, rfl, fun hne => absurd rfl hne⟩

/-! ## What is left of a failure -/

/-- Nobody can tell the elector from one that has never been activated: it is inactive, has no
member, is no master, and whoever activates it has it join first. -/
structure Idle (e : Elector γ) : Prop where
  inactive : e.isActive = false
  nameless : ∀ {σ : Type} (access : GroupAccess σ γ) (s : σ), e.memberId access s = ""
  powerless : ∀ {σ : Type} (access : GroupAccess σ γ) (s : σ), e.isMaster access s = false
  joins : ∀ {σ : Type} (access : GroupAccess σ γ) (s : σ), ∃ answer,
    (e.callsOf access s).head? = some (.join e.config.groupPath e.config.nodeType answer)

theorem Attempt.head? {calls : List (GroupCall γ)} {outcome : Except Failure Unit}
    {group : Option γ} (h : Attempt e calls outcome group) :
    ∃ answer, calls.head? = some (.join e.config.groupPath e.config.nodeType answer) := by
  cases h <;> exact ⟨_, rfl⟩

theorem idle_iff {e : Elector γ} : e.Idle ↔ e.isActive = false := by
  refine ⟨Idle.inactive, fun h => ?_⟩
  have hgroup : e.group = none := by simpa [isActive] using h
  exact ⟨h, fun _ _ => by simp [memberId, hgroup], fun _ _ => by simp [isMaster, hgroup],
    fun access s => (attempt access s h).2.1.head?⟩

/-- No activation undoes what another call of it has done. -/
theorem Attempt.undoes_nothing {calls : List (GroupCall γ)} {outcome : Except Failure Unit}
    {group : Option γ} (h : Attempt e calls outcome group) (g : γ) :
    .unlisten g ∉ calls ∧ .close g ∉ calls := by
  cases h <;> simp [wholeActivation]

/-- A failed activation leaves a group to the elector exactly if it was the start that failed. -/
theorem Attempt.group_eq_none_iff {calls : List (GroupCall γ)} {failure : Failure}
    {group : Option γ} (h : Attempt e calls (.error failure) group) :
    group = none ↔ ∀ g, .start g (.error failure) ∉ calls := by
  cases h <;> simp [wholeActivation]

theorem Attempt.of_some {calls : List (GroupCall γ)} {failure : Failure} {g : γ}
    (h : Attempt e calls (.error failure) (some g)) :
    calls = (e.wholeActivation g).take 3 ++ [.start g (.error failure)] := by
  cases h
  rfl

theorem Attempt.of_ok {calls : List (GroupCall γ)} {group : Option γ}
    (h : Attempt e calls (.ok ()) group) : ∃ g, group = some g ∧ calls = e.wholeActivation g := by
  cases h
  exact ⟨_, rfl, rfl⟩

/--
**Where a failed activation leaves no trace on the elector.** Whatever the coordination service is,
and whichever of its calls fail:

* an active elector makes no call and stays as it is, and without a service an inactive one does;
* if an activation goes well, the elector has the group that it joined, heard, sent its state and
  started, in this order;
* if it fails, the elector is as it was, inactive and ready to join again, exactly if it was not the
  start that failed. In either case the group is neither closed nor left unheard;
* if the start failed, the elector is active with a group that was never started, and no later
  activation makes a call.
-/
theorem failed_activation_is_idle_iff (e : Elector γ) (access : GroupAccess σ γ) (s : σ) :
    let out := e.activate (some access) s
    let calls := e.callsOf access s
    (e.isActive = true → out = (.ok (), e, s) ∧ calls = []) ∧
    (e.isActive = false →
      e.activate (none : Option (GroupAccess σ γ)) s
        = (.error (.noCoordination e.config.groupPath), e, s) ∧
      (out.1 = .ok () → ∃ g, calls = e.wholeActivation g ∧ out.2.1.group = some g) ∧
      ∀ failure, out.1 = .error failure →
        (out.2.1.Idle ↔ ∀ g, .start g (.error failure) ∉ calls) ∧
        (∀ g, .unlisten g ∉ calls ∧ .close g ∉ calls) ∧
        (out.2.1.Idle → out.2.1 = e) ∧
        (¬ out.2.1.Idle → ∃ g,
          calls = (e.wholeActivation g).take 3 ++ [.start g (.error failure)] ∧
          out.2.1 = { e with group := some g } ∧
          ∀ {σ' : Type} (later : GroupAccess σ' γ) (s' : σ'),
            out.2.1.activate (some later) s' = (.ok (), out.2.1, s') ∧
              out.2.1.callsOf later s' = [])) := by
  intro out calls
  have hnothing : ∀ {e : Elector γ} {σ' : Type} (later : GroupAccess σ' γ) (s' : σ'),
      e.isActive = true →
        e.activate (some later) s' = (.ok (), e, s') ∧ e.callsOf later s' = [] := by
    intro e σ' later s' h
    refine ⟨activate_of_active h _ s', ?_⟩
    rw [callsOf, activate_of_active h]
    rfl
  refine ⟨hnothing access s, fun h => ⟨?_, fun hok => ?_, fun failure hfail => ?_⟩⟩
  · simp [activate, h]
  · obtain ⟨-, hattempt, -⟩ := attempt access s h
    rw [show (e.activate (some access) s).1 = .ok () from hok] at hattempt
    obtain ⟨g, hgroup, hcalls⟩ := hattempt.of_ok
    exact ⟨g, hcalls, hgroup⟩
  · obtain ⟨-, hattempt, journal, hout, hjournal⟩ := attempt access s h
    have hj : journal = e.journal := hjournal (by rw [hfail]; simp)
    subst hj
    rw [show (e.activate (some access) s).1 = .error failure from hfail] at hattempt
    have hidle : out.2.1.Idle ↔ out.2.1.group = none := by
      rw [idle_iff, isActive, Option.isSome_eq_false_iff, Option.isNone_iff_eq_none]
    refine ⟨hidle.trans hattempt.group_eq_none_iff, hattempt.undoes_nothing, fun hi => ?_,
      fun hi => ?_⟩
    · have hgroup : e.group = none := by simpa [isActive] using h
      calc out.2.1 = { e with group := out.2.1.group } := hout
        _ = { e with group := none } := by rw [hidle.mp hi]
        _ = e := by rw [← hgroup]
    · obtain ⟨g, hg⟩ := Option.ne_none_iff_exists'.mp (mt hidle.mpr hi)
      rw [show (e.activate (some access) s).2.1.group = some g from hg] at hattempt
      have hkept : out.2.1 = { e with group := some g } := by
        rw [← hg]
        exact hout
      have hactive : out.2.1.isActive = true := by rw [isActive, hg, Option.isSome_some]
      exact ⟨g, hattempt.of_some, hkept, fun later s' => hnothing later s' hactive⟩

/-- Scripted groups none of which can be started. -/
def unstartable : GroupAccess ScriptedGroups Nat :=
  { ScriptedGroups.access with
    start := fun number s =>
      (.error (.startAfterClose (ScriptedGroups.access.memberId number s)), s) }

/-- An elector whose start fails is active with a member that has not started, and the next
activation reports success without a call. One that cannot publish is inactive, but the group that
it joined in vain still calls it: it takes that group's word for its session, and claims to be the
master of the next group before this one has told it anything. -/
theorem failed_start_counts_as_active :
    let e : Elector Nat := {}
    let out := e.activate (some unstartable) {}
    let failed := e.activate (some ScriptedGroups.access) { staleJoins := true }
    let misled := (failed.2.1.hear "/autoscale/controllers!autoscaler!0" .connected).2
    let next := misled.activate (some ScriptedGroups.access) { failed.2.2 with staleJoins := false }
    out.1 = .error (.startAfterClose "/autoscale/controllers!autoscaler!0") ∧
    ¬ out.2.1.Idle ∧
    out.2.1.memberId unstartable out.2.2 = "/autoscale/controllers!autoscaler!0" ∧
    out.2.2.groups.map ScriptedGroup.started = [false] ∧
    (out.2.1.activate (some ScriptedGroups.access) out.2.2) = (.ok (), out.2.1, out.2.2) ∧
    failed.1 = .error (.membershipStale "membership torn down") ∧ failed.2.1.Idle ∧
    failed.2.2.groups.map ScriptedGroup.listening = [true] ∧
    next.1 = .ok () ∧
    next.2.1.isMaster ScriptedGroups.access
      (next.2.2.change 1 fun g => { g with master := true }) = true := by
  refine ⟨by rfl, ?_, by decide +kernel, by decide +kernel, ?_, by rfl, ?_,
    by decide +kernel, by rfl, by decide +kernel⟩
  · rw [idle_iff]
    decide +kernel
  · exact activate_of_active (by decide +kernel) _ _
  · rw [idle_iff]
    decide +kernel

end Elector

end FleetScaler
