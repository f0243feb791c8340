import FleetScaler.Proofs.Pass.Ledger

/-!
# One view of the inventory per pass

The inventory may tell something else with every call, and may fail at any of them. A pass sees one
state of it all the same: the first answer about a profile settles what the pass knows about that
profile, and whatever is counted, checked or stopped later goes by it. What carries this is that
the answers a pass keeps are no more than its calls tell: what is kept about a profile is what the
first answer about it told. So each judgement can be told by the calls made until its end, without
the state of the pass.
-/

namespace FleetScaler

variable {σ α : Type}

namespace Call

/-- The countable instances of a profile, if the call got them. -/
def seen? (profile : String) : Call → Option (List Instance)
  | .instances asked (.ok all) =>
    if asked = profile then some (all.filter Instance.isCountable) else none
  | _ => none

end Call

namespace Verdict

/-- The verdict once the command that was due has been answered. -/
def settled (v : Verdict) (outcome : Outcome) : Except Failure Unit → Verdict
  | .ok _ => { v with outcome }
  | .error e => v.failed e

end Verdict

namespace Pass

open PassState (calls)

/-! ## What the calls tell -/

/-- The countable instances of a profile, by the first answer about it among the calls. -/
def seen (calls : List Call) (profile : String) : Option (List Instance) :=
  calls.findSome? (Call.seen? profile)

variable {d : Document} {calls before : List Call} {call : Call} {profile : String}

theorem seen_append (before later : List Call) (profile : String) :
    seen (before ++ later) profile = (seen before profile).or (seen later profile) :=
  List.findSome?_append

theorem seen_concat (before : List Call) (call : Call) (profile : String) :
    seen (before ++ [call]) profile = (seen before profile).or (call.seen? profile) := by
  rw [seen_append]
  congr 1
  simp [seen]

/-- What has been seen is seen from then on. -/
theorem seen_append_of_some {instances : List Instance} (h : seen before profile = some instances)
    (later : List Call) : seen (before ++ later) profile = some instances := by
  rw [seen_append, h, Option.some_or]

theorem not_mem_of_seen_eq_none (h : seen calls profile = none) (all : List Instance) :
    .instances profile (.ok all) ∉ calls := by
  intro hmem
  have hnone := List.findSome?_eq_none_iff.mp h _ hmem
  simp [Call.seen?] at hnone

/-! ## One view -/

/-- A pass may make the call after the ones before: it asks about a profile that has a minimum and
that it has not seen, and hands over what it has seen. -/
def Permitted (d : Document) (before : List Call) : Call → Prop
  | .instances profile _ => (d.minimum? profile).isSome ∧ seen before profile = none
  | .destroy request _ => seen before request.profile = some request.candidates
  | _ => True

/-- A pass may make the calls in their order. -/
def Sparing (d : Document) (calls : List Call) : Prop :=
  ∀ before call later, calls = before ++ call :: later → Permitted d before call

/-- The calls go by one view of the inventory. -/
structure OneView (d : Document) (calls : List Call) : Prop where
  /-- Only a profile that has a minimum is asked about, and only a question that failed is asked
  again. -/
  asks : ∀ before profile answer later, calls = before ++ .instances profile answer :: later →
    (d.minimum? profile).isSome ∧
      ∀ earlier, .instances profile earlier ∈ before → ∃ e, earlier = .error e
  /-- Whatever answer there is about a profile, it is the one that is seen from then on. -/
  tells : ∀ before later profile all, calls = before ++ later →
    .instances profile (.ok all) ∈ before →
      seen before profile = some (all.filter Instance.isCountable)
  /-- The instances that may be stopped are the ones seen, in their order. -/
  stops : ∀ before request answer later, calls = before ++ .destroy request answer :: later →
    seen before request.profile = some request.candidates

theorem Sparing.oneView (h : Sparing d calls) : OneView d calls where
  asks before profile answer later heq := by
    obtain ⟨hm, hnone⟩ := h before _ later heq
    refine ⟨hm, fun earlier hmem => ?_⟩
    cases earlier with
    | error e => exact ⟨e, rfl⟩
    | ok all => exact absurd hmem (not_mem_of_seen_eq_none hnone all)
  tells before later profile all heq hmem := by
    obtain ⟨first, rest, rfl⟩ := List.append_of_mem hmem
    rw [List.append_assoc, List.cons_append] at heq
    -- nothing had been seen when the answer came, so it is the first one
    have hnone := (h first _ _ heq).2
    rw [seen_append, hnone, Option.none_or]
    simp [seen, Call.seen?]
  stops before request answer later heq := h before _ later heq

/-! ## A judgement by what the calls tell -/

section Enough

variable (d) (size : List Instance → Int) (view : String → Option (List Instance))

/-- The view has the instances that the document asks for, if it asks for any, where `size` tells
how many instances of it there are. -/
def Reached (profile : String) : Prop :=
  ∀ minimum, d.minimum? profile = some minimum →
    ∃ instances, view profile = some instances ∧ minimum ≤ size instances

/-- The view has fewer instances than the document asks for. -/
def Lags (profile : String) : Prop :=
  ∃ minimum instances, d.minimum? profile = some minimum ∧ view profile = some instances ∧
    size instances < minimum

end Enough

variable (d) (view : String → Option (List Instance))

/-- The calls got the instances of some of the profiles and did nothing else. -/
def Answered (profiles : List String) (calls : List Call) : Prop :=
  ∀ call ∈ calls, ∃ profile ∈ profiles, ∃ all, call = .instances profile (.ok all)

/-- The instances of a profile have been counted, with the calls that this took. -/
inductive Counted (profile : String) : List Call → Except Failure (List Instance) → Prop
  | seen {asked : List Call} {instances : List Instance} (hasked : Answered [profile] asked)
      (hview : view profile = some instances) : Counted profile asked (.ok instances)
  | failed (e : Failure) : Counted profile [.instances profile (.error e)] (.error e)

/-- The dependencies of a profile have been checked one after the other, with the calls that this
took. -/
inductive Checked (dependencies : List String) :
    List Call → Except Failure (Option String) → Prop
  | passed {asked : List Call} (hasked : Answered dependencies asked)
      (hreached : ∀ dependency ∈ dependencies, Reached d count32 view dependency) :
      Checked dependencies asked (.ok none)
  | lagging {asked : List Call} {earlier later : List String} {dependency : String}
      (hasked : Answered dependencies asked) (heq : dependencies = earlier ++ dependency :: later)
      (hreached : ∀ dependency ∈ earlier, Reached d count32 view dependency)
      (hlags : Lags d count32 view dependency) : Checked dependencies asked (.ok (some dependency))
  | failed {asked : List Call} {earlier later : List String} {dependency : String}
      (hasked : Answered dependencies asked) (heq : dependencies = earlier ++ dependency :: later)
      (hreached : ∀ dependency ∈ earlier, Reached d count32 view dependency)
      (hm : (d.minimum? dependency).isSome) (e : Failure) :
      Checked dependencies (asked ++ [.instances dependency (.error e)]) (.error e)

/-- The difference between the minimum of a requirement and the instances that were seen has been
acted on. The verdict has the counts, and the one it becomes has the outcome. -/
inductive Acted (r : Requirement) (instances : List Instance) (v : Verdict) :
    List Call → Verdict → Prop
  | satisfied (hzero : v.delta = 0) : Acted r instances v [] { v with outcome := .satisfied }
  | stopped (hneg : v.delta < 0) (answer : Except Failure Unit) :
      Acted r instances v
        [.destroy { profile := v.profile, count := wrap32 (-v.delta), candidates := instances }
          answer]
        (v.settled .scaledDown answer)
  | gated {asked : List Call} {dependency : String} (hpos : 0 < v.delta)
      (hc : Checked d view r.dependencies asked (.ok (some dependency))) :
      Acted r instances v asked { v with outcome := .gated, blocking := dependency }
  | unchecked {asked : List Call} {e : Failure} (hpos : 0 < v.delta)
      (hc : Checked d view r.dependencies asked (.error e)) :
      Acted r instances v asked (v.failed e)
  | versionless {asked : List Call} (hpos : 0 < v.delta)
      (hc : Checked d view r.dependencies asked (.ok none)) (e : Failure) :
      Acted r instances v (asked ++ [.version (.error e)]) (v.failed e)
  | started {asked : List Call} (hpos : 0 < v.delta)
      (hc : Checked d view r.dependencies asked (.ok none)) (version : String)
      (answer : Except Failure Unit) :
      Acted r instances v
        (asked ++ [.version (.ok version), .create
          { version, profile := v.profile, count := v.delta, requirements := d, requirement := r }
          answer])
        (v.settled .scaledUp answer)

/-- A requirement has been judged by the view, with the calls that this took. -/
inductive Judged (r : Requirement) : List Call → Verdict → Prop
  | unmanaged (hm : r.minimum = none) : Judged r [] { profile := r.profile }
  | refused {desired : Int} (hm : r.minimum = some desired) (e : Failure) :
      Judged r [.offer r.profile (.error e)]
        (Verdict.failed { profile := r.profile, desired } e)
  | unserved {desired : Int} (hm : r.minimum = some desired) :
      Judged r [.offer r.profile (.ok false)]
        { profile := r.profile, desired, outcome := .noAutoscaler }
  | uncounted {desired : Int} {asked : List Call} {e : Failure} (hm : r.minimum = some desired)
      (hc : Counted view r.profile asked (.error e)) :
      Judged r (.offer r.profile (.ok true) :: asked)
        (Verdict.failed { profile := r.profile, desired } e)
  | counted {desired : Int} {asked own : List Call} {instances : List Instance} {v : Verdict}
      (hm : r.minimum = some desired) (hc : Counted view r.profile asked (.ok instances))
      (ha : Acted d view r instances
        { profile := r.profile, desired, observed := count32 instances
          delta := wrap32 (desired - count32 instances) } own v) :
      Judged r (.offer r.profile (.ok true) :: (asked ++ own)) v

/-- Requirements have been judged one after the other, after the calls before, each by what had been
seen when its judgement was over. -/
inductive JudgedAll : List Call → List Requirement → List Call → List Verdict → Prop
  | nil (before : List Call) : JudgedAll before [] [] []
  | cons {before own later : List Call} {r : Requirement} {rs : List Requirement} {v : Verdict}
      {vs : List Verdict} (hj : Judged d (seen (before ++ own)) r own v)
      (hrest : JudgedAll (before ++ own) rs later vs) :
      JudgedAll before (r :: rs) (own ++ later) (v :: vs)

/-! ## What has been told stays told

A view that knows more tells the same, so a check that is over stays as it was. -/

section Growing

variable {d view} {view' : String → Option (List Instance)} {size : List Instance → Int}
  {dependencies : List String} {asked first : List Call}

/-- Whatever the first view has, the second one has too. -/
def Grows (view view' : String → Option (List Instance)) : Prop :=
  ∀ profile instances, view profile = some instances → view' profile = some instances

theorem grows_append (before later : List Call) : Grows (seen before) (seen (before ++ later)) :=
  fun _ _ h => seen_append_of_some h later

/-- A profile that nothing is asked for has what it needs. -/
theorem reached_of_none (size : List Instance → Int) (view : String → Option (List Instance))
    {profile : String} (h : d.minimum? profile = none) : Reached d size view profile := by
  intro minimum hm
  rw [h] at hm
  cases hm

theorem Reached.grow (hg : Grows view view') (h : Reached d size view profile) :
    Reached d size view' profile := by
  intro minimum hm
  obtain ⟨instances, hview, hle⟩ := h minimum hm
  exact ⟨instances, hg _ _ hview, hle⟩

theorem Counted.grow {answer : Except Failure (List Instance)} (hg : Grows view view')
    (h : Counted view profile asked answer) : Counted view' profile asked answer := by
  cases h with
  | seen hasked hview => exact .seen hasked (hg _ _ hview)
  | failed e => exact .failed e

theorem Checked.grow {answer : Except Failure (Option String)} (hg : Grows view view')
    (h : Checked d view dependencies asked answer) :
    Checked d view' dependencies asked answer := by
  cases h with
  | passed hasked hreached =>
      exact .passed hasked fun dependency hmem => (hreached dependency hmem).grow hg
  | lagging hasked heq hreached hlags =>
      obtain ⟨minimum, instances, hm, hview, hless⟩ := hlags
      exact .lagging hasked heq (fun dependency hmem => (hreached dependency hmem).grow hg)
        ⟨minimum, instances, hm, hg _ _ hview, hless⟩
  | failed hasked heq hreached hm e =>
      exact .failed hasked heq (fun dependency hmem => (hreached dependency hmem).grow hg) hm e

theorem answered_nil (profiles : List String) : Answered profiles [] := by
  intro call hmem
  cases hmem

theorem Answered.mono {profiles profiles' : List String} (h : Answered profiles calls)
    (hsub : profiles ⊆ profiles') : Answered profiles' calls := by
  intro call hmem
  obtain ⟨profile, hprofile, all, rfl⟩ := h call hmem
  exact ⟨profile, hsub hprofile, all, rfl⟩

/-- A check goes on behind a dependency that has what it needs. -/
theorem Checked.cons {answer : Except Failure (Option String)} {dependency : String}
    (hfirst : Answered [dependency] first) (hd : Reached d count32 view dependency)
    (h : Checked d view dependencies asked answer) :
    Checked d view (dependency :: dependencies) (first ++ asked) answer := by
  have hboth : ∀ {calls : List Call}, Answered dependencies calls →
      Answered (dependency :: dependencies) (first ++ calls) := by
    intro calls hcalls call hmem
    rcases List.mem_append.mp hmem with hold | hnew
    · exact hfirst.mono (by simp) call hold
    · exact hcalls.mono (by simp) call hnew
  have hmore : ∀ {earlier : List String}, (∀ other ∈ earlier, Reached d count32 view other) →
      ∀ other ∈ dependency :: earlier, Reached d count32 view other :=
    fun hreached => List.forall_mem_cons.mpr ⟨hd, hreached⟩
  cases h with
  | passed hasked hreached => exact .passed (hboth hasked) (hmore hreached)
  | @lagging _ earlier later other hasked heq hreached hlags =>
      have hsplit : dependency :: dependencies = (dependency :: earlier) ++ other :: later := by
        rw [heq, List.cons_append]
      exact .lagging (hboth hasked) hsplit (hmore hreached) hlags
  | @failed _ earlier later other hasked heq hreached hm e =>
      have hsplit : dependency :: dependencies = (dependency :: earlier) ++ other :: later := by
        rw [heq, List.cons_append]
      rw [← List.append_assoc]
      exact .failed (hboth hasked) hsplit (hmore hreached) hm e

end Growing

/-! ## What a pass carries -/

variable {d view} {s s' s'' : PassState (σ × List Call)}

/-- What a pass carries is what the document and its calls tell. -/
structure Informed (d : Document) (s : PassState (σ × List Call)) : Prop where
  minimums : ∀ profile, s.lookup.minimum? profile = d.minimum? profile
  view : ∀ profile, s.answers.lookup profile = seen s.calls profile
  sparing : Sparing d s.calls

/-- The pass has made the calls and is still informed. -/
structure Leads (d : Document) (s s' : PassState (σ × List Call)) (own : List Call) : Prop where
  informed : Informed d s'
  calls : s'.calls = s.calls ++ own

theorem informed_init (d : Document) (world : σ) :
    Informed d { world := (world, []), lookup := d } where
  minimums _ := rfl
  view _ := rfl
  sparing := by
    intro before call later heq
    simp [PassState.calls] at heq

/-- The copy of the document may grow by what is looked up. -/
theorem Informed.look (h : Informed d s) (dependency : String) :
    Informed d { s with lookup := (s.lookup.getOrCreate dependency).2 } where
  minimums profile := by rw [Document.minimum?_getOrCreate]; exact h.minimums profile
  view := h.view
  sparing := h.sparing

theorem Informed.minimum_look (h : Informed d s) (dependency : String) :
    (s.lookup.getOrCreate dependency).1.minimum = d.minimum? dependency := by
  rw [Document.minimum_getOrCreate]
  exact h.minimums dependency

theorem leads_of_eq (h : Informed d s) (hc : s'.calls = s.calls) (hl : s'.lookup = s.lookup)
    (ha : s'.answers = s.answers) : Leads d s s' [] where
  informed :=
    { minimums := by rw [hl]; exact h.minimums
      view := by rw [ha, hc]; exact h.view
      sparing := by rw [hc]; exact h.sparing }
  calls := by rw [hc, List.append_nil]

theorem Leads.trans {own own' : List Call} (h : Leads d s s' own) (h' : Leads d s' s'' own') :
    Leads d s s'' (own ++ own') where
  informed := h'.informed
  calls := by rw [h'.calls, h.calls, List.append_assoc]

/-- A log record makes no difference. -/
theorem Leads.note {own : List Call} (h : Leads d s s' own) (c : Collaborators σ α)
    (level : Log.Level) (message : String) (context : List (String × String)) :
    Leads d s (Pass.note c.recorded level message context s') own where
  informed :=
    { minimums := h.informed.minimums
      view := h.informed.view
      sparing := h.informed.sparing }
  calls := h.calls

/-- What had been seen before is seen after. -/
theorem Leads.grows {own : List Call} (h : Leads d s s' own) :
    Grows (seen s.calls) (seen s'.calls) := by
  rw [h.calls]
  exact grows_append _ _

/-- One more call that is permitted and tells of no instances. -/
theorem Informed.after (h : Informed d s) (hp : Permitted d s.calls call)
    (hno : ∀ profile, call.seen? profile = none) (world : σ) :
    Leads d s (Pass.after s call world) [call] where
  informed :=
    { minimums := h.minimums
      view := fun profile => by
        rw [calls_after, seen_concat, hno, Option.or_none]
        exact h.view profile
      sparing := by
        rw [calls_after]
        exact each_concat h.sparing hp }
  calls := calls_after s call world

/-! ## The steps of a pass -/

variable (c : Collaborators σ α)

/-- Counting asks about a profile only if it has not been seen. -/
theorem countable_counted (h : Informed d s) (hm : (d.minimum? profile).isSome) :
    let out := countable c.recorded profile s
    ∃ asked, Leads d s out.2 asked ∧ Counted (seen out.2.calls) profile asked out.1 := by
  rcases countable_cases c profile s with
    ⟨instances, hk, he⟩ | ⟨hk, e, world, he⟩ | ⟨hk, all, s', he, hcalls, hlookup, hanswers⟩
  · rw [he]
    have hview : seen s.calls profile = some instances := by rw [← h.view, hk]
    exact ⟨[], leads_of_eq h rfl rfl rfl, .seen (answered_nil _) hview⟩
  · have hp : Permitted d s.calls (.instances profile (.error e)) := ⟨hm, by rw [← h.view, hk]⟩
    rw [he]
    exact ⟨_, h.after hp (fun _ => rfl) world, .failed e⟩
  · have hnone : seen s.calls profile = none := by rw [← h.view, hk]
    have hp : Permitted d s.calls (.instances profile (.ok all)) := ⟨hm, hnone⟩
    rw [he]
    refine ⟨_, ⟨⟨by rw [hlookup]; exact h.minimums, ?_, ?_⟩, hcalls⟩, .seen ?_ ?_⟩
    · -- what is kept now is what the new call tells, about this profile and no other
      intro other
      rw [hcalls, seen_concat, hanswers]
      by_cases ho : other = profile
      · subst ho
        rw [List.lookup_cons_self, hnone, Option.none_or]
        simp [Call.seen?]
      · rw [lookup_keep_ne ho, h.view]
        simp [Call.seen?, Ne.symm ho]
    · rw [hcalls]
      exact each_concat h.sparing hp
    · intro call hmem
      exact ⟨profile, List.mem_singleton_self profile, all, List.mem_singleton.mp hmem⟩
    · rw [hcalls, seen_concat, hnone, Option.none_or]
      simp [Call.seen?]

theorem blocking?_checked (name : String) (dependencies : List String) (h : Informed d s) :
    let out := blocking? c.recorded name dependencies s
    ∃ asked, Leads d s out.2 asked ∧
      Checked d (seen out.2.calls) dependencies asked out.1 := by
  induction dependencies generalizing s with
  | nil => exact ⟨[], leads_of_eq h rfl rfl rfl, .passed (answered_nil _) (by simp)⟩
  | cons dependency rest ih =>
      let looked : PassState (σ × List Call) :=
        { s with lookup := (s.lookup.getOrCreate dependency).2 }
      have hlooked : Informed d looked := h.look dependency
      have hmin := h.minimum_look dependency
      cases hd : d.minimum? dependency with
      | none =>
          rw [hd] at hmin
          obtain ⟨asked, hleads, hchecked⟩ := ih hlooked
          simp only [blocking?, hmin]
          -- the copy of the document has grown, which no call tells of
          exact ⟨asked, ⟨hleads.informed, hleads.calls⟩,
            hchecked.cons (answered_nil [dependency]) (reached_of_none _ _ hd)⟩
      | some minimum =>
          rw [hd] at hmin
          have hsome : (d.minimum? dependency).isSome := by simp [hd]
          obtain ⟨first, hleads, hcounted⟩ := countable_counted c hlooked hsome
          simp only [blocking?, hmin]
          rcases hcount : countable c.recorded dependency looked with ⟨answer, s₁⟩
          rw [hcount] at hleads hcounted
          have hstart : Leads d s s₁ first := ⟨hleads.informed, hleads.calls⟩
          cases hcounted with
          | failed e =>
              exact ⟨_, hstart, .failed (answered_nil (dependency :: rest)) (List.nil_append _).symm
                (by simp) hsome e⟩
          | @seen _ instances hfirst hview =>
              by_cases hless : count32 instances < minimum
              · simp only [hless, if_true]
                refine ⟨first, hstart.note c _ _ _, ?_⟩
                exact .lagging (hfirst.mono (by simp)) (List.nil_append _).symm (by simp)
                  ⟨minimum, instances, hd, hview, hless⟩
              · simp only [hless, if_false]
                obtain ⟨asked, hrest, hchecked⟩ := ih hstart.informed
                refine ⟨first ++ asked, hstart.trans hrest, hchecked.cons hfirst ?_⟩
                intro minimum' hm
                rw [hd] at hm
                cases hm
                -- what was seen first is still seen when the check is over
                exact ⟨instances, hrest.grows _ _ hview, by omega⟩

theorem giveUp_leads {own : List Call} (h : Leads d s s' own) (v : Verdict) (e : Failure) :
    Leads d s (giveUp c.recorded v e s').2 own := h.note c _ _ _

theorem stop_leads (h : Informed d s) (autoscaler : α) (v : Verdict) (request : ScaleDown)
    (hview : seen s.calls request.profile = some request.candidates) :
    let out := stop c.recorded autoscaler v request s
    ∃ answer, Leads d s out.2 [.destroy request answer] ∧ out.1 = v.settled .scaledDown answer := by
  rcases hcall : c.destroy autoscaler request s.world.1 with ⟨answer, world⟩
  have hrecorded : c.recorded.destroy autoscaler request s.world
      = (answer, world, .destroy request answer :: s.world.2) := by
    simp [Collaborators.recorded, hcall]
  have hp : Permitted d s.calls (.destroy request answer) := hview
  have hleads := h.after hp (fun _ => rfl) world
  simp only [stop, hrecorded]
  cases answer with
  | error e => exact ⟨_, giveUp_leads c hleads v e, rfl⟩
  | ok _ => exact ⟨_, hleads, rfl⟩

theorem start_leads (h : Informed d s) (autoscaler : α) (v : Verdict) (request : ScaleUp) :
    let out := start c.recorded autoscaler v request s
    ∃ answer, Leads d s out.2 [.create request answer] ∧ out.1 = v.settled .scaledUp answer := by
  rcases hcall : c.create autoscaler request s.world.1 with ⟨answer, world⟩
  have hrecorded : c.recorded.create autoscaler request s.world
      = (answer, world, .create request answer :: s.world.2) := by
    simp [Collaborators.recorded, hcall]
  have hp : Permitted d s.calls (.create request answer) := trivial
  have hleads := h.after hp (fun _ => rfl) world
  simp only [start, hrecorded]
  cases answer with
  | error e => exact ⟨_, giveUp_leads c hleads v e, rfl⟩
  | ok _ => exact ⟨_, hleads, rfl⟩

variable {r : Requirement} {instances : List Instance} {v : Verdict}

theorem grow_acted (h : Informed d s) (autoscaler : α) (hpos : 0 < v.delta) :
    let out := grow c.recorded d r autoscaler v s
    ∃ own, Leads d s out.2 own ∧ Acted d (seen out.2.calls) r instances v own out.1 := by
  obtain ⟨message, heq⟩ := grow_eq d r autoscaler v
  obtain ⟨asked, hleads, hchecked⟩ := blocking?_checked c v.profile r.dependencies h
  rw [heq]
  rcases hblock : blocking? c.recorded v.profile r.dependencies s with ⟨answer, s₁⟩
  rw [hblock] at hleads hchecked
  match answer, hchecked with
  | .error e, hchecked => exact ⟨asked, giveUp_leads c hleads v e, .unchecked hpos hchecked⟩
  | .ok (some dependency), hchecked => exact ⟨asked, hleads, .gated hpos hchecked⟩
  | .ok none, hchecked =>
      rcases hcall : c.version s₁.world.1 with ⟨fetched, world⟩
      have hrecorded : c.recorded.version s₁.world
          = (fetched, world, .version fetched :: s₁.world.2) := by
        simp [Collaborators.recorded, hcall]
      have hp : Permitted d s₁.calls (.version fetched) := trivial
      have hversion := hleads.informed.after hp (fun _ => rfl) world
      simp only [fetchAndStart, hrecorded]
      cases fetched with
      | error e =>
          have hdone := giveUp_leads c hversion v e
          exact ⟨_, hleads.trans hdone, .versionless hpos (hchecked.grow hdone.grows) e⟩
      | ok version =>
          let request : ScaleUp :=
            { version, profile := v.profile, count := v.delta, requirements := d, requirement := r }
          let noted := note c.recorded .info (message version) []
            (after s₁ (.version (.ok version)) world)
          have hnoted : Leads d s₁ noted [.version (.ok version)] := hversion.note c _ _ _
          obtain ⟨answer, hstart, hsettled⟩ :=
            start_leads c hnoted.informed autoscaler v request
          have hdone := hnoted.trans hstart
          have hstarted : Acted d (seen (start c.recorded autoscaler v request noted).2.calls) r
              instances v (asked ++ [.version (.ok version), .create request answer])
              (start c.recorded autoscaler v request noted).1 := by
            rw [hsettled]
            exact .started hpos (hchecked.grow hdone.grows) version answer
          exact ⟨_, hleads.trans hdone, hstarted⟩

/-- What has been counted decides what is done. -/
theorem act_acted (h : Informed d s) (hview : seen s.calls v.profile = some instances)
    (autoscaler : α) :
    let out :=
      if v.delta < 0 then shrink c.recorded autoscaler v instances s
      else if 0 < v.delta then grow c.recorded d r autoscaler v s
      else ({ v with outcome := .satisfied }, s)
    ∃ own, Leads d s out.2 own ∧ Acted d (seen out.2.calls) r instances v own out.1 := by
  have hsame : Leads d s s [] := leads_of_eq h rfl rfl rfl
  split
  · rename_i hneg
    obtain ⟨message, heq⟩ := shrink_eq autoscaler v instances
    have hnoted := hsame.note c .info message []
    let request : ScaleDown :=
      { profile := v.profile, count := wrap32 (-v.delta), candidates := instances }
    obtain ⟨answer, hstop, hsettled⟩ :=
      stop_leads c hnoted.informed autoscaler v request hview
    rw [heq]
    refine ⟨_, hnoted.trans hstop, ?_⟩
    rw [hsettled]
    exact .stopped hneg answer
  · split
    · rename_i hpos
      exact grow_acted c h autoscaler hpos
    · exact ⟨[], hsame, .satisfied (by omega)⟩

theorem compareAndAct_judged (h : Informed d s) (hr : r ∈ d.requirements) {desired : Int}
    (hm : r.minimum = some desired) (autoscaler : α) :
    let out := compareAndAct c.recorded d r desired autoscaler s
    ∃ own, Leads d s out.2 own ∧
      Judged d (seen out.2.calls) r (.offer r.profile (.ok true) :: own) out.1 := by
  have hsome : (d.minimum? r.profile).isSome := by
    rw [Document.minimum?_of_mem hr, hm]
    rfl
  obtain ⟨asked, hleads, hcounted⟩ := countable_counted c h hsome
  unfold compareAndAct
  rcases hcount : countable c.recorded r.profile s with ⟨answer, s₁⟩
  rw [hcount] at hleads hcounted
  cases answer with
  | error e => exact ⟨asked, giveUp_leads c hleads _ e, .uncounted hm hcounted⟩
  | ok instances =>
      let v : Verdict :=
        { profile := r.profile, desired, observed := count32 instances
          delta := wrap32 (desired - count32 instances) }
      have hview : seen s₁.calls v.profile = some instances := by
        cases hcounted with
        | seen _ hview => exact hview
      obtain ⟨own, hown, hacted⟩ := act_acted c hleads.informed hview autoscaler
      exact ⟨asked ++ own, hleads.trans hown, .counted hm (hcounted.grow hown.grows) hacted⟩

theorem judge_judged (h : Informed d s) (hr : r ∈ d.requirements) :
    let out := judge c.recorded d r s
    ∃ own, Leads d s out.2 own ∧ Judged d (seen out.2.calls) r own out.1 := by
  cases hm : r.minimum with
  | none =>
      simp only [judge, hm]
      exact ⟨[], leads_of_eq h rfl rfl rfl, .unmanaged hm⟩
  | some desired =>
      rcases hcall : c.offer d r s.world.1 with ⟨answer, world⟩
      have hrecorded : c.recorded.offer d r s.world = (answer, world,
          .offer r.profile (answer.map Option.isSome) :: s.world.2) := by
        simp [Collaborators.recorded, hcall]
      have hp : Permitted d s.calls (.offer r.profile (answer.map Option.isSome)) := trivial
      have hoffered := h.after hp (fun _ => rfl) world
      simp only [judge, hm, hrecorded]
      rcases answer with e | offered
      · exact ⟨_, giveUp_leads c hoffered _ e, .refused hm e⟩
      · cases offered with
        | none => exact ⟨_, hoffered.note c _ _ _, .unserved hm⟩
        | some autoscaler =>
            obtain ⟨own, hown, hjudged⟩ :=
              compareAndAct_judged c hoffered.informed hr hm autoscaler
            exact ⟨_, hoffered.trans hown, hjudged⟩

theorem judgeAll_judged {rs : List Requirement} (hrs : ∀ r ∈ rs, r ∈ d.requirements)
    (h : Informed d s) :
    let out := judgeAll c.recorded d rs s
    ∃ own, Leads d s out.2 own ∧ JudgedAll d s.calls rs own out.1 := by
  induction rs generalizing s with
  | nil => exact ⟨[], leads_of_eq h rfl rfl rfl, .nil _⟩
  | cons r rest ih =>
      obtain ⟨hr, hrest⟩ := List.forall_mem_cons.mp hrs
      obtain ⟨own, hown, hjudged⟩ := judge_judged c h hr
      obtain ⟨later, hlater, hall⟩ := ih hrest hown.informed
      rw [hown.calls] at hjudged hall
      exact ⟨own ++ later, hown.trans hlater, .cons hjudged hall⟩

/-- **A pass has one view of the inventory**, whatever the collaborators tell and wherever they
fail. It asks about the profiles that have a minimum and about no others. Once there is an answer
about a profile, that profile is not asked about again, and only a question that failed is asked
again. The count in a verdict, the instances that may be stopped and every dependency check are by
the countable instances of the one answer, in its order. -/
theorem one_view (d : Document) (world : σ) :
    OneView d (callsOf c d world) ∧
      JudgedAll d [] d.requirements (callsOf c d world) (run c d world).1.verdicts := by
  obtain ⟨own, hown, hall⟩ := judgeAll_judged c (fun _ hr => hr) (informed_init d world)
  have hcalls : callsOf c d world = own := hown.calls
  have hreport := congrArg Prod.fst (run_recorded c d world [])
  rw [hcalls, hreport]
  refine ⟨?_, hall⟩
  have hsparing := hown.informed.sparing
  rw [hown.calls] at hsparing
  exact hsparing.oneView

/-- Two profiles, of which the first waits for the second. -/
def paired : Document where
  requirements := [
    { profile := "front", minimum := some 1, dependencies := ["store"] },
    { profile := "store", minimum := some 2 }]
  distinct := by decide

/-- Collaborators whose inventory has one instance more at every question. -/
def fickle : Collaborators Nat Unit where
  offer _ _ n := (.ok (some ()), n)
  instances profile n := (.ok (List.replicate n { id := "a", profile, alive := true }), n + 1)
  version n := (.ok "2.0", n)
  create _ _ n := (.ok (), n)
  destroy _ _ n := (.ok (), n)
  note _ n := n

/-- The second profile is given what the check for the first one found missing, although another
question would have found two instances of it. -/
example : (run fickle paired 0).1.verdicts.map (fun v => (v.observed, v.outcome))
    = [(0, .gated), (1, .scaledUp)] := by rfl

end Pass

end FleetScaler
