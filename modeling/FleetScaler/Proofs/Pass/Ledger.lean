import FleetScaler.Proofs.Pass.Recorded
import FleetScaler.Proofs.Pass.Reference
import Mathlib.Data.List.Induction

/-!
# The calls of a pass

What a pass may call is told by the calls before. It asks about a profile that has a minimum, until
the inventory has answered about it. It gives one command at most about a profile, and the numbers
of the command are those of the answers. What carries this is that a pass keeps for each profile
the countable instances of the one answer among its calls, and none for a profile that was not
answered about. Questions leave the commands alone.
-/

namespace FleetScaler

variable {σ α : Type}

namespace Call

/-- The profile whose instances a call is to start or to stop. -/
def command? : Call → Option String
  | .create request _ => some request.profile
  | .destroy request _ => some request.profile
  | _ => none

/-- The call got the instances of the profile. -/
def answers (profile : String) : Call → Bool
  | .instances asked (.ok _) => asked = profile
  | _ => false

end Call

namespace Pass

open PassState (calls)

/-- The number of countable instances in an answer. -/
def countableIn (all : List Instance) : Nat := all.countP Instance.isCountable

/-- The answers among the calls are short enough to be counted in 32 bits. -/
def Short (calls : List Call) : Prop :=
  ∀ profile all, .instances profile (.ok all) ∈ calls → all.length < 2147483648

/-- The calls before a request to start instances are reason for it. -/
structure GrowthDue (d : Document) (before : List Call) (request : ScaleUp) : Prop where
  requirement : request.requirement ∈ d.requirements
  profile : request.requirement.profile = request.profile
  document : request.requirements = d
  /-- The version was fetched directly before. -/
  version : ∃ earlier, before = earlier ++ [.version (.ok request.version)]
  count : ∃ minimum all, request.requirement.minimum = some minimum ∧
    .instances request.profile (.ok all) ∈ before ∧ request.count = minimum - countableIn all
  positive : 1 ≤ request.count
  /-- Every dependency that has a minimum was found to have it. -/
  gate : ∀ dependency ∈ request.requirement.dependencies, ∀ minimum,
    d.minimum? dependency = some minimum →
      ∃ all, .instances dependency (.ok all) ∈ before ∧ minimum ≤ countableIn all

/-- The calls before a request to stop instances are reason for it. -/
structure ShrinkDue (d : Document) (before : List Call) (request : ScaleDown) : Prop where
  count : ∃ minimum all, d.minimum? request.profile = some minimum ∧
    .instances request.profile (.ok all) ∈ before ∧
    request.candidates = all.filter Instance.isCountable ∧
    request.count = countableIn all - minimum
  positive : 1 ≤ request.count
  enough : request.count ≤ request.candidates.length

/-- The profile has a minimum, and no command before was about it. -/
def Fresh (d : Document) (before : List Call) (profile : String) : Prop :=
  (d.minimum? profile).isSome ∧ ∀ call ∈ before, call.command? ≠ some profile

/-- A pass may make the call after the ones before. -/
def Justified (d : Document) (before : List Call) : Call → Prop
  | .offer profile _ => (d.minimum? profile).isSome
  | .instances profile _ =>
    (d.minimum? profile).isSome ∧ ∀ all, .instances profile (.ok all) ∉ before
  | .version _ => True
  | .create request _ =>
    Fresh d before request.profile ∧ (Short before → GrowthDue d before request)
  | .destroy request _ =>
    Fresh d before request.profile ∧ (Short before → ShrinkDue d before request)

/-- A pass may make the calls in their order. -/
def Lawful (d : Document) (calls : List Call) : Prop :=
  ∀ before call after, calls = before ++ call :: after → Justified d before call

variable {d : Document} {calls before : List Call} {call : Call}

theorem lawful_nil (d : Document) : Lawful d [] := by
  intro before call after h
  simp at h

/-- If every call follows rightly upon the ones before, one more that does may be made. -/
theorem each_concat {P : List Call → Call → Prop}
    (h : ∀ before call after, calls = before ++ call :: after → P before call)
    (hcall : P calls call) :
    ∀ before call' after, calls ++ [call] = before ++ call' :: after → P before call' := by
  intro before call' after heq
  rcases List.eq_nil_or_concat after with rfl | ⟨after', last, rfl⟩
  · obtain ⟨rfl, hlast⟩ := List.append_inj' heq rfl
    cases hlast
    exact hcall
  · rw [List.concat_eq_append, ← List.cons_append, ← List.append_assoc] at heq
    obtain ⟨rfl, -⟩ := List.append_inj' heq rfl
    exact h before call' after' rfl

theorem Lawful.concat (h : Lawful d calls) (hj : Justified d calls call) :
    Lawful d (calls ++ [call]) := each_concat h hj

/-- If a call with a property rules out such calls before it, there is at most one. -/
theorem countP_le_one {β : Type} {P : β → Bool} {l : List β}
    (h : ∀ before b after, l = before ++ b :: after → P b = true → ∀ a ∈ before, P a = false) :
    l.countP P ≤ 1 := by
  induction l with
  | nil => simp
  | cons x xs ih =>
      have hrest : xs.countP P ≤ 1 := by
        refine ih fun before b after heq hb a ha => ?_
        exact h (x :: before) b after (by rw [heq]; rfl) hb a (List.mem_cons_of_mem _ ha)
      cases hx : P x with
      | false => rw [List.countP_cons_of_neg (by simp [hx])]; exact hrest
      | true =>
          -- the first one rules out the others
          have hnone : xs.countP P = 0 := by
            rw [List.countP_eq_zero]
            intro b hb hPb
            obtain ⟨mid, after, rfl⟩ := List.append_of_mem hb
            have hxno := h (x :: mid) b after rfl hPb x List.mem_cons_self
            rw [hx] at hxno
            cases hxno
          rw [List.countP_cons_of_pos hx]
          omega

/-- Every command is about a profile that has a minimum and that no command before was about. -/
theorem Lawful.fresh (h : Lawful d calls) {after : List Call} {profile : String}
    (heq : calls = before ++ call :: after) (hp : call.command? = some profile) :
    Fresh d before profile := by
  have hj := h before call after heq
  cases call with
  | create request answer =>
      cases hp
      exact hj.1
  | destroy request answer =>
      cases hp
      exact hj.1
  | offer _ _ => cases hp
  | instances _ _ => cases hp
  | version _ => cases hp

/-- No profile is given two commands, and none without a minimum is given one. -/
theorem Lawful.countP_command_le (h : Lawful d calls) (profile : String) :
    calls.countP (fun call => call.command? = some profile)
      ≤ if (d.minimum? profile).isSome then 1 else 0 := by
  split
  · refine countP_le_one fun before call after heq hp a ha => ?_
    have hfresh := h.fresh heq (of_decide_eq_true hp)
    exact decide_eq_false (hfresh.2 a ha)
  · rename_i hnone
    rw [Nat.le_zero, List.countP_eq_zero]
    intro call hmem hp
    obtain ⟨before, after, heq⟩ := List.append_of_mem hmem
    exact hnone (h.fresh heq (of_decide_eq_true hp)).1

/-- No profile is answered about twice. -/
theorem Lawful.countP_answers_le (h : Lawful d calls) (profile : String) :
    calls.countP (Call.answers profile) ≤ 1 := by
  refine countP_le_one fun before call after heq hp a ha => ?_
  have hj := h before call after heq
  match call, hp with
  | .instances asked (.ok all), hp =>
      have hasked : asked = profile := of_decide_eq_true hp
      subst hasked
      match a, ha with
      | .instances other (.ok all'), ha =>
          refine decide_eq_false ?_
          rintro rfl
          exact hj.2 all' ha
      | .instances _ (.error _), _ => rfl
      | .offer _ _, _ => rfl
      | .version _, _ => rfl
      | .create _ _, _ => rfl
      | .destroy _ _, _ => rfl

/-! ## What a pass keeps of the answers -/

variable {s s' s'' : PassState (σ × List Call)}

/-- What a pass carries agrees with the document and with the calls it has made. -/
structure Accountable (d : Document) (s : PassState (σ × List Call)) : Prop where
  minimums : ∀ profile, s.lookup.minimum? profile = d.minimum? profile
  known : ∀ profile instances, s.answers.lookup profile = some instances →
    ∃ all, .instances profile (.ok all) ∈ s.calls ∧ instances = all.filter Instance.isCountable
  unknown : ∀ profile, s.answers.lookup profile = none →
    ∀ all, .instances profile (.ok all) ∉ s.calls
  lawful : Lawful d s.calls

theorem accountable_init (d : Document) (world : σ) :
    Accountable d { world := (world, []), lookup := d } where
  minimums _ := rfl
  known profile instances h := by simp at h
  unknown profile _ all h := by simp [PassState.calls] at h
  lawful := lawful_nil d

theorem accountable_of_eq (h : Accountable d s) (hc : s'.calls = s.calls)
    (hl : s'.lookup = s.lookup) (ha : s'.answers = s.answers) : Accountable d s' where
  minimums := by rw [hl]; exact h.minimums
  known := by rw [ha, hc]; exact h.known
  unknown := by rw [ha, hc]; exact h.unknown
  lawful := by rw [hc]; exact h.lawful

/-- The state after one more call. -/
def after (s : PassState (σ × List Call)) (call : Call) (world : σ) : PassState (σ × List Call) :=
  { s with world := (world, call :: s.world.2) }

@[simp] theorem calls_after (s : PassState (σ × List Call)) (call : Call) (world : σ) :
    (after s call world).calls = s.calls ++ [call] := by
  simp [after, PassState.calls]

/-- One more call that is justified and gets no instances. -/
theorem Accountable.after (h : Accountable d s) (hj : Justified d s.calls call)
    (hno : ∀ profile all, call ≠ .instances profile (.ok all)) (world : σ) :
    Accountable d (after s call world) where
  minimums := h.minimums
  known profile instances hk := by
    obtain ⟨all, hmem, heq⟩ := h.known profile instances hk
    exact ⟨all, by simp [hmem], heq⟩
  unknown profile hk all hmem := by
    rw [calls_after, List.mem_append, List.mem_singleton] at hmem
    rcases hmem with hold | hnew
    · exact h.unknown profile hk all hold
    · exact hno profile all hnew.symm
  lawful := by
    rw [calls_after]
    exact h.lawful.concat hj

/-- What is kept about one profile hides nothing about another. -/
theorem lookup_keep_ne {profile other : String} (hne : other ≠ profile)
    (instances : List Instance) (answers : List (String × List Instance)) :
    ((profile, instances) :: answers).lookup other = answers.lookup other := by
  rw [List.lookup_cons, beq_eq_false_iff_ne.mpr hne]

/-- A call that gets the instances of a profile, of which the countable ones are kept. -/
theorem Accountable.keep (h : Accountable d s) {profile : String} {all : List Instance}
    (hj : Justified d s.calls (.instances profile (.ok all)))
    (hc : s'.calls = s.calls ++ [.instances profile (.ok all)]) (hl : s'.lookup = s.lookup)
    (ha : s'.answers = (profile, all.filter Instance.isCountable) :: s.answers) :
    Accountable d s' where
  minimums := by rw [hl]; exact h.minimums
  known other instances hk := by
    rw [ha] at hk
    rw [hc]
    by_cases ho : other = profile
    · subst ho
      rw [List.lookup_cons_self, Option.some.injEq] at hk
      exact ⟨all, by simp, hk.symm⟩
    · rw [lookup_keep_ne ho] at hk
      obtain ⟨all', hmem, heq⟩ := h.known other instances hk
      exact ⟨all', by simp [hmem], heq⟩
  unknown other hk all' hmem := by
    rw [ha] at hk
    by_cases ho : other = profile
    · subst ho
      rw [List.lookup_cons_self] at hk
      cases hk
    · rw [lookup_keep_ne ho] at hk
      rw [hc, List.mem_append, List.mem_singleton] at hmem
      rcases hmem with hold | hnew
      · exact h.unknown other hk all' hold
      · cases hnew
        exact ho rfl
  lawful := by
    rw [hc]
    exact h.lawful.concat hj

theorem calls_noteInstances (c : Collaborators σ α) (instances : List Instance)
    (s : PassState (σ × List Call)) : (noteInstances c.recorded instances s).calls = s.calls := by
  induction instances generalizing s with
  | nil => rfl
  | cons i rest ih =>
      rw [noteInstances, List.foldl_cons]
      exact ih _

/-- The pass has asked questions and given no command. -/
structure Inquires (s s' : PassState (σ × List Call)) : Prop where
  calls : ∃ new, s'.calls = s.calls ++ new ∧ ∀ call ∈ new, call.command? = none
  keeps : ∀ profile instances, s.answers.lookup profile = some instances →
    s'.answers.lookup profile = some instances

theorem inquires_of_eq (hc : s'.calls = s.calls) (ha : s'.answers = s.answers) : Inquires s s' where
  calls := ⟨[], by simp [hc], by simp⟩
  keeps profile instances h := by rw [ha]; exact h

theorem Inquires.trans (h : Inquires s s') (h' : Inquires s' s'') : Inquires s s'' where
  calls := by
    obtain ⟨new, hc, hno⟩ := h.calls
    obtain ⟨new', hc', hno'⟩ := h'.calls
    refine ⟨new ++ new', by rw [hc', hc, List.append_assoc], ?_⟩
    intro call hmem
    rcases List.mem_append.mp hmem with hold | hnew
    · exact hno call hold
    · exact hno' call hnew
  keeps profile instances hk := h'.keeps profile instances (h.keeps profile instances hk)

theorem inquires_after (s : PassState (σ × List Call)) (hno : call.command? = none) (world : σ) :
    Inquires s (after s call world) where
  calls := ⟨[call], calls_after s call world, by simp [hno]⟩
  keeps _ _ h := h

/-- Questions are no commands. -/
theorem Inquires.fresh (h : Inquires s s') {profile : String} (hf : Fresh d s.calls profile) :
    Fresh d s'.calls profile := by
  refine ⟨hf.1, fun call hmem => ?_⟩
  obtain ⟨new, hc, hno⟩ := h.calls
  rw [hc] at hmem
  rcases List.mem_append.mp hmem with hold | hnew
  · exact hf.2 call hold
  · rw [hno call hnew]
    exact fun h => nomatch h

/-! ## Questions -/

/-- What is known about a profile is told, and what is not is asked for. An answer is kept. -/
theorem countable_cases (c : Collaborators σ α) (profile : String)
    (s : PassState (σ × List Call)) :
    (∃ instances, s.answers.lookup profile = some instances ∧
      countable c.recorded profile s = (.ok instances, s)) ∨
    (s.answers.lookup profile = none ∧ ∃ e world, countable c.recorded profile s
      = (.error e, after s (.instances profile (.error e)) world)) ∨
    (s.answers.lookup profile = none ∧ ∃ all s', countable c.recorded profile s
        = (.ok (all.filter Instance.isCountable), s') ∧
      s'.calls = s.calls ++ [.instances profile (.ok all)] ∧ s'.lookup = s.lookup ∧
      s'.answers = (profile, all.filter Instance.isCountable) :: s.answers) := by
  cases hk : s.answers.lookup profile with
  | some instances => exact Or.inl ⟨instances, rfl, by simp [countable, hk]⟩
  | none =>
      rcases hcall : c.instances profile s.world.1 with ⟨answer, world⟩
      cases answer with
      | error e =>
          refine Or.inr (Or.inl ⟨rfl, e, world, ?_⟩)
          simp [countable, hk, Collaborators.recorded, hcall, after]
      | ok all =>
          let noted := noteInstances c.recorded (all.filter Instance.isCountable)
            (after s (.instances profile (.ok all)) world)
          have hanswers : noted.answers = s.answers := answers_noteInstances _ _
          refine Or.inr (Or.inr ⟨rfl, all, { noted with
            answers := (profile, all.filter Instance.isCountable) :: noted.answers }, ?_, ?_,
            lookup_noteInstances _ _, by rw [hanswers]⟩)
          · simp [countable, hk, Collaborators.recorded, hcall, after, noted]
          · exact (calls_noteInstances ..).trans (calls_after ..)

theorem countable_accountable (c : Collaborators σ α) (h : Accountable d s) {profile : String}
    (hm : (d.minimum? profile).isSome) :
    let out := countable c.recorded profile s
    Accountable d out.2 ∧ Inquires s out.2 ∧
      ∀ instances, out.1 = .ok instances → out.2.answers.lookup profile = some instances := by
  rcases countable_cases c profile s with
    ⟨instances, hk, he⟩ | ⟨hk, e, world, he⟩ | ⟨hk, all, s', he, hcalls, hlookup, hanswers⟩
  · rw [he]
    refine ⟨h, inquires_of_eq rfl rfl, ?_⟩
    rintro _ ⟨⟩
    exact hk
  · have hj : Justified d s.calls (.instances profile (.error e)) := ⟨hm, h.unknown profile hk⟩
    rw [he]
    refine ⟨h.after hj (by simp) world, inquires_after s rfl world, ?_⟩
    rintro _ ⟨⟩
  · rw [he]
    refine ⟨h.keep ⟨hm, h.unknown profile hk⟩ hcalls hlookup hanswers, ?_, ?_⟩
    · refine ⟨⟨_, hcalls, by simp [Call.command?]⟩, fun other instances ho => ?_⟩
      have hne : other ≠ profile := by
        rintro rfl
        rw [hk] at ho
        cases ho
      rw [hanswers, lookup_keep_ne hne]
      exact ho
    · rintro _ ⟨⟩
      rw [hanswers, List.lookup_cons_self]

theorem blocking?_accountable (c : Collaborators σ α) (name : String)
    (dependencies : List String) (h : Accountable d s) :
    let out := blocking? c.recorded name dependencies s
    Accountable d out.2 ∧ Inquires s out.2 ∧
      (out.1 = .ok none → ∀ dependency ∈ dependencies, ∀ minimum,
        d.minimum? dependency = some minimum →
          ∃ instances, out.2.answers.lookup dependency = some instances ∧
            minimum ≤ (instances.length : Int)) := by
  induction dependencies generalizing s with
  | nil => exact ⟨h, inquires_of_eq rfl rfl, by simp⟩
  | cons dependency rest ih =>
      let looked : PassState (σ × List Call) :=
        { s with lookup := (s.lookup.getOrCreate dependency).2 }
      have hlooked : Accountable d looked :=
        { minimums := fun p => by rw [Document.minimum?_getOrCreate]; exact h.minimums p
          known := h.known
          unknown := h.unknown
          lawful := h.lawful }
      have hsame : Inquires s looked := inquires_of_eq rfl rfl
      have hmin : (s.lookup.getOrCreate dependency).1.minimum = d.minimum? dependency := by
        rw [Document.minimum_getOrCreate]
        exact h.minimums dependency
      cases hd : d.minimum? dependency with
      | none =>
          rw [hd] at hmin
          obtain ⟨hacc, hinq, hgate⟩ := ih hlooked
          simp only [blocking?, hmin]
          -- nothing is asked for, so there is nothing to find out about it
          refine ⟨hacc, hsame.trans hinq, fun hnone other hmem minimum hm => ?_⟩
          rcases List.mem_cons.mp hmem with rfl | hrest
          · rw [hd] at hm
            cases hm
          · exact hgate hnone other hrest minimum hm
      | some minimum =>
          rw [hd] at hmin
          have hsome : (d.minimum? dependency).isSome := by simp [hd]
          obtain ⟨hacc, hinq, hknown⟩ := countable_accountable c hlooked hsome
          simp only [blocking?, hmin]
          rcases hcount : countable c.recorded dependency looked with ⟨answer, s₁⟩
          rw [hcount] at hacc hinq hknown
          cases answer with
          | error e => exact ⟨hacc, hsame.trans hinq, by simp⟩
          | ok instances =>
              by_cases hless : count32 instances < minimum
              · simp only [hless, if_true]
                refine ⟨accountable_of_eq hacc rfl rfl rfl, ?_, by simp⟩
                exact (hsame.trans hinq).trans (inquires_of_eq rfl rfl)
              · simp only [hless, if_false]
                obtain ⟨hacc', hinq', hgate⟩ := ih hacc
                refine ⟨hacc', (hsame.trans hinq).trans hinq', ?_⟩
                intro hnone other hmem minimum' hm
                rcases List.mem_cons.mp hmem with rfl | hrest
                · rw [hd] at hm
                  cases hm
                  -- what was found out first is still known when the check is over
                  have hkept := hinq'.keeps other instances (hknown instances rfl)
                  exact ⟨instances, hkept, le_length_of_le_count32 (by omega)⟩
                · exact hgate hnone other hrest minimum' hm

end Pass

end FleetScaler
