import FleetScaler.Proofs.Pass.OneView
import FleetScaler.Proofs.Pass.World

/-!
# A check of the dependencies

Whether a dependency holds back the growth of a profile can be asked outside a pass, too. Such a
check looks at the dependencies in their declared order, up to the first that settles the matter:
one that lags, or one about which the inventory fails. It starts with nothing in hand and asks about
every dependency that it looks at and that has a minimum. Once is enough, also for one that is
declared twice, because what has been seen is kept.

A check counts in 32 bits. It comes to what the dependencies call for where their instances can be
counted so; two ways of counting that agree about the dependencies come to the same.
-/

namespace FleetScaler

variable {σ α : Type}

namespace Pass

open PassState (calls)

/-! ## An inventory that does not change -/

/-- The inventory answers by the profile alone. -/
def Steady (c : Collaborators σ α) (inv : String → Except Failure (List Instance)) : Prop :=
  ∀ profile world, (c.instances profile world).1 = inv profile

/-- The countable instances that the inventory tells of. -/
def told (inv : String → Except Failure (List Instance)) (profile : String) :
    Option (List Instance) :=
  (inv profile).toOption.map fun all => all.filter Instance.isCountable

/-- The question about a profile, with its answer. -/
def question (inv : String → Except Failure (List Instance)) (profile : String) : Call :=
  .instances profile (inv profile)

/-- The number of instances, however many there are. -/
def total (instances : List Instance) : Int := instances.length

/-- What the inventory tells of the profiles that a document asks for can be counted in 32 bits. -/
def InRange (d : Document) (inv : String → Except Failure (List Instance)) : Prop :=
  ∀ profile minimum all, d.minimum? profile = some minimum → inv profile = .ok all →
    countableIn all < 2147483648

/-- For the profiles that a document asks for, the size is the number in 32 bits. -/
def Fits (d : Document) (size : List Instance → Int)
    (inv : String → Except Failure (List Instance)) : Prop :=
  ∀ profile minimum instances, d.minimum? profile = some minimum →
    told inv profile = some instances → count32 instances = size instances

/-! ## What a check comes to -/

section Examined

variable (d : Document) (size : List Instance → Int)
  (inv : String → Except Failure (List Instance))

/-- A dependency puts an end to the check: it lags, or the inventory fails about it. -/
inductive Halts (dependency : String) : Except Failure (Option String) → Prop
  | lagging (hlags : Lags d size (told inv) dependency) : Halts dependency (.ok (some dependency))
  | failed {e : Failure} (hm : (d.minimum? dependency).isSome) (he : inv dependency = .error e) :
      Halts dependency (.error e)

/-- The dependencies have been looked at up to the first that put an end to it. -/
inductive Examined (dependencies : List String) :
    List String → Except Failure (Option String) → Prop
  | passed (hreached : ∀ dependency ∈ dependencies, Reached d size (told inv) dependency) :
      Examined dependencies dependencies (.ok none)
  | halted {earlier later : List String} {dependency : String}
      {answer : Except Failure (Option String)}
      (heq : dependencies = earlier ++ dependency :: later)
      (hreached : ∀ other ∈ earlier, Reached d size (told inv) other)
      (hhalts : Halts d size inv dependency answer) :
      Examined dependencies (earlier ++ [dependency]) answer

end Examined

/-- Of the dependencies looked at, those have been asked about that have a minimum and had not been
seen: each once, and in their order. -/
structure Asks (d : Document) (before : List Call) (looked asked : List String) : Prop where
  distinct : asked.Nodup
  order : asked.Sublist looked
  mem : ∀ profile, profile ∈ asked ↔
    profile ∈ looked ∧ (d.minimum? profile).isSome ∧ seen before profile = none

/-- What the caller of a check is given, who keeps a name. -/
def given (kept : Option String) : Option String → Bool × Option String
  | none => (true, kept)
  | some dependency => (false, kept.map fun _ => dependency)

/-- The calls that a check on its own makes, oldest first. -/
def checkCalls (c : Collaborators σ α) (d : Document) (r : Requirement) (kept : Option String)
    (world : σ) : List Call :=
  (satisfied c.recorded d r kept (world, [])).2.2.reverse

/-- What a check on its own answers and asks, with the name that the caller keeps, where `size` tells
the number of the instances that the inventory tells of. -/
structure Decides (c : Collaborators σ α) (size : List Instance → Int)
    (inv : String → Except Failure (List Instance)) (d : Document) (r : Requirement)
    (kept : Option String) (world : σ) : Prop where
  passes : ∀ kept', (satisfied c d r kept world).1 = .ok (true, kept') ↔
    kept' = kept ∧ ∀ dependency ∈ r.dependencies, Reached d size (told inv) dependency
  /-- The name becomes that of the first dependency that lags. -/
  blocks : ∀ kept', (satisfied c d r kept world).1 = .ok (false, kept') ↔
    ∃ earlier dependency later, r.dependencies = earlier ++ dependency :: later ∧
      (∀ other ∈ earlier, Reached d size (told inv) other) ∧ Lags d size (told inv) dependency ∧
      kept' = kept.map fun _ => dependency
  fails : ∀ e, (satisfied c d r kept world).1 = .error e ↔
    ∃ earlier dependency later, r.dependencies = earlier ++ dependency :: later ∧
      (∀ other ∈ earlier, Reached d size (told inv) other) ∧ (d.minimum? dependency).isSome ∧
      inv dependency = .error e
  /-- If no question fails, it is enough that any dependency lags. -/
  lags : (∀ e, (satisfied c d r kept world).1 ≠ .error e) →
    ((∃ kept', (satisfied c d r kept world).1 = .ok (false, kept')) ↔
      ∃ dependency ∈ r.dependencies, Lags d size (told inv) dependency)
  asks : ∃ looked answer asked, Examined d size inv r.dependencies looked answer ∧
    (satisfied c d r kept world).1 = answer.map (given kept) ∧
    Asks d [] looked asked ∧ checkCalls c d r kept world = asked.map (question inv)

/-! ## There is one answer -/

section Examined

variable {d : Document} {size : List Instance → Int}
  {inv : String → Except Failure (List Instance)} {dependency : String}
  {dependencies looked looked' : List String} {answer answer' : Except Failure (Option String)}

theorem told_eq {all : List Instance} (h : inv dependency = .ok all) :
    told inv dependency = some (all.filter Instance.isCountable) := by
  simp [told, h, Except.toOption]

theorem told_eq_none {e : Failure} (h : inv dependency = .error e) :
    told inv dependency = none := by
  simp [told, h, Except.toOption]

theorem Lags.not_reached {view : String → Option (List Instance)}
    (h : Lags d size view dependency) : ¬ Reached d size view dependency := by
  obtain ⟨minimum, instances, hm, hview, hless⟩ := h
  intro hreached
  obtain ⟨instances', hview', hle⟩ := hreached minimum hm
  rw [hview, Option.some.injEq] at hview'
  subst hview'
  omega

theorem Halts.not_reached (h : Halts d size inv dependency answer) :
    ¬ Reached d size (told inv) dependency := by
  cases h with
  | lagging hlags => exact hlags.not_reached
  | failed hm he =>
      intro hreached
      obtain ⟨minimum, hm⟩ := Option.isSome_iff_exists.mp hm
      obtain ⟨instances, hview, -⟩ := hreached minimum hm
      rw [told_eq_none he] at hview
      cases hview

theorem Halts.unique (h : Halts d size inv dependency answer)
    (h' : Halts d size inv dependency answer') : answer = answer' := by
  cases h with
  | lagging hlags =>
      cases h' with
      | lagging _ => rfl
      | failed _ he =>
          obtain ⟨_, _, _, hview, _⟩ := hlags
          rw [told_eq_none he] at hview
          cases hview
  | failed _ he =>
      cases h' with
      | lagging hlags =>
          obtain ⟨_, _, _, hview, _⟩ := hlags
          rw [told_eq_none he] at hview
          cases hview
      | failed _ he' =>
          rw [he, Except.error.injEq] at he'
          rw [he']

/-- The first entry without a property is the first in every division of the list. -/
theorem eq_of_first {β : Type} {P : β → Prop} {xs xs' ys ys' : List β} {a b : β}
    (heq : xs ++ a :: ys = xs' ++ b :: ys') (hxs : ∀ x ∈ xs, P x) (ha : ¬ P a)
    (hxs' : ∀ x ∈ xs', P x) (hb : ¬ P b) : xs = xs' ∧ a = b := by
  induction xs generalizing xs' with
  | nil =>
      cases xs' with
      | nil => exact ⟨rfl, (List.cons.inj heq).1⟩
      | cons x rest => exact absurd ((List.cons.inj heq).1 ▸ hxs' x List.mem_cons_self) ha
  | cons x rest ih =>
      cases xs' with
      | nil => exact absurd ((List.cons.inj heq).1 ▸ hxs x List.mem_cons_self) hb
      | cons x' rest' =>
          obtain ⟨rfl, hrest⟩ := List.cons.inj heq
          obtain ⟨rfl, hab⟩ := ih hrest (fun y hy => hxs y (List.mem_cons_of_mem _ hy))
            (fun y hy => hxs' y (List.mem_cons_of_mem _ hy))
          exact ⟨rfl, hab⟩

/-- **A check comes to one answer.** -/
theorem Examined.unique (h : Examined d size inv dependencies looked answer)
    (h' : Examined d size inv dependencies looked' answer') : answer = answer' := by
  cases h with
  | passed hreached =>
      cases h' with
      | passed _ => rfl
      | halted heq _ hhalts => exact absurd (hreached _ (by simp [heq])) hhalts.not_reached
  | halted heq hreached hhalts =>
      cases h' with
      | passed hreached' => exact absurd (hreached' _ (by simp [heq])) hhalts.not_reached
      | halted heq' hreached' hhalts' =>
          obtain ⟨-, rfl⟩ := eq_of_first (heq.symm.trans heq') hreached hhalts.not_reached hreached'
            hhalts'.not_reached
          exact hhalts.unique hhalts'

theorem Examined.cons (hd : Reached d size (told inv) dependency)
    (h : Examined d size inv dependencies looked answer) :
    Examined d size inv (dependency :: dependencies) (dependency :: looked) answer := by
  cases h with
  | passed hreached => exact .passed (List.forall_mem_cons.mpr ⟨hd, hreached⟩)
  | @halted earlier later other _ heq hreached hhalts =>
      have hsplit : dependency :: dependencies = (dependency :: earlier) ++ other :: later := by
        rw [heq, List.cons_append]
      exact .halted hsplit (List.forall_mem_cons.mpr ⟨hd, hreached⟩) hhalts

theorem Halts.examined (h : Halts d size inv dependency answer) (rest : List String) :
    Examined d size inv (dependency :: rest) [dependency] answer :=
  .halted (List.nil_append _).symm (by simp) h

/-! ### Two ways of counting -/

theorem fits_count32 (d : Document) (inv : String → Except Failure (List Instance)) :
    Fits d count32 inv := fun _ _ _ _ _ => rfl

/-- Where 32 bits hold the counts, the number of instances is what is counted. -/
theorem InRange.fits (h : InRange d inv) : Fits d total inv := by
  intro profile minimum instances hm htold
  cases hi : inv profile with
  | error e => simp [told_eq_none hi] at htold
  | ok all =>
      rw [told_eq hi, Option.some.injEq] at htold
      have hlt := h profile minimum all hm hi
      rw [countableIn, List.countP_eq_length_filter, htold] at hlt
      exact count32_of_lt hlt

theorem Reached.resize (hs : Fits d size inv) (h : Reached d count32 (told inv) dependency) :
    Reached d size (told inv) dependency := by
  intro minimum hm
  obtain ⟨instances, htold, hle⟩ := h minimum hm
  exact ⟨instances, htold, hs _ _ _ hm htold ▸ hle⟩

theorem Halts.resize (hs : Fits d size inv) (h : Halts d count32 inv dependency answer) :
    Halts d size inv dependency answer := by
  cases h with
  | lagging hlags =>
      obtain ⟨minimum, instances, hm, htold, hless⟩ := hlags
      exact .lagging ⟨minimum, instances, hm, htold, hs _ _ _ hm htold ▸ hless⟩
  | failed hm he => exact .failed hm he

/-- A check comes to the same if the dependencies are counted alike. -/
theorem Examined.resize (hs : Fits d size inv)
    (h : Examined d count32 inv dependencies looked answer) :
    Examined d size inv dependencies looked answer := by
  cases h with
  | passed hreached => exact .passed fun other hother => (hreached other hother).resize hs
  | halted heq hreached hhalts =>
      exact .halted heq (fun other hother => (hreached other hother).resize hs) (hhalts.resize hs)

end Examined

/-! ## The questions of a check -/

section Asks

variable {d : Document} {inv : String → Except Failure (List Instance)} {before : List Call}
  {dependency : String} {looked asked first : List String}

theorem asks_nil (d : Document) (before : List Call) : Asks d before [] [] where
  distinct := List.nodup_nil
  order := List.Sublist.refl _
  mem := by simp

theorem asks_seen (h : seen before dependency ≠ none) : Asks d before [dependency] [] where
  distinct := List.nodup_nil
  order := List.nil_sublist _
  mem profile := by
    rw [List.mem_singleton]
    constructor
    · exact fun hp => absurd hp List.not_mem_nil
    · intro hp
      obtain ⟨rfl, -, hnone⟩ := hp
      exact absurd hnone h

theorem asks_unseen (hm : (d.minimum? dependency).isSome) (h : seen before dependency = none) :
    Asks d before [dependency] [dependency] where
  distinct := by simp
  order := List.Sublist.refl _
  mem profile := by
    rw [List.mem_singleton]
    constructor
    · intro hp
      subst hp
      exact ⟨rfl, hm, h⟩
    · exact fun hp => hp.1

/-- A dependency that nothing is asked for is passed over. -/
theorem Asks.pass (h : Asks d before looked asked) (hd : d.minimum? dependency = none) :
    Asks d before (dependency :: looked) asked where
  distinct := h.distinct
  order := h.order.cons _
  mem profile := by
    rw [h.mem, List.mem_cons]
    constructor
    · intro hp
      exact ⟨.inr hp.1, hp.2⟩
    · intro hp
      obtain ⟨rfl | hmem, hm, hnone⟩ := hp
      · simp [hd] at hm
      · exact ⟨hmem, hm, hnone⟩

/-- What is asked about one profile tells of no other. -/
theorem seen_questions_ne {profile : String} (h : ∀ other ∈ first, other ≠ profile) :
    seen (before ++ first.map (question inv)) profile = seen before profile := by
  have hnone : seen (first.map (question inv)) profile = none := by
    rw [seen, List.findSome?_eq_none_iff]
    intro call hcall
    obtain ⟨other, hother, rfl⟩ := List.mem_map.mp hcall
    cases hi : inv other <;> simp [question, Call.seen?, hi, h other hother]
  rw [seen_append, hnone, Option.or_none]

/-- After a dependency has been seen, nobody asks about it again. -/
theorem Asks.cons (hfirst : Asks d before [dependency] first)
    (hseen : seen (before ++ first.map (question inv)) dependency ≠ none)
    (h : Asks d (before ++ first.map (question inv)) looked asked) :
    Asks d before (dependency :: looked) (first ++ asked) where
  distinct := by
    refine List.nodup_append.mpr ⟨hfirst.distinct, h.distinct, ?_⟩
    intro p hp q hq heq
    have hp' := List.mem_singleton.mp ((hfirst.mem p).mp hp).1
    have hq' := ((h.mem q).mp hq).2.2
    rw [← heq, hp'] at hq'
    exact hseen hq'
  order := hfirst.order.append h.order
  mem profile := by
    rw [List.mem_append, hfirst.mem, h.mem, List.mem_singleton, List.mem_cons]
    by_cases hp : profile = dependency
    · subst hp
      simp [hseen]
    · have hother : ∀ other ∈ first, other ≠ profile := by
        intro other hother heq
        exact hp (heq ▸ List.mem_singleton.mp ((hfirst.mem other).mp hother).1)
      simp [hp, seen_questions_ne hother]

end Asks

/-! ## A check, step by step -/

variable {d : Document} {size : List Instance → Int}
  {inv : String → Except Failure (List Instance)} {c : Collaborators σ α}
  {s : PassState (σ × List Call)} {own calls : List Call}

/-- The answers among the calls are those of the inventory. -/
def Truthful (inv : String → Except Failure (List Instance)) (calls : List Call) : Prop :=
  ∀ profile answer, .instances profile answer ∈ calls → answer = inv profile

theorem Truthful.grows (h : Truthful inv calls) : Grows (seen calls) (told inv) := by
  intro profile instances hseen
  obtain ⟨call, hmem, hcall⟩ := List.exists_of_findSome?_eq_some hseen
  match call, hcall with
  | .instances asked (.ok all), hcall =>
      by_cases hp : asked = profile
      · subst hp
        rw [Call.seen?, if_pos rfl, Option.some.injEq] at hcall
        rw [told_eq (h asked (.ok all) hmem).symm, hcall]
      · simp [Call.seen?, hp] at hcall

theorem truthful_nil (inv : String → Except Failure (List Instance)) : Truthful inv [] := by
  intro profile answer hmem
  cases hmem

theorem Truthful.cons {call : Call} (h : Truthful inv calls)
    (hcall : ∀ profile answer, call = .instances profile answer → answer = inv profile) :
    Truthful inv (call :: calls) := by
  intro profile answer hmem
  rcases List.mem_cons.mp hmem with hnew | hold
  · exact hcall profile answer hnew.symm
  · exact h profile answer hold

/-- Whatever else is called, the inventory goes on telling the same. -/
theorem Steady.keeps_truthful (hc : Steady c inv) :
    c.recorded.Keeps fun world => Truthful inv world.2 where
  offer _ _ _ h := h.cons fun _ _ heq => nomatch heq
  instances profile world h := h.cons fun asked answer heq => by
    obtain ⟨rfl, rfl⟩ := Call.instances.inj heq
    exact hc profile world.1
  version _ h := h.cons fun _ _ heq => nomatch heq
  create _ _ _ h := h.cons fun _ _ heq => nomatch heq
  destroy _ _ _ h := h.cons fun _ _ heq => nomatch heq
  note _ _ h := h

theorem truthful_calls : Truthful inv s.calls ↔ Truthful inv s.world.2 := by
  simp [Truthful, PassState.calls]

theorem Steady.truthful_countable (hc : Steady c inv) (profile : String)
    (ht : Truthful inv s.calls) : Truthful inv (countable c.recorded profile s).2.calls :=
  truthful_calls.mpr (world_countable hc.keeps_truthful profile (truthful_calls.mp ht))

/-- Counting comes to what the inventory tells, which has been seen then. -/
theorem countable_told (hc : Steady c inv) {dependency : String} (h : Informed d s)
    (ht : Truthful inv s.calls) (hm : (d.minimum? dependency).isSome) :
    let out := countable c.recorded dependency s
    Informed d out.2 ∧
      ((∃ e, inv dependency = .error e ∧ out.1 = .error e) ∨
        ∃ all, inv dependency = .ok all ∧ out.1 = .ok (all.filter Instance.isCountable) ∧
          seen out.2.calls dependency ≠ none) := by
  have ht' := hc.truthful_countable dependency ht
  obtain ⟨asked, hleads, hcounted⟩ := countable_counted c h hm
  refine ⟨hleads.informed, ?_⟩
  rcases hout : countable c.recorded dependency s with ⟨answer, s'⟩
  rw [hout] at ht' hleads hcounted
  cases hcounted with
  | failed e =>
      rw [hleads.calls] at ht'
      exact .inl ⟨e, (ht' dependency (.error e) (by simp)).symm, rfl⟩
  | @seen _ instances _ hseen =>
      have htold := ht'.grows dependency instances hseen
      cases hi : inv dependency with
      | error e => simp [told_eq_none hi] at htold
      | ok all =>
          rw [told_eq hi, Option.some.injEq] at htold
          exact .inr ⟨all, rfl, by rw [htold], by simp [hseen]⟩

/-- Counting asks about a dependency that has not been seen. -/
theorem countable_asks (hc : Steady c inv) {dependency : String} (h : Informed d s)
    (ht : Truthful inv s.calls) (hm : (d.minimum? dependency).isSome) :
    ∃ first, Asks d s.calls [dependency] first ∧
      (countable c.recorded dependency s).2.calls = s.calls ++ first.map (question inv) := by
  have ht' := hc.truthful_countable dependency ht
  have hunseen : ∀ {answer}, s.answers.lookup dependency = none →
      (countable c.recorded dependency s).2.calls = s.calls ++ [.instances dependency answer] →
      ∃ first, Asks d s.calls [dependency] first ∧
        (countable c.recorded dependency s).2.calls = s.calls ++ first.map (question inv) := by
    intro answer hk hcalls
    rw [hcalls] at ht' ⊢
    obtain rfl : answer = inv dependency := ht' dependency answer (by simp)
    exact ⟨[dependency], asks_unseen hm (by rw [← h.view, hk]), rfl⟩
  rcases countable_cases c dependency s with
    ⟨instances, hk, he⟩ | ⟨hk, e, world, he⟩ | ⟨hk, all, s', he, hcalls, -, -⟩
  · have hseen : seen s.calls dependency ≠ none := by simp [← h.view, hk]
    exact ⟨[], asks_seen hseen, by simp [he]⟩
  · exact hunseen hk (by rw [he, calls_after])
  · exact hunseen hk (by rw [he, hcalls])

theorem blocking?_examined (hc : Steady c inv) (name : String) (dependencies : List String)
    (h : Informed d s) (ht : Truthful inv s.calls) :
    let out := blocking? c.recorded name dependencies s
    ∃ looked asked, Examined d count32 inv dependencies looked out.1 ∧
      Asks d s.calls looked asked ∧ out.2.calls = s.calls ++ asked.map (question inv) := by
  induction dependencies generalizing s with
  | nil => exact ⟨[], [], .passed (by simp), asks_nil d _, by simp [blocking?]⟩
  | cons dependency rest ih =>
      let copy : PassState (σ × List Call) :=
        { s with lookup := (s.lookup.getOrCreate dependency).2 }
      have hcopy : Informed d copy := h.look dependency
      have hmin := h.minimum_look dependency
      cases hd : d.minimum? dependency with
      | none =>
          rw [hd] at hmin
          obtain ⟨looked, asked, hexamined, hasks, hcalls⟩ := ih hcopy ht
          simp only [blocking?, hmin]
          exact ⟨_, asked, hexamined.cons (reached_of_none _ _ hd), hasks.pass hd, hcalls⟩
      | some minimum =>
          rw [hd] at hmin
          have hsome : (d.minimum? dependency).isSome := by simp [hd]
          have htruthful := hc.truthful_countable dependency (s := copy) ht
          obtain ⟨first, hfirst, hcalls⟩ := countable_asks hc hcopy ht hsome
          obtain ⟨hinformed, htold⟩ := countable_told hc hcopy ht hsome
          simp only [blocking?, hmin]
          rcases hcount : countable c.recorded dependency copy with ⟨answer, s₁⟩
          rw [hcount] at htruthful hcalls hinformed htold
          rcases htold with ⟨e, hi, rfl⟩ | ⟨all, hi, rfl, hseen⟩
          · exact ⟨_, first, (Halts.failed hsome hi).examined rest, hfirst, hcalls⟩
          · have hview := told_eq hi
            by_cases hless : count32 (all.filter Instance.isCountable) < minimum
            · have hlags : Lags d count32 (told inv) dependency := ⟨minimum, _, hd, hview, hless⟩
              simp only [hless, if_true]
              exact ⟨_, first, (Halts.lagging hlags).examined rest, hfirst, hcalls⟩
            · have hreached : Reached d count32 (told inv) dependency := by
                intro minimum' hm
                rw [hd, Option.some.injEq] at hm
                exact ⟨_, hview, by omega⟩
              obtain ⟨looked, asked, hexamined, hasks, hrest⟩ := ih hinformed htruthful
              simp only [hless, if_false]
              rw [hcalls] at hasks hseen hrest
              refine ⟨_, first ++ asked, hexamined.cons hreached, hfirst.cons hseen hasks, ?_⟩
              rw [hrest, List.map_append, List.append_assoc]
              rfl

/-! ## A check on its own -/

variable {r : Requirement} {world : σ} {kept : Option String}

theorem satisfied_eq (c : Collaborators σ α) (d : Document) (r : Requirement)
    (kept : Option String) (world : σ) :
    satisfied c d r kept world
      = ((gate c d r world).1.map (given kept), (gate c d r world).2) := by
  unfold satisfied
  rcases gate c d r world with ⟨answer, world'⟩
  match answer with
  | .error e => rfl
  | .ok none => rfl
  | .ok (some dependency) => rfl

section given

variable {answer : Except Failure (Option String)} {kept' : Option String}

theorem map_given_eq_error {e : Failure} :
    answer.map (given kept) = .error e ↔ answer = .error e := by
  match answer with
  | .error e' => simp [Except.map]
  | .ok found => simp [Except.map]

theorem map_given_eq_true :
    answer.map (given kept) = .ok (true, kept') ↔ answer = .ok none ∧ kept' = kept := by
  match answer with
  | .error e => simp [Except.map]
  | .ok none => simp [Except.map, given, eq_comm]
  | .ok (some dependency) => simp [Except.map, given]

theorem map_given_eq_false :
    answer.map (given kept) = .ok (false, kept') ↔
      ∃ dependency, answer = .ok (some dependency) ∧ kept' = kept.map fun _ => dependency := by
  match answer with
  | .error e => simp [Except.map]
  | .ok none => simp [Except.map, given]
  | .ok (some dependency) => simp [Except.map, given, eq_comm]

end given

/-- A check on its own has nothing in hand. -/
theorem gate_examined (hc : Steady c inv) (hs : Fits d size inv) (r : Requirement) (world : σ) :
    ∃ looked asked, Examined d size inv r.dependencies looked (gate c d r world).1 ∧
      Asks d [] looked asked ∧
      (gate c.recorded d r (world, [])).2.2.reverse = asked.map (question inv) := by
  obtain ⟨looked, asked, hexamined, hasks, hcalls⟩ :=
    blocking?_examined hc r.profile r.dependencies (informed_init d world) (truthful_nil inv)
  have hforget := blocking?_forget c r.profile r.dependencies
    ({ world := (world, []), lookup := d } : PassState (σ × List Call))
  refine ⟨looked, asked, ?_, hasks, hcalls⟩
  have hgate := congrArg Prod.fst hforget
  exact hgate ▸ hexamined.resize hs

theorem gate_eq_iff (hc : Steady c inv) (hs : Fits d size inv)
    {answer : Except Failure (Option String)} :
    (gate c d r world).1 = answer ↔
      ∃ looked, Examined d size inv r.dependencies looked answer := by
  obtain ⟨looked, -, hexamined, -, -⟩ := gate_examined hc hs r world
  constructor
  · intro heq
    exact ⟨looked, heq ▸ hexamined⟩
  · intro h
    obtain ⟨looked', hexamined'⟩ := h
    exact hexamined.unique hexamined'

/-- What a check on its own answers is what its dependencies call for, and it asks no more than it
has to. -/
theorem decides (hc : Steady c inv) (hs : Fits d size inv) (r : Requirement)
    (kept : Option String) (world : σ) : Decides c size inv d r kept world where
  passes kept' := by
    rw [satisfied_eq, map_given_eq_true, gate_eq_iff hc hs]
    constructor
    · intro h
      obtain ⟨⟨looked, hexamined⟩, hkept⟩ := h
      cases hexamined with
      | passed hreached => exact ⟨hkept, hreached⟩
      | halted _ _ hhalts => cases hhalts
    · intro h
      exact ⟨⟨_, .passed h.2⟩, h.1⟩
  blocks kept' := by
    rw [satisfied_eq, map_given_eq_false]
    constructor
    · intro h
      obtain ⟨dependency, hgate, hkept⟩ := h
      obtain ⟨looked, hexamined⟩ := (gate_eq_iff hc hs).mp hgate
      cases hexamined with
      | @halted earlier later _ _ heq hreached hhalts =>
          cases hhalts with
          | lagging hlags => exact ⟨earlier, dependency, later, heq, hreached, hlags, hkept⟩
    · intro h
      obtain ⟨earlier, dependency, later, heq, hreached, hlags, hkept⟩ := h
      exact ⟨dependency, (gate_eq_iff hc hs).mpr ⟨_, .halted heq hreached (.lagging hlags)⟩, hkept⟩
  fails e := by
    rw [satisfied_eq, map_given_eq_error, gate_eq_iff hc hs]
    constructor
    · intro h
      obtain ⟨looked, hexamined⟩ := h
      cases hexamined with
      | @halted earlier later dependency _ heq hreached hhalts =>
          cases hhalts with
          | failed hm he => exact ⟨earlier, dependency, later, heq, hreached, hm, he⟩
    · intro h
      obtain ⟨earlier, dependency, later, heq, hreached, hm, he⟩ := h
      exact ⟨_, .halted heq hreached (.failed hm he)⟩
  lags hno := by
    obtain ⟨looked, -, hexamined, -, -⟩ := gate_examined hc hs r world
    simp only [satisfied_eq, ne_eq, map_given_eq_error, map_given_eq_false] at hno ⊢
    rcases hgate : (gate c d r world).1 with e | found
    · exact absurd hgate (hno e)
    rw [hgate] at hexamined
    cases hexamined with
    | passed hreached =>
        constructor
        · rintro ⟨_, _, ⟨⟩, _⟩
        · rintro ⟨dependency, hmem, hlags⟩
          exact absurd (hreached dependency hmem) hlags.not_reached
    | @halted earlier later dependency _ heq hreached hhalts =>
        cases hhalts with
        | lagging hlags =>
            constructor
            · exact fun _ => ⟨dependency, by simp [heq], hlags⟩
            · exact fun _ => ⟨_, dependency, rfl, rfl⟩
  asks := by
    obtain ⟨looked, asked, hexamined, hasks, hcalls⟩ := gate_examined hc hs r world
    refine ⟨looked, _, asked, hexamined, by rw [satisfied_eq], hasks, ?_⟩
    rw [checkCalls, satisfied_eq]
    exact hcalls

end Pass

end FleetScaler
