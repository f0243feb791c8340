import FleetScaler.Proofs.Pass.Check

/-!
# The gate

A check of the dependencies on its own starts with nothing in hand, and a check in the course of a
pass with whatever earlier profiles left there. Over an inventory that answers by the profile alone
both come to the same, because all that can be left is what the inventory would tell again. So a
pass holds back a profile, or gives up on it for a failure of the inventory, exactly when a check of
its dependencies would say so, whenever and in whatever state of the world it is made.
-/

namespace FleetScaler

variable {σ α : Type}

namespace Pass

open PassState (calls)

variable {d : Document} {inv : String → Except Failure (List Instance)} {c : Collaborators σ α}
  {own calls : List Call} {r : Requirement}

/-! ## A check in the course of a pass -/

/-- The version source or an autoscaler failed among the calls. -/
def StartFails (calls : List Call) (e : Failure) : Prop :=
  .version (.error e) ∈ calls ∨ ∃ request, .create request (.error e) ∈ calls

/-- The inventory failed among the calls. -/
def InventoryFails (calls : List Call) (e : Failure) : Prop :=
  ∃ profile, .instances profile (.error e) ∈ calls

/-- The judgement on a requirement whose profile has to grow has ended as the check of its
dependencies calls for. -/
inductive Ended (own : List Call) (v : Verdict) : Except Failure (Option String) → Prop
  | gated {dependency : String} (ho : v.outcome = .gated) (hb : v.blocking = dependency) :
      Ended own v (.ok (some dependency))
  | unchecked {e : Failure} (ho : v.outcome = .failed) (hv : v.error = e.message)
      (hi : ∀ e', InventoryFails own e' ↔ e' = e) : Ended own v (.error e)
  | unstarted {e : Failure} (ho : v.outcome = .failed) (hv : v.error = e.message)
      (hi : ∀ e', ¬ InventoryFails own e') (hs : ∀ e', StartFails own e' ↔ e' = e) :
      Ended own v (.ok none)
  | started (ho : v.outcome = .scaledUp) (hs : ∀ e', ¬ StartFails own e') : Ended own v (.ok none)

/-- A check on its own agrees with the verdict of a pass, and with the calls of that judgement. -/
structure Agrees (c : Collaborators σ α) (d : Document) (r : Requirement) (world : σ)
    (own : List Call) (v : Verdict) : Prop where
  gated : ∀ name dependency, v.outcome = .gated ∧ v.blocking = dependency ↔
    (satisfied c d r (some name) world).1 = .ok (false, some dependency)
  /-- The judgement came to a failure of the inventory. -/
  failed : ∀ kept e, (v.outcome = .failed ∧ v.error = e.message ∧ InventoryFails own e) ↔
    (satisfied c d r kept world).1 = .error e
  /-- By the wording alone, the failure may be one of the version source or of the autoscaler, too,
  but then the check had nothing against it. -/
  worded : ∀ kept message, (v.outcome = .failed ∧ v.error = message) ↔
    (∃ e, (satisfied c d r kept world).1 = .error e ∧ e.message = message) ∨
      (satisfied c d r kept world).1 = .ok (true, kept) ∧
        ∃ e, StartFails own e ∧ e.message = message

section Ended

variable {v : Verdict} {answer : Except Failure (Option String)} {looked : List String}

theorem Ended.agrees (hc : Steady c inv) (h : Ended own v answer)
    (hx : Examined d count32 inv r.dependencies looked answer) (world : σ) :
    Agrees c d r world own v := by
  have hgate : (gate c d r world).1 = answer :=
    (gate_eq_iff hc (fits_count32 d inv)).mpr ⟨looked, hx⟩
  constructor
  · intro name dependency
    rw [satisfied_eq, map_given_eq_false, hgate]
    cases h with
    | gated ho hb => simp [ho, hb, eq_comm]
    | unchecked ho _ _ => simp [ho]
    | unstarted ho _ _ _ => simp [ho]
    | started ho _ => simp [ho]
  · intro kept e
    rw [satisfied_eq, map_given_eq_error, hgate]
    cases h with
    | gated ho _ => simp [ho]
    | unchecked ho hv hi =>
        rw [hi, Except.error.injEq]
        constructor
        · exact fun h => h.2.2.symm
        · intro heq
          exact ⟨ho, heq ▸ hv, heq.symm⟩
    | unstarted _ _ hi _ => simp [hi]
    | started ho _ => simp [ho]
  · intro kept message
    rw [satisfied_eq, map_given_eq_true, hgate]
    simp only [map_given_eq_error]
    cases h with
    | gated ho _ => simp [ho]
    | unchecked ho hv _ => simp [ho, hv]
    | unstarted ho hv _ hs => simp [ho, hv, hs]
    | started ho hs => simp [ho, hs]

theorem inventoryFails_append {before later : List Call} {e : Failure} :
    InventoryFails (before ++ later) e ↔ InventoryFails before e ∨ InventoryFails later e := by
  simp [InventoryFails, exists_or]

theorem startFails_append {before later : List Call} {e : Failure} :
    StartFails (before ++ later) e ↔ StartFails before e ∨ StartFails later e := by
  simp only [StartFails, List.mem_append, exists_or]
  exact or_or_or_comm

/-- Calls that went well make no difference to the end. -/
theorem Ended.prepend (h : Ended own v answer) (hi : ∀ e, ¬ InventoryFails calls e)
    (hs : ∀ e, ¬ StartFails calls e) : Ended (calls ++ own) v answer := by
  cases h with
  | gated ho hb => exact .gated ho hb
  | unchecked ho hv hi' =>
      exact .unchecked ho hv fun e => by simp [inventoryFails_append, hi, hi']
  | unstarted ho hv hi' hs' =>
      refine .unstarted ho hv (fun e => ?_) (fun e => ?_)
      · simp [inventoryFails_append, hi, hi']
      · simp [startFails_append, hs, hs']
  | started ho hs' => exact .started ho fun e => by simp [startFails_append, hs, hs']

theorem Answered.no_inventoryFails {profiles : List String} (h : Answered profiles calls)
    (e : Failure) : ¬ InventoryFails calls e := by
  intro hfails
  obtain ⟨profile, hmem⟩ := hfails
  obtain ⟨_, _, _, heq⟩ := h _ hmem
  cases heq

theorem Answered.no_startFails {profiles : List String} (h : Answered profiles calls)
    (e : Failure) : ¬ StartFails calls e := by
  intro hfails
  rcases hfails with hmem | ⟨request, hmem⟩
  · obtain ⟨_, _, _, heq⟩ := h _ hmem
    cases heq
  · obtain ⟨_, _, _, heq⟩ := h _ hmem
    cases heq

section Checked

variable {view : String → Option (List Instance)} {dependencies : List String}

/-- A check fails where the inventory does, and starts nothing. -/
theorem Checked.inventoryFails_iff (h : Checked d view dependencies calls answer) (e : Failure) :
    InventoryFails calls e ↔ answer = .error e := by
  cases h with
  | passed hasked _ => simp [hasked.no_inventoryFails]
  | lagging hasked _ _ _ => simp [hasked.no_inventoryFails]
  | failed hasked _ _ _ e' =>
      rw [inventoryFails_append, or_iff_right (hasked.no_inventoryFails e)]
      simp [InventoryFails, eq_comm]

theorem Checked.no_startFails (h : Checked d view dependencies calls answer) (e : Failure) :
    ¬ StartFails calls e := by
  cases h with
  | passed hasked _ => exact hasked.no_startFails e
  | lagging hasked _ _ _ => exact hasked.no_startFails e
  | failed hasked _ _ _ e' =>
      rw [startFails_append, or_iff_right (hasked.no_startFails e)]
      simp [StartFails]

/-- A check that goes by what the inventory tells comes to the answer that it calls for. -/
theorem Checked.examined (h : Checked d view dependencies calls answer) (hg : Grows view (told inv))
    (ht : Truthful inv calls) : ∃ looked, Examined d count32 inv dependencies looked answer := by
  cases h.grow hg with
  | passed _ hreached => exact ⟨_, .passed hreached⟩
  | lagging _ heq hreached hlags => exact ⟨_, .halted heq hreached (.lagging hlags)⟩
  | failed _ heq hreached hm e =>
      have he := ht _ (.error e) (List.mem_append_right _ (List.mem_singleton_self _))
      exact ⟨_, .halted heq hreached (.failed hm he.symm)⟩

theorem Acted.ended {instances : List Instance} {v₀ : Verdict}
    (h : Acted d view r instances v₀ own v) (hpos : 0 < v₀.delta) :
    ∃ asked answer, asked ⊆ own ∧ Checked d view r.dependencies asked answer ∧
      Ended own v answer := by
  cases h with
  | satisfied hzero => omega
  | stopped hneg => omega
  | gated _ hc => exact ⟨own, _, List.Subset.refl _, hc, .gated rfl rfl⟩
  | @unchecked _ e _ hc =>
      refine ⟨own, _, List.Subset.refl _, hc, .unchecked rfl rfl fun e' => ?_⟩
      rw [hc.inventoryFails_iff, Except.error.injEq, eq_comm]
  | @versionless asked _ hc e =>
      refine ⟨asked, _, List.subset_append_left _ _, hc, .unstarted rfl rfl ?_ ?_⟩
      · intro e'
        rw [inventoryFails_append, hc.inventoryFails_iff]
        simp [InventoryFails]
      · intro e'
        rw [startFails_append, or_iff_right (hc.no_startFails e')]
        simp [StartFails, eq_comm]
  | @started asked _ hc version result =>
      refine ⟨asked, _, List.subset_append_left _ _, hc, ?_⟩
      cases result with
      | ok _ =>
          refine .started rfl fun e' => ?_
          rw [startFails_append, or_iff_right (hc.no_startFails e')]
          simp [StartFails]
      | error e =>
          refine .unstarted rfl rfl ?_ ?_
          · intro e'
            rw [inventoryFails_append, hc.inventoryFails_iff]
            simp [InventoryFails]
          · intro e'
            rw [startFails_append, or_iff_right (hc.no_startFails e')]
            simp [StartFails, eq_comm]

/-- The judgement on a profile that is offered an autoscaler and has to grow is left to the check of
its dependencies. -/
theorem Judged.ended (h : Judged d view r own v) (hg : Grows view (told inv))
    (ht : Truthful inv own) {minimum : Int} {all : List Instance} (hm : r.minimum = some minimum)
    (hrange : minimum < 2147483648) (ho : .offer r.profile (.ok true) ∈ own)
    (hi : inv r.profile = .ok all) (hless : (countableIn all : Int) < minimum) :
    ∃ looked answer, Examined d count32 inv r.dependencies looked answer ∧ Ended own v answer := by
  cases h with
  | unmanaged hm' => simp [hm] at hm'
  | refused _ e => simp at ho
  | unserved _ => simp at ho
  | uncounted _ hc =>
      cases hc with
      | failed =>
          have he := ht r.profile _ (List.mem_cons_of_mem _ List.mem_cons_self)
          rw [hi] at he
          cases he
  | @counted desired asked acted instances _ hm' hc ha =>
      rw [hm, Option.some.injEq] at hm'
      subst hm'
      cases hc with
      | seen hasked hview =>
          have htold := hg _ _ hview
          rw [told_eq hi, Option.some.injEq] at htold
          have hlength : instances.length = countableIn all := by
            rw [← htold, countableIn, List.countP_eq_length_filter]
          have hdelta : 0 < wrap32 (minimum - count32 instances) := by
            rw [wrap32_sub_count32 (by omega) hrange (by omega)]
            omega
          obtain ⟨checked, answer, hsub, hchecked, hended⟩ := ha.ended hdelta
          have htruthful : Truthful inv checked := fun profile answer hmem =>
            ht profile answer (List.mem_cons_of_mem _ (List.mem_append_right _ (hsub hmem)))
          obtain ⟨looked, hexamined⟩ := hchecked.examined hg htruthful
          refine ⟨looked, answer, hexamined, ?_⟩
          have hacted := hended.prepend hasked.no_inventoryFails hasked.no_startFails
          show Ended ([.offer r.profile (.ok true)] ++ (asked ++ acted)) v answer
          refine hacted.prepend ?_ ?_
          · simp [InventoryFails]
          · simp [StartFails]

end Checked

end Ended

/-! ## The place of a requirement in a pass -/

/-- A pass that has judged some requirements of its document, keeping its calls. -/
def upTo (c : Collaborators σ α) (d : Document) (world : σ) (earlier : List Requirement) :
    PassState (σ × List Call) :=
  (judgeAll c.recorded d earlier { world := (world, []), lookup := d }).2

/-- The verdict of a pass on a requirement that comes after others. -/
def verdictOn (c : Collaborators σ α) (d : Document) (world : σ) (earlier : List Requirement)
    (r : Requirement) : Verdict :=
  (judge c.recorded d r (upTo c d world earlier)).1

/-- The calls that the judgement on this requirement takes. -/
def callsOn (c : Collaborators σ α) (d : Document) (world : σ) (earlier : List Requirement)
    (r : Requirement) : List Call :=
  (judge c.recorded d r (upTo c d world earlier)).2.calls.drop (upTo c d world earlier).calls.length

section Place

variable {earlier later : List Requirement}

theorem judgeAll_append {σ : Type} (c : Collaborators σ α) (d : Document)
    (earlier later : List Requirement) (s : PassState σ) :
    judgeAll c d (earlier ++ later) s
      = ((judgeAll c d earlier s).1 ++ (judgeAll c d later (judgeAll c d earlier s).2).1,
        (judgeAll c d later (judgeAll c d earlier s).2).2) := by
  induction earlier generalizing s with
  | nil => rfl
  | cons r rest ih => simp only [List.cons_append, judgeAll, ih]

theorem length_judgeAll {σ : Type} (c : Collaborators σ α) (d : Document) (rs : List Requirement)
    (s : PassState σ) : (judgeAll c d rs s).1.length = rs.length := by
  induction rs generalizing s with
  | nil => rfl
  | cons r rest ih => simp only [judgeAll, List.length_cons, ih]

theorem informed_upTo (c : Collaborators σ α) (heq : d.requirements = earlier ++ later)
    (world : σ) : Informed d (upTo c d world earlier) := by
  have hmem : ∀ r ∈ earlier, r ∈ d.requirements := by
    intro r hr
    rw [heq]
    exact List.mem_append_left _ hr
  obtain ⟨own, hleads, -⟩ := judgeAll_judged c hmem (informed_init d world)
  exact hleads.informed

/-- The verdict is the one in the report, in the place of the requirement. -/
theorem run_verdictOn (c : Collaborators σ α) (heq : d.requirements = earlier ++ r :: later)
    (world : σ) :
    (run c d world).1.verdicts[earlier.length]? = some (verdictOn c d world earlier r) := by
  have hlength := length_judgeAll c.recorded d earlier { world := (world, []), lookup := d }
  rw [run_recorded c d world []]
  simp only [run, heq, judgeAll_append]
  rw [List.getElem?_append_right (Nat.le_of_eq hlength), hlength, Nat.sub_self]
  rfl

theorem leads_callsOn (c : Collaborators σ α) (heq : d.requirements = earlier ++ r :: later)
    (world : σ) :
    let out := judge c.recorded d r (upTo c d world earlier)
    Leads d (upTo c d world earlier) out.2 (callsOn c d world earlier r) ∧
      Judged d (seen out.2.calls) r (callsOn c d world earlier r)
        (verdictOn c d world earlier r) := by
  have hr : r ∈ d.requirements := by simp [heq]
  obtain ⟨own, hleads, hjudged⟩ := judge_judged c (informed_upTo c heq world) hr
  have hown : callsOn c d world earlier r = own := by
    rw [callsOn, hleads.calls, List.drop_left]
  rw [hown]
  exact ⟨hleads, hjudged⟩

/-- The calls are among those of the pass, behind those for the requirements before. -/
theorem callsOf_eq (c : Collaborators σ α) (heq : d.requirements = earlier ++ r :: later)
    (world : σ) : ∃ after, callsOf c d world
      = (upTo c d world earlier).calls ++ callsOn c d world earlier r ++ after := by
  have hlater : ∀ q ∈ later, q ∈ d.requirements := by
    intro q hq
    simp [heq, hq]
  obtain ⟨hleads, -⟩ := leads_callsOn c heq world
  obtain ⟨after, hafter, -⟩ := judgeAll_judged c hlater hleads.informed
  refine ⟨after, ?_⟩
  -- the last log record is no call
  have hcalls : callsOf c d world
      = (judgeAll c.recorded d d.requirements { world := (world, []), lookup := d }).2.calls := rfl
  rw [hcalls, heq, judgeAll_append, ← hleads.calls, ← hafter.calls]
  rfl

/-- The verdict on a requirement whose profile is offered an autoscaler and has to grow agrees with
the check of its dependencies. -/
theorem Steady.agrees (hc : Steady c inv) (heq : d.requirements = earlier ++ r :: later) (world : σ)
    {minimum : Int} {all : List Instance} (hm : r.minimum = some minimum)
    (hrange : minimum < 2147483648) (ho : .offer r.profile (.ok true) ∈ callsOn c d world earlier r)
    (hi : inv r.profile = .ok all) (hless : (countableIn all : Int) < minimum) (world' : σ) :
    Agrees c d r world' (callsOn c d world earlier r) (verdictOn c d world earlier r) := by
  obtain ⟨hleads, hjudged⟩ := leads_callsOn c heq world
  have hupTo : Truthful inv (upTo c d world earlier).world.2 :=
    world_judgeAll hc.keeps_truthful d earlier (truthful_nil inv)
  have htruthful := truthful_calls.mpr (world_judge hc.keeps_truthful d r hupTo)
  have hown : Truthful inv (callsOn c d world earlier r) := by
    intro profile answer hmem
    refine htruthful profile answer ?_
    rw [hleads.calls]
    exact List.mem_append_right _ hmem
  obtain ⟨looked, answer, hexamined, hended⟩ :=
    hjudged.ended htruthful.grows hown hm hrange ho hi hless
  exact hended.agrees hc hexamined world'

end Place

/-- **A check on its own and a pass agree.** Over an inventory that answers by the profile alone, a
check answers what the dependencies call for, in their declared order, and asks each that has a
minimum once at most and none behind the one that settles the matter. It counts their instances in
32 bits, which is their number on the condition that 32 bits hold it. A pass comes to the same about
every requirement of its document whose profile is offered an autoscaler and has to grow. -/
theorem gate_agrees (hc : Steady c inv) (d : Document) :
    (∀ r kept world, Decides c count32 inv d r kept world) ∧
    (InRange d inv → ∀ r kept world, Decides c total inv d r kept world) ∧
    ∀ earlier r later, d.requirements = earlier ++ r :: later → ∀ world,
      (run c d world).1.verdicts[earlier.length]? = some (verdictOn c d world earlier r) ∧
      (∃ after, callsOf c d world
        = (upTo c d world earlier).calls ++ callsOn c d world earlier r ++ after) ∧
      ∀ minimum all, r.minimum = some minimum → minimum < 2147483648 →
        .offer r.profile (.ok true) ∈ callsOn c d world earlier r →
        inv r.profile = .ok all → (countableIn all : Int) < minimum →
        ∀ world', Agrees c d r world' (callsOn c d world earlier r)
          (verdictOn c d world earlier r) := by
  refine ⟨decides hc (fits_count32 d inv), fun hrange => decides hc hrange.fits, ?_⟩
  intro earlier r later heq world
  refine ⟨run_verdictOn c heq world, callsOf_eq c heq world, ?_⟩
  intro minimum all hm hrange ho hi hless world'
  exact hc.agrees heq world hm hrange ho hi hless world'

/-- A requirement that waits for a profile without a minimum, for one that lags and for one about
which nothing is known. -/
def front : Requirement :=
  { profile := "front", minimum := some 1, dependencies := ["log", "store", "queue"] }

/-- A requirement that waits for the same in another order. -/
def back : Requirement :=
  { profile := "back", minimum := some 1, dependencies := ["queue", "store"] }

/-- The two requirements behind those that they wait for. -/
def queued : Document where
  requirements := [{ profile := "store", minimum := some 2 },
    { profile := "queue", minimum := some 1 }, { profile := "log" }, front, back]
  distinct := by decide

/-- An inventory with a running instance of one profile and a dead one; it fails about another. -/
def torn : Script Unit where
  offer _ _ := .ok (some ())
  instances profile :=
    if profile = "queue" then .error (.collaborator "no route")
    else if profile = "store" then
      .ok [{ id := "store-0", profile, alive := true }, { id := "store-1", profile }]
    else .ok []
  version := .ok "v1"
  create _ _ := .ok ()
  destroy _ _ := .ok ()

theorem inRange_torn : InRange queued torn.instances := by
  intro profile minimum all _ hi
  unfold torn at hi
  dsimp only at hi
  split at hi
  · cases hi
  · split at hi <;> cases hi <;> simp [countableIn, Instance.isCountable]

/-- The first of the two is held back by the profile that lags, the second one fails. -/
theorem queued_agrees :
    (Steady torn.collaborators torn.instances ∧ InRange queued torn.instances) ∧
      (satisfied torn.collaborators queued front (some "") []).1 = .ok (false, some "store") ∧
      (run torn.collaborators queued []).1.verdicts[3]?.map (fun v => (v.outcome, v.blocking))
        = some (.gated, "store") ∧
      (satisfied torn.collaborators queued back none []).1 = .error (.collaborator "no route") ∧
      (run torn.collaborators queued []).1.verdicts[4]?.map (fun v => (v.outcome, v.error))
        = some (.failed, "no route") := by
  have hc : Steady torn.collaborators torn.instances := fun _ _ => rfl
  obtain ⟨-, hexact, hplaces⟩ := gate_agrees hc queued
  have hdecides := hexact inRange_torn
  have hstore : told torn.instances "store"
      = some [{ id := "store-0", profile := "store", alive := true }] := by rfl
  have hfront : (satisfied torn.collaborators queued front (some "") []).1
      = .ok (false, some "store") := by
    refine ((hdecides front (some "") []).blocks (some "store")).mpr
      ⟨["log"], "store", ["queue"], rfl, ?_, ⟨2, _, by decide, hstore, by decide⟩, rfl⟩
    intro other hother
    rw [List.mem_singleton.mp hother]
    exact reached_of_none _ _ (by decide)
  have hback : (satisfied torn.collaborators queued back none []).1
      = .error (.collaborator "no route") :=
    ((hdecides back none []).fails _).mpr ⟨[], "queue", ["store"], rfl, by simp, by decide, rfl⟩
  obtain ⟨hverdict, -, hagrees⟩ := hplaces (queued.requirements.take 3) front [back] rfl []
  obtain ⟨hverdict', -, hagrees'⟩ := hplaces (queued.requirements.take 4) back [] rfl []
  have hoffer : (callsOn torn.collaborators queued [] (queued.requirements.take 3) front)[0]?
      = some (.offer "front" (.ok true)) := by rfl
  have hoffer' : (callsOn torn.collaborators queued [] (queued.requirements.take 4) back)[0]?
      = some (.offer "back" (.ok true)) := by rfl
  have hgated := ((hagrees 1 [] rfl (by decide) (List.mem_of_getElem? hoffer) rfl (by decide)
    []).gated "" "store").mpr hfront
  have hfailed := ((hagrees' 1 [] rfl (by decide) (List.mem_of_getElem? hoffer') rfl (by decide)
    []).failed none _).mpr hback
  have hmessage : (Failure.collaborator "no route").message = "no route" := by decide
  refine ⟨⟨hc, inRange_torn⟩, hfront, ?_, hback, ?_⟩
  · rw [show 3 = (queued.requirements.take 3).length from rfl, hverdict]
    simp [hgated]
  · rw [show 4 = (queued.requirements.take 4).length from rfl, hverdict']
    simp [hfailed, hmessage]

/-- An inventory with the same number of running instances of every profile. -/
def crowd (n : Nat) : Script Unit where
  offer _ _ := .ok (some ())
  instances profile := .ok (List.replicate n { id := "a", profile, alive := true })
  version := .ok "v1"
  create _ _ := .ok ()
  destroy _ _ := .ok ()

theorem told_crowd (n : Nat) (profile : String) : told (crowd n).instances profile
    = some (List.replicate n { id := "a", profile, alive := true }) := by
  simp [told, crowd, Except.toOption, Instance.isCountable]

theorem steady_crowd (n : Nat) : Steady (crowd n).collaborators (crowd n).instances :=
  fun _ _ => rfl

/-- Whoever waits for a crowd has enough of it. -/
theorem reached_crowd {n : Nat} (hn : 2 ≤ n) {dependency : String}
    (hmem : dependency ∈ back.dependencies) :
    Reached queued total (told (crowd n).instances) dependency := by
  intro minimum hm
  refine ⟨_, told_crowd n dependency, ?_⟩
  rw [total, List.length_replicate]
  simp only [back, List.mem_cons, List.not_mem_nil, or_false] at hmem
  rcases hmem with rfl | rfl
  · have hqueue : queued.minimum? "queue" = some 1 := by decide
    rw [hqueue, Option.some.injEq] at hm
    omega
  · have hstore : queued.minimum? "store" = some 2 := by decide
    rw [hstore, Option.some.injEq] at hm
    omega

/-- A crowd that is counted for too few holds up whoever waits for it. -/
theorem satisfied_crowd {n : Nat} (hn : wrap32 n < 1) :
    (satisfied (crowd n).collaborators queued back (some "") []).1
      = .ok (false, some "queue") := by
  have hlags : Lags queued count32 (told (crowd n).instances) "queue" := by
    refine ⟨1, _, by decide, told_crowd n "queue", ?_⟩
    rwa [count32, List.length_replicate]
  have hdecides := decides (steady_crowd n) (fits_count32 queued _) back (some "") []
  exact (hdecides.blocks _).mpr ⟨[], "queue", ["store"], rfl, by simp, hlags, rfl⟩

/-- With more instances than 32 bits can count, a profile is held back although it waits for nobody
who has too few. -/
theorem gate_agrees_wrong :
    let c := (crowd 2147483648).collaborators
    let inv := (crowd 2147483648).instances
    Steady c inv ∧
      (∀ dependency ∈ back.dependencies, Reached queued total (told inv) dependency) ∧
      (satisfied c queued back (some "") []).1 = .ok (false, some "queue") :=
  ⟨steady_crowd _, fun _ => reached_crowd (by decide), satisfied_crowd (by decide)⟩

end Pass

end FleetScaler
