import FleetScaler.Proofs.Timer.Callers
import Mathlib.Data.List.Induction
import Mathlib.Logic.Function.Basic

/-!
# Who keeps a ticker

Callers that enable a timer at the same time make a ticker each, as none of them has seen the
other's, and all but one have made theirs for nothing. Still there is one keeper for each ticker at
every moment: the call that made it, then the slot, then the call that takes it out of the slot. A
ticker that is cancelled is retired; that happens once, either to the ticker of a call that came too
late or to one that was taken out.

What a step can do is told once, by `Acts`. `Kept` is what all steps keep up of the history and the
clockwork that it leads to.
-/

namespace FleetScaler

namespace Timer

/-- Two timers that differ at most in their name, in how many ticks they count and in what they have
noted. -/
structure Alike (t t' : Timer) : Prop where
  tickers : t'.tickers = t.tickers
  active : t'.active = t.active

theorem Alike.refl (t : Timer) : t.Alike t := ⟨rfl, rfl⟩

theorem Alike.isEnabled {t t' : Timer} (h : t.Alike t') : t'.isEnabled = t.isEnabled := by
  simp [Timer.isEnabled, h.active]

theorem Alike.isTicking {t t' : Timer} (h : t.Alike t') (k : Nat) :
    t'.isTicking k = t.isTicking k := by simp [Timer.isTicking, h.tickers]

theorem Alike.isCancelled {t t' : Timer} (h : t.Alike t') (k : Nat) :
    t'.isCancelled k = t.isCancelled k := by simp [Timer.isCancelled, h.tickers]

section

variable (t : Timer) (j k : Nat) (interval : Int) (failure : Option Failure)

@[simp, grind =] theorem isCancelled_active (slot : Option Nat) :
    ({ t with active := slot } : Timer).isCancelled k = t.isCancelled k := rfl

@[simp] theorem isTicking_active (slot : Option Nat) :
    ({ t with active := slot } : Timer).isTicking k = t.isTicking k := rfl

@[simp, grind =] theorem isCancelled_create :
    (t.create interval).2.isCancelled k = t.isCancelled k := by
  simp only [isCancelled, create, List.getElem?_append]
  grind

@[simp] theorem isTicking_create : (t.create interval).2.isTicking k = t.isTicking k := by
  simp only [isTicking, create, List.getElem?_append]
  grind

@[simp, grind =] theorem active_cancel : (t.cancel k).active = t.active := rfl

@[grind =] theorem isCancelled_cancel :
    (t.cancel j).isCancelled k = (t.isCancelled k || j = k && k < t.tickers.length) := by
  simp only [isCancelled, cancel, List.getElem?_modify]
  by_cases hk : k < t.tickers.length <;> by_cases hj : j = k <;> simp [hk, hj]

@[simp] theorem isCancelled_beginTick : (t.beginTick j).isCancelled k = t.isCancelled k := by
  unfold beginTick
  split
  · simp only [isCancelled, List.getElem?_modify]
    cases t.tickers[k]? <;> by_cases hj : j = k <;> simp [hj]
  · rfl

@[simp] theorem isCancelled_endTick :
    (t.endTick j failure).isCancelled k = t.isCancelled k := by
  simp only [isCancelled, tickers_endTick, List.getElem?_modify]
  cases t.tickers[k]? <;> by_cases hj : j = k <;> simp [hj]

theorem isTicking_beginTick_of_ne (h : j ≠ k) : (t.beginTick j).isTicking k = t.isTicking k := by
  unfold beginTick
  split
  · simp [isTicking, h]
  · rfl

theorem isTicking_endTick :
    (t.endTick j failure).isTicking k = (t.isTicking k && j ≠ k) := by
  simp only [isTicking, tickers_endTick, List.getElem?_modify]
  cases t.tickers[k]? <;> by_cases hj : j = k <;> simp [hj]

end

end Timer

namespace Stage

/-- The call has succeeded and is still to say so. -/
def hasSwitched : Stage → Bool
  | .installed _ | .taken _ | .waiting _ true => true
  | _ => false

/-- The ticker that a call to enable the timer has made and still has in hand. -/
def offered? : Stage → Option Nat
  | .made ticker _ | .beaten ticker => some ticker
  | _ => none

/-- The ticker that a call to disable the timer has taken and still has in hand. -/
def taken? : Stage → Option Nat
  | .taken ticker => some ticker
  | _ => none

end Stage

/-- Who keeps a ticker. -/
inductive Keeper where
  /-- A call to enable the timer that is still under way. -/
  | enabling (caller : Caller)
  | slot
  /-- A call to disable the timer that is still under way. -/
  | disabling (caller : Caller)
  /-- Nobody needs the ticker any more: it has been cancelled. -/
  | retired
  deriving DecidableEq, Repr

namespace Clockwork

/-- A ticker is kept by this keeper. -/
def Keeps (w : Clockwork) (ticker : Nat) : Keeper → Prop
  | .enabling c => (w.stage c).offered? = some ticker
  | .slot => w.timer.active = some ticker
  | .disabling c => (w.stage c).taken? = some ticker
  | .retired => w.timer.isCancelled ticker = true

/-! ## What a step can do -/

/-- What can happen in a step, and what comes of it. -/
inductive Acts (w : Clockwork) : List Event → Clockwork → Prop where
  | nothing : Acts w [] w
  /-- A call that comes to nothing returns at once. -/
  | answers (c : Caller) (answer : Except Failure Bool) (hcall : w.mayCall c = true)
      (hanswer : answer ≠ .ok true) : Acts w [.answered c answer] w
  | looks (c : Caller) (interval : Int) (hcall : w.mayCall c = true) :
      Acts w [] (w.goTo w.timer c (.looked interval))
  | makes (c : Caller) (interval : Int) (hc : w.stage c = .looked interval) :
      Acts w [.made w.timer.tickers.length]
        (w.goTo (w.timer.create interval).2 c (.made w.timer.tickers.length interval))
  | installs (c : Caller) (k : Nat) (interval : Int) (hc : w.stage c = .made k interval)
      (hslot : w.timer.active = none) :
      Acts w [.enabled c k] (w.goTo { w.timer with active := some k } c (.installed interval))
  | loses (c : Caller) (k : Nat) (interval : Int) (hc : w.stage c = .made k interval) :
      Acts w [] (w.goTo w.timer c (.beaten k))
  | reports (c : Caller) (interval : Int) (t : Timer) (hc : w.stage c = .installed interval)
      (ht : w.timer.Alike t) : Acts w [.answered c (.ok true)] (w.goTo t c .idle)
  | takes (c : Caller) (k : Nat) (hcall : w.mayCall c = true) (hslot : w.timer.active = some k) :
      Acts w [.disabled c k] (w.goTo { w.timer with active := none } c (.taken k))
  | cancels (c : Caller) (k : Nat) (stopped : Bool)
      (hc : w.stage c = if stopped then .taken k else .beaten k) :
      Acts w [.cancelled k] (w.goTo (w.timer.cancel k) c (.waiting k stopped))
  | leaves (c : Caller) (k : Nat) (stopped : Bool) (t : Timer) (hc : w.stage c = .waiting k stopped)
      (hleave : w.mayLeave c k = true) (ht : w.timer.Alike t) :
      Acts w [.answered c (.ok stopped)] (w.goTo t c .idle)
  | begins (k : Nat) (hk : w.timer.mayTick k = true) :
      Acts w [.began k] { w with timer := w.timer.beginTick k }
  | ends (k : Nat) (failure : Option Failure) (hidle : w.stage (.inside k) = .idle) :
      Acts w [.ended k] { w with timer := w.timer.endTick k failure }

theorem acts_goOn (w : Clockwork) (c : Caller) : Acts w (w.goOn c).1 (w.goOn c).2 := by
  unfold goOn
  split
  next => exact .nothing
  next interval hc => exact .makes c interval hc
  next k interval hc =>
      cases hslot : w.timer.active with
      | none => simpa [Timer.offer, hslot] using Acts.installs c k interval hc hslot
      | some j => simpa [Timer.offer, hslot] using Acts.loses c k interval hc
  next interval hc => exact .reports c interval _ hc ⟨rfl, rfl⟩
  next k hc => exact .cancels c k false hc
  next k hc => exact .cancels c k true hc
  next k stopped hc =>
      split
      next hleave => exact .leaves c k stopped _ hc hleave (by cases stopped <;> exact ⟨rfl, rfl⟩)
      next => exact .nothing

/-- **What a step can do.** -/
theorem acts (w : Clockwork) (step : Step) : Acts w (w.act step).1 (w.perform step) := by
  cases step with
  | enable c interval =>
      simp only [perform, act, startEnable]
      split
      next hcall =>
          split
          next => exact .answers c _ hcall (by simp)
          next =>
              split
              next => exact .answers c _ hcall (by simp)
              next => exact .looks c interval hcall
      next => exact .nothing
  | disable c =>
      simp only [perform, act, startDisable, Timer.take]
      split
      next hcall =>
          split
          next t heq =>
              obtain ⟨hslot, rfl⟩ := Prod.mk.inj heq
              have hsame : { w.timer with active := none } = w.timer := by rw [← hslot]
              rw [hsame]
              exact .answers c _ hcall (by simp)
          next k t heq =>
              obtain ⟨hslot, rfl⟩ := Prod.mk.inj heq
              exact .takes c k hcall hslot
      next => exact .nothing
  | proceed c => exact acts_goOn w c
  | beginTick k =>
      simp only [perform, act]
      split
      next hk => exact .begins k hk
      next => exact .nothing
  | endTick k failure =>
      simp only [perform, act]
      split
      next h =>
          rw [Bool.and_eq_true, decide_eq_true_eq] at h
          exact .ends k failure h.2
      next => exact .nothing

/-- **What holds at first and is kept up by every step** holds of every history and of what it leads
to. -/
theorem history_induction {P : List Event → Clockwork → Prop} (start : P [] {})
    (next : ∀ h w es w', P h w → Acts w es w' → P (h ++ es) w') (steps : List Step) :
    P (history {} steps) (run {} steps) := by
  induction steps using List.reverseRecOn with
  | nil => exact start
  | append_singleton steps step ih =>
      rw [history_append, run_append]
      simpa [history] using next _ _ _ _ ih (acts _ step)

/-! ## The slot is filled and emptied in turn -/

/-- The timer is switched on or off. -/
def Event.switch? : Event → Option Bool
  | .enabled .. => some true
  | .disabled .. => some false
  | _ => none

/-- How a timer that is off at first may be switched, and whether it is on then. -/
inductive Switched : List Bool → Bool → Prop where
  | start : Switched [] false
  | switch {switches : List Bool} {on : Bool} (h : Switched switches on) :
      Switched (switches ++ [!on]) (!on)

namespace Switched

variable {switches : List Bool} {on : Bool}

theorem on_eq (h : Switched switches on) : on = decide (switches.length % 2 = 1) := by
  induction h with
  | start => rfl
  | switch h ih =>
      subst ih
      simp only [List.length_append, List.length_singleton, ← decide_not, decide_eq_decide]
      omega

/-- Every other switch is on, the first included. -/
theorem getElem?_eq (h : Switched switches on) {i : Nat} (hi : i < switches.length) :
    switches[i]? = some (decide (i % 2 = 0)) := by
  induction h with
  | start => simp at hi
  | @switch switches on h ih =>
      rcases Nat.lt_or_ge i switches.length with hlt | hge
      · rw [List.getElem?_append_left hlt, ih hlt]
      · obtain rfl : i = switches.length := by
          simp only [List.length_append, List.length_singleton] at hi
          omega
        simp only [List.getElem?_concat_length, h.on_eq, Option.some_inj, ← decide_not,
          decide_eq_decide]
        omega

theorem count_eq (h : Switched switches on) :
    switches.count true = switches.count false + if on then 1 else 0 := by
  induction h with
  | start => rfl
  | @switch switches on h ih => cases on <;> simp_all [List.count_append]

end Switched

variable {w w' : Clockwork} {es : List Event}

theorem Acts.switched (h : Acts w es w') {switches : List Bool}
    (hw : Switched switches w.timer.isEnabled) :
    Switched (switches ++ es.filterMap Event.switch?) w'.timer.isEnabled := by
  cases h with
  | nothing | answers | looks | loses => simpa [List.filterMap_cons, Event.switch?] using hw
  | makes | cancels | begins | ends =>
      simpa [List.filterMap_cons, Event.switch?, Timer.isEnabled, Timer.create] using hw
  | installs c k interval hc hslot =>
      simpa [List.filterMap_cons, Event.switch?, Timer.isEnabled, hslot] using hw.switch
  | takes c k hcall hslot =>
      simpa [List.filterMap_cons, Event.switch?, Timer.isEnabled, hslot] using hw.switch
  | reports c interval t hc ht =>
      simpa [List.filterMap_cons, Event.switch?, ht.isEnabled] using hw
  | leaves c k stopped t hc hleave ht =>
      simpa [List.filterMap_cons, Event.switch?, ht.isEnabled] using hw

/-! ## Calls that succeed say so -/

/-- A caller succeeds in switching the timer on or off. -/
def Event.isSwitchBy (c : Caller) : Event → Bool
  | .enabled c' _ | .disabled c' _ => c' = c
  | _ => false

/-- A caller is told that it has succeeded. -/
def Event.isSuccessOf (c : Caller) : Event → Bool
  | .answered c' (.ok true) => c' = c
  | _ => false

theorem Acts.told (h : Acts w es w') (c : Caller) :
    es.countP (Event.isSwitchBy c) + (w.stage c).hasSwitched.toNat
      = es.countP (Event.isSuccessOf c) + (w'.stage c).hasSwitched.toNat := by
  cases h with
  | nothing | begins | ends => rfl
  | answers c' answer hcall hanswer =>
      have hsuccess : (Event.answered c' answer).isSuccessOf c = false := by
        unfold Event.isSuccessOf
        split <;> simp_all
      simp [Event.isSwitchBy, hsuccess]
  | looks c' interval hcall =>
      have hidle := idle_of_mayCall hcall
      grind [goTo, Stage.hasSwitched]
  | takes c' k hcall hslot =>
      have hidle := idle_of_mayCall hcall
      grind [goTo, Stage.hasSwitched, Event.isSwitchBy, Event.isSuccessOf]
  | leaves c' k stopped t hc hleave ht =>
      cases stopped <;> grind [goTo, Stage.hasSwitched, Event.isSwitchBy, Event.isSuccessOf]
  | cancels c' k stopped hc =>
      cases stopped <;> grind [goTo, Stage.hasSwitched, Event.isSwitchBy, Event.isSuccessOf]
  | _ => grind [goTo, Stage.hasSwitched, Event.isSwitchBy, Event.isSuccessOf]

/-! ## One keeper for each ticker -/

/-- Each ticker that was made has the keeper that is given for it and no other, and nobody keeps
anything else. -/
def KeptBy (w : Clockwork) (keeper : Nat → Keeper) : Prop :=
  ∀ k o, w.Keeps k o ↔ k < w.timer.tickers.length ∧ keeper k = o

theorem KeptBy.existsUnique {keeper : Nat → Keeper} (h : w.KeptBy keeper) {k : Nat}
    (hk : k < w.timer.tickers.length) : ∃! o, w.Keeps k o :=
  ⟨keeper k, (h k _).mpr ⟨hk, rfl⟩, fun _ ho => ((h k _).mp ho).2.symm⟩

theorem KeptBy.eq {keeper : Nat → Keeper} (h : w.KeptBy keeper) {k : Nat} {o o' : Keeper}
    (ho : w.Keeps k o) (ho' : w.Keeps k o') : o = o' :=
  ((h k o).mp ho).2.symm.trans ((h k o').mp ho').2

theorem KeptBy.lt {keeper : Nat → Keeper} (h : w.KeptBy keeper) {k : Nat} {o : Keeper}
    (ho : w.Keeps k o) : k < w.timer.tickers.length := ((h k o).mp ho).1

theorem KeptBy.active_ne {keeper : Nat → Keeper} (h : w.KeptBy keeper) {k : Nat} {o : Keeper}
    (ho : w.Keeps k o) (hne : o ≠ .slot) : w.timer.active ≠ some k :=
  fun hslot => hne (h.eq ho hslot)

theorem KeptBy.isCancelled_eq {keeper : Nat → Keeper} (h : w.KeptBy keeper) {k : Nat} {o : Keeper}
    (ho : w.Keeps k o) (hne : o ≠ .retired) : w.timer.isCancelled k = false :=
  Bool.eq_false_iff.mpr fun hretired => hne (h.eq ho hretired)

section

variable (t : Timer) (c c' : Caller) (s : Stage) (k : Nat)

@[grind =] theorem keeps_goTo_enabling : (w.goTo t c s).Keeps k (.enabling c') ↔
    if c' = c then s.offered? = some k else w.Keeps k (.enabling c') := by
  simp only [Keeps, goTo]
  split <;> rfl

@[grind =] theorem keeps_goTo_disabling : (w.goTo t c s).Keeps k (.disabling c') ↔
    if c' = c then s.taken? = some k else w.Keeps k (.disabling c') := by
  simp only [Keeps, goTo]
  split <;> rfl

@[grind =] theorem keeps_goTo_slot : (w.goTo t c s).Keeps k .slot ↔ t.active = some k := Iff.rfl

@[grind =] theorem keeps_goTo_retired :
    (w.goTo t c s).Keeps k .retired ↔ t.isCancelled k = true := Iff.rfl

end

/-- A step after which everything is with the keeper it was with. -/
theorem KeptBy.stay {keeper : Nat → Keeper} (h : w.KeptBy keeper)
    (hkeeps : ∀ k o, w'.Keeps k o ↔ w.Keeps k o)
    (hlength : w'.timer.tickers.length = w.timer.tickers.length) : w'.KeptBy keeper := by
  intro k o
  rw [hkeeps, hlength]
  exact h k o

/-- A caller that keeps what it kept, whatever else it does. -/
theorem KeptBy.goTo_stay {keeper : Nat → Keeper} (h : w.KeptBy keeper) {t : Timer} {c : Caller}
    {s : Stage} (ht : w.timer.Alike t) (hoffered : s.offered? = (w.stage c).offered?)
    (htaken : s.taken? = (w.stage c).taken?) : (w.goTo t c s).KeptBy keeper := by
  refine h.stay ?_ (congrArg _ ht.tickers)
  rintro k (c' | _ | c' | _)
  · rw [keeps_goTo_enabling, hoffered]
    split <;> simp_all [Keeps]
  · rw [keeps_goTo_slot, ht.active, Keeps]
  · rw [keeps_goTo_disabling, htaken]
    split <;> simp_all [Keeps]
  · rw [keeps_goTo_retired, ht.isCancelled, Keeps]

/-- A step in which one ticker comes to a keeper. -/
theorem KeptBy.pass {keeper : Nat → Keeper} (h : w.KeptBy keeper) {k : Nat} {o : Keeper}
    (hk : ∀ q, w'.Keeps k q ↔ o = q) (hkeeps : ∀ j, j ≠ k → ∀ q, w'.Keeps j q ↔ w.Keeps j q)
    (hlt : k < w'.timer.tickers.length)
    (hlength : ∀ j, j ≠ k → (j < w'.timer.tickers.length ↔ j < w.timer.tickers.length)) :
    w'.KeptBy (Function.update keeper k o) := by
  intro j q
  rcases eq_or_ne j k with rfl | hj
  · simp [hk, hlt]
  · rw [hkeeps j hj, hlength j hj, Function.update_of_ne hj]
    exact h j q

/-- Whoever is about to cancel a ticker is the one who keeps it. -/
theorem keeps_of_cancelling {c : Caller} {k : Nat} {stopped : Bool}
    (h : w.stage c = if stopped then .taken k else .beaten k) :
    ∃ o, w.Keeps k o ∧ (o = .enabling c ∨ o = .disabling c) := by
  cases stopped with
  | true => exact ⟨.disabling c, by simp [Keeps, h, Stage.taken?], .inr rfl⟩
  | false => exact ⟨.enabling c, by simp [Keeps, h, Stage.offered?], .inl rfl⟩

/-- **One ticker at most passes to another keeper** in a step. -/
theorem Acts.keptBy (h : Acts w es w') {keeper : Nat → Keeper} (hw : w.KeptBy keeper) :
    ∃ keeper', w'.KeptBy keeper' := by
  cases h with
  | nothing | answers => exact ⟨keeper, hw⟩
  | looks c interval hcall =>
      have hidle := idle_of_mayCall hcall
      exact ⟨keeper, hw.goTo_stay (.refl _) (by simp [hidle, Stage.offered?])
        (by simp [hidle, Stage.taken?])⟩
  | makes c interval hc =>
      -- the number of the new ticker was nobody's before
      have hnone : ∀ o, ¬ w.Keeps w.timer.tickers.length o :=
        fun o ho => Nat.lt_irrefl _ (hw.lt ho)
      have hslot : w.timer.active ≠ some w.timer.tickers.length := hnone .slot
      have hretired : ¬ w.timer.isCancelled w.timer.tickers.length = true := hnone .retired
      refine ⟨_, hw.pass (k := w.timer.tickers.length) (o := .enabling c) ?_ ?_ ?_ ?_⟩
      · rintro (c' | _ | c' | _) <;> grind [Stage.offered?, Stage.taken?, Timer.create]
      · rintro j hj (c' | _ | c' | _) <;> grind [Keeps, Stage.offered?, Stage.taken?, Timer.create]
      · simp [Timer.create]
      · simp only [goTo_timer, Timer.create, List.length_append, List.length_singleton]
        omega
  | installs c k interval hc hslot =>
      have hkeeps : w.Keeps k (.enabling c) := by simp [Keeps, hc, Stage.offered?]
      have honly : ∀ o, w.Keeps k o → o = .enabling c := fun o ho => hw.eq ho hkeeps
      have hcancelled := hw.isCancelled_eq hkeeps (by simp)
      refine ⟨_, hw.pass (k := k) (o := .slot) ?_ ?_ (hw.lt hkeeps) fun _ _ => Iff.rfl⟩
      · rintro (c' | _ | c' | _) <;> grind [Stage.offered?, Stage.taken?]
      · rintro j hj (c' | _ | c' | _) <;> grind [Keeps, Stage.offered?, Stage.taken?]
  | loses c k interval hc =>
      exact ⟨keeper, hw.goTo_stay (.refl _) (by simp [hc, Stage.offered?])
        (by simp [hc, Stage.taken?])⟩
  | reports c interval t hc ht =>
      exact ⟨keeper, hw.goTo_stay ht (by simp [hc, Stage.offered?]) (by simp [hc, Stage.taken?])⟩
  | takes c k hcall hslot =>
      have hkeeps : w.Keeps k .slot := hslot
      have honly : ∀ o, w.Keeps k o → o = .slot := fun o ho => hw.eq ho hkeeps
      have hcancelled := hw.isCancelled_eq hkeeps (by simp)
      have hidle := idle_of_mayCall hcall
      refine ⟨_, hw.pass (k := k) (o := .disabling c) ?_ ?_ (hw.lt hkeeps) fun _ _ => Iff.rfl⟩
      · rintro (c' | _ | c' | _) <;> grind [Stage.offered?, Stage.taken?]
      · rintro j hj (c' | _ | c' | _) <;> grind [Keeps, Stage.offered?, Stage.taken?]
  | cancels c k stopped hc =>
      -- it was with the call that cancels it, so neither in the slot nor cancelled before
      obtain ⟨o', hkeeps, ho'⟩ := keeps_of_cancelling hc
      have honly : ∀ o, w.Keeps k o → o = o' := fun o ho => hw.eq ho hkeeps
      have hactive := hw.active_ne hkeeps (by grind)
      have hlt := hw.lt hkeeps
      refine ⟨_, hw.pass (k := k) (o := .retired) ?_ ?_ ?_ ?_⟩
      · rintro (c' | _ | c' | _) <;> grind [Stage.offered?, Stage.taken?]
      · rintro j hj (c' | _ | c' | _) <;> grind [Keeps, Stage.offered?, Stage.taken?]
      · simpa [Timer.cancel] using hlt
      · simp [Timer.cancel]
  | leaves c k stopped t hc hleave ht =>
      exact ⟨keeper, hw.goTo_stay ht (by simp [hc, Stage.offered?]) (by simp [hc, Stage.taken?])⟩
  | begins k hk =>
      refine ⟨keeper, hw.stay ?_ ?_⟩
      · rintro j (c' | _ | c' | _) <;> simp [Keeps]
      · simp [Timer.beginTick_of_mayTick hk]
  | ends k failure hidle =>
      refine ⟨keeper, hw.stay ?_ ?_⟩
      · rintro j (c' | _ | c' | _) <;> simp [Keeps]
      · simp [Timer.tickers_endTick]

/-! ## Tickers are made in turn and cancelled once -/

/-- The ticker that is made. -/
def Event.made? : Event → Option Nat
  | .made ticker => some ticker
  | _ => none

/-- A ticker is cancelled. -/
def Event.isCancelOf (k : Nat) : Event → Bool
  | .cancelled j => j = k
  | _ => false

theorem Acts.made (h : Acts w es w') :
    List.range w.timer.tickers.length ++ es.filterMap Event.made?
      = List.range w'.timer.tickers.length := by
  cases h with
  | nothing | looks | loses | answers | installs | takes =>
      simp [List.filterMap_cons, Event.made?]
  | makes => simp [Event.made?, Timer.create, List.range_succ]
  | cancels => simp [List.filterMap_cons, Event.made?, Timer.cancel]
  | begins k hk => simp [List.filterMap_cons, Event.made?, Timer.beginTick_of_mayTick hk]
  | reports c interval t hc ht => simp [List.filterMap_cons, Event.made?, ht.tickers]
  | leaves c k stopped t hc hleave ht => simp [List.filterMap_cons, Event.made?, ht.tickers]
  | ends k failure hidle => simp [List.filterMap_cons, Event.made?, Timer.tickers_endTick]

/-- What is cancelled has not been cancelled before. -/
theorem Acts.cancelled (h : Acts w es w') {keeper : Nat → Keeper} (hw : w.KeptBy keeper) (k : Nat) :
    (w.timer.isCancelled k).toNat + es.countP (Event.isCancelOf k)
      = (w'.timer.isCancelled k).toNat := by
  cases h with
  | nothing | answers | looks | makes | installs | loses | takes | begins | ends =>
      simp [Event.isCancelOf]
  | reports c interval t hc ht => simp [Event.isCancelOf, ht.isCancelled]
  | leaves c j stopped t hc hleave ht => simp [Event.isCancelOf, ht.isCancelled]
  | cancels c j stopped hc =>
      obtain ⟨o, hkeeps, ho⟩ := keeps_of_cancelling hc
      have hcancelled := hw.isCancelled_eq hkeeps (by grind)
      have hlt := hw.lt hkeeps
      rw [goTo_timer, Timer.isCancelled_cancel]
      rcases eq_or_ne j k with rfl | hj
      · simp [Event.isCancelOf, hcancelled, hlt]
      · simp [Event.isCancelOf, hj]

/-! ## A callback in the middle of a call is in its tick -/

/-- The callbacks that are in a call are in a tick. -/
def Busy (w : Clockwork) : Prop :=
  ∀ k, w.stage (.inside k) ≠ .idle → w.timer.isTicking k = true

theorem Busy.goTo (hw : w.Busy) {t : Timer} {c : Caller} {s : Stage}
    (ht : ∀ k, t.isTicking k = w.timer.isTicking k)
    (hc : ∀ k, c = .inside k → s ≠ .idle → w.timer.isTicking k = true) : (w.goTo t c s).Busy := by
  intro k hk
  rw [goTo_timer, ht]
  rcases eq_or_ne (.inside k) c with rfl | hne
  · exact hc k rfl (by simpa using hk)
  · exact hw k (by rwa [goTo_ne _ _ _ _ hne] at hk)

theorem Acts.busy (h : Acts w es w') (hw : w.Busy) : w'.Busy := by
  have hcalls {c : Caller} (hcall : w.mayCall c = true) (k : Nat) (hk : c = .inside k) :
      w.timer.isTicking k = true := by
    subst hk
    simp only [mayCall, Bool.and_eq_true] at hcall
    exact hcall.2
  cases h with
  | nothing | answers => exact hw
  | looks c interval hcall => exact hw.goTo (fun _ => rfl) fun k hk _ => hcalls hcall k hk
  | takes c k hcall hslot => exact hw.goTo (fun _ => rfl) fun k hk _ => hcalls hcall k hk
  | makes c interval hc => exact hw.goTo (by simp) fun k hk _ => hw k (by simp [← hk, hc])
  | installs c j interval hc hslot =>
      exact hw.goTo (fun _ => rfl) fun k hk _ => hw k (by simp [← hk, hc])
  | loses c j interval hc => exact hw.goTo (fun _ => rfl) fun k hk _ => hw k (by simp [← hk, hc])
  | cancels c j stopped hc =>
      exact hw.goTo (by simp) fun k hk _ => hw k (by cases stopped <;> simp [← hk, hc])
  | reports c interval t hc ht => exact hw.goTo ht.isTicking fun _ _ hs => absurd rfl hs
  | leaves c j stopped t hc hleave ht => exact hw.goTo ht.isTicking fun _ _ hs => absurd rfl hs
  | begins j hj =>
      intro k hk
      rcases eq_or_ne j k with rfl | hne
      · exact Timer.isTicking_beginTick hj
      · exact (Timer.isTicking_beginTick_of_ne _ _ _ hne).trans (hw k hk)
  | ends j failure hidle =>
      intro k hk
      -- the callback that comes to its end is in no call, so it is not the one in question
      have hne : j ≠ k := fun heq => hk (heq ▸ hidle)
      simpa [Timer.isTicking_endTick, hne] using hw k hk

/-! ## All of it together -/

/-- What every step keeps up. -/
structure Kept (h : List Event) (w : Clockwork) : Prop where
  switched : Switched (h.filterMap Event.switch?) w.timer.isEnabled
  told : ∀ c, h.countP (Event.isSwitchBy c)
    = h.countP (Event.isSuccessOf c) + (w.stage c).hasSwitched.toNat
  made : h.filterMap Event.made? = List.range w.timer.tickers.length
  keptBy : ∃ keeper, w.KeptBy keeper
  cancelled : ∀ k, h.countP (Event.isCancelOf k) = (w.timer.isCancelled k).toNat
  busy : w.Busy

theorem kept_start : Kept [] {} where
  switched := .start
  told _ := rfl
  made := rfl
  keptBy := ⟨fun _ => .slot, by
    rintro k (c | _ | c | _) <;> simp [Keeps, Stage.offered?, Stage.taken?, Timer.isCancelled]⟩
  cancelled _ := rfl
  busy _ h := absurd rfl h

theorem Kept.next {h : List Event} (hw : Kept h w) (hacts : Acts w es w') : Kept (h ++ es) w' where
  switched := by
    rw [List.filterMap_append]
    exact hacts.switched hw.switched
  told c := by
    have htold := hacts.told c
    rw [List.countP_append, List.countP_append, hw.told c]
    omega
  made := by rw [List.filterMap_append, hw.made, hacts.made]
  keptBy := hw.keptBy.elim fun _ hkeeper => hacts.keptBy hkeeper
  cancelled k := by
    obtain ⟨keeper, hkeeper⟩ := hw.keptBy
    rw [List.countP_append, hw.cancelled, hacts.cancelled hkeeper]
  busy := hacts.busy hw.busy

theorem kept (steps : List Step) : Kept (history {} steps) (run {} steps) :=
  history_induction kept_start (fun _ _ _ _ hw hacts => hw.next hacts) steps

end Clockwork

end FleetScaler
