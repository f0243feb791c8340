import FleetScaler.Timer

/-!
# A timer and its callers

Any number of callers enable and disable one timer at the same time, and so do the callbacks of its
tickers from inside their ticks. `Clockwork` is a timer in the middle of all this. Every step of a
call that others can notice is a step of its own: to look at the slot, to make a ticker, to offer
it, to take the ticker out of the slot, to cancel it, and to wait until it is in no tick any more.
Between any two of these anything else may happen.

A call that nobody interrupts comes to what `Timer.enable` and `Timer.disable` say.
-/

namespace FleetScaler

namespace Timer

/-- Notes that a ticker was put into the slot. -/
def noteEnabled (t : Timer) (interval : Int) : Timer :=
  { t with journal := t.said .info (" enabled every " ++ toString interval ++ "ms") }

/-- Notes that a ticker that was taken out of the slot has stopped. -/
def noteDisabled (t : Timer) : Timer := { t with journal := t.said .info " disabled" }

@[simp] theorem isTicking_cancel (t : Timer) (j k : Nat) :
    (t.cancel j).isTicking k = t.isTicking k := by
  simp only [isTicking, cancel, List.getElem?_modify]
  cases t.tickers[k]? with
  | none => rfl
  | some ticker => by_cases hj : j = k <;> simp [hj]

theorem mayTick_iff {t : Timer} {k : Nat} :
    t.mayTick k = true ↔ ∃ ticker, t.tickers[k]? = some ticker ∧ ticker.cancelled = false ∧
      ticker.ticking = false := by
  unfold mayTick
  cases t.tickers[k]? <;> simp

theorem beginTick_of_mayTick {t : Timer} {k : Nat} (h : t.mayTick k = true) :
    t.beginTick k = { t with
      ticks := t.ticks + 1
      tickers := t.tickers.modify k fun ticker => { ticker with ticking := true }
      journal := t.said .debug " tick" } := if_pos h

theorem isTicking_beginTick {t : Timer} {k : Nat} (h : t.mayTick k = true) :
    (t.beginTick k).isTicking k = true := by
  obtain ⟨ticker, hk, -⟩ := mayTick_iff.mp h
  simp [beginTick_of_mayTick h, isTicking, hk]

@[simp] theorem isTicking_disable (t : Timer) (k : Nat) :
    t.disable.2.isTicking k = t.isTicking k := by
  cases hactive : t.active with
  | none => simp [disable, take, hactive, isTicking]
  | some ticker =>
      simp only [disable, take, hactive]
      exact isTicking_cancel { t with active := none } ticker k

@[simp] theorem active_beginTick (t : Timer) (k : Nat) : (t.beginTick k).active = t.active := by
  unfold beginTick
  split <;> rfl

section

variable (t : Timer) (k : Nat) (failure : Option Failure)

@[simp] theorem active_endTick : (t.endTick k failure).active = t.active := by
  cases failure <;> rfl

/-- A failure changes nothing about the tickers. -/
theorem tickers_endTick : (t.endTick k failure).tickers
    = t.tickers.modify k fun ticker => { ticker with ticking := false } := by
  cases failure <;> rfl

end

/-- After a tick a ticker may tick again. -/
theorem mayTick_endTick_beginTick {t : Timer} {k : Nat} (h : t.mayTick k = true)
    (failure : Option Failure) : ((t.beginTick k).endTick k failure).mayTick k = true := by
  obtain ⟨ticker, hk, hcancelled, -⟩ := mayTick_iff.mp h
  simp [beginTick_of_mayTick h, tickers_endTick, mayTick_iff, hk, hcancelled]

end Timer

/-- Who calls a timer. -/
inductive Caller where
  /-- Somebody who is not called by the timer. -/
  | outside (number : Nat)
  /-- The callback of a ticker, from inside its tick. -/
  | inside (ticker : Nat)
  deriving DecidableEq, Repr

/-- How far a caller has come with its call. -/
inductive Stage where
  /-- The caller is in no call. -/
  | idle
  /-- To enable the timer, the caller has found the slot empty. -/
  | looked (interval : Int)
  /-- It has made a ticker. -/
  | made (ticker : Nat) (interval : Int)
  /-- Its ticker is in the slot. -/
  | installed (interval : Int)
  /-- Another ticker is in the slot, and its own is of no use. -/
  | beaten (ticker : Nat)
  /-- To disable the timer, the caller has taken the ticker out of the slot. -/
  | taken (ticker : Nat)
  /-- The caller has cancelled a ticker, and waits for the tick that may be under way. Whether it
  had taken the ticker out of the slot is what it will answer. -/
  | waiting (ticker : Nat) (stopped : Bool)
  deriving DecidableEq, Repr

/-- A timer whose callers are in the middle of their calls. -/
structure Clockwork where
  timer : Timer := {}
  stage : Caller → Stage := fun _ => .idle

namespace Clockwork

/-- Something that happens to the tickers or comes of a call. -/
inductive Event where
  | made (ticker : Nat)
  /-- A ticker was put into the slot: a caller succeeds in enabling the timer. -/
  | enabled (caller : Caller) (ticker : Nat)
  /-- A ticker was taken out of the slot: a caller succeeds in disabling the timer. -/
  | disabled (caller : Caller) (ticker : Nat)
  | cancelled (ticker : Nat)
  | began (ticker : Nat)
  | ended (ticker : Nat)
  /-- A call returns. -/
  | answered (caller : Caller) (answer : Except Failure Bool)

/-- What may be done next. -/
inductive Step where
  /-- A caller that is in no call starts to enable the timer, and looks at the slot. -/
  | enable (caller : Caller) (interval : Int)
  /-- A caller that is in no call starts to disable the timer, and takes out what is in the slot. -/
  | disable (caller : Caller)
  /-- A caller goes on with its call. -/
  | proceed (caller : Caller)
  | beginTick (ticker : Nat)
  /-- The callback of a ticker comes to its end, or fails. -/
  | endTick (ticker : Nat) (failure : Option Failure)

/-- The clockwork where a caller has changed the timer and come to another stage. -/
def goTo (w : Clockwork) (timer : Timer) (caller : Caller) (stage : Stage) : Clockwork where
  timer := timer
  stage c := if c = caller then stage else w.stage c

/-- A caller is there to start a call: it is in none, and a callback is running. -/
def mayCall (w : Clockwork) (caller : Caller) : Bool :=
  w.stage caller = .idle &&
    match caller with
    | .outside _ => true
    | .inside ticker => w.timer.isTicking ticker

/-- A caller need not wait for a ticker that it has cancelled: it is called by that ticker itself,
or the ticker is in no tick. -/
def mayLeave (w : Clockwork) (caller : Caller) (ticker : Nat) : Bool :=
  caller = .inside ticker || !w.timer.isTicking ticker

/-- A caller cancels a ticker. -/
def cancelBy (w : Clockwork) (caller : Caller) (ticker : Nat) (stopped : Bool) :
    List Event × Clockwork :=
  ([.cancelled ticker], w.goTo (w.timer.cancel ticker) caller (.waiting ticker stopped))

/-- A caller goes on with its call. -/
def goOn (w : Clockwork) (caller : Caller) : List Event × Clockwork :=
  match w.stage caller with
  | .idle => ([], w)
  | .looked interval =>
    let (ticker, timer) := w.timer.create interval
    ([.made ticker], w.goTo timer caller (.made ticker interval))
  | .made ticker interval =>
    match w.timer.offer ticker with
    | (true, timer) => ([.enabled caller ticker], w.goTo timer caller (.installed interval))
    | (false, timer) => ([], w.goTo timer caller (.beaten ticker))
  | .installed interval =>
    ([.answered caller (.ok true)], w.goTo (w.timer.noteEnabled interval) caller .idle)
  | .beaten ticker => w.cancelBy caller ticker false
  | .taken ticker => w.cancelBy caller ticker true
  | .waiting ticker stopped =>
    if w.mayLeave caller ticker then
      ([.answered caller (.ok stopped)],
        w.goTo (if stopped then w.timer.noteDisabled else w.timer) caller .idle)
    else ([], w)

/-- A caller starts to enable the timer, which comes to nothing if the interval is not positive or
the timer ticks already. -/
def startEnable (w : Clockwork) (caller : Caller) (interval : Int) : List Event × Clockwork :=
  if interval ≤ 0 then ([.answered caller (.error .nonPositiveInterval)], w)
  else if w.timer.isEnabled then ([.answered caller (.ok false)], w)
  else ([], w.goTo w.timer caller (.looked interval))

/-- A caller starts to disable the timer, which comes to nothing if the slot is empty. -/
def startDisable (w : Clockwork) (caller : Caller) : List Event × Clockwork :=
  match w.timer.take with
  | (none, timer) => ([.answered caller (.ok false)], { w with timer })
  | (some ticker, timer) => ([.disabled caller ticker], w.goTo timer caller (.taken ticker))

/-- What happens in a step, and what comes of it. A step that cannot be made does nothing. -/
def act (w : Clockwork) : Step → List Event × Clockwork
  | .enable caller interval =>
    if w.mayCall caller then w.startEnable caller interval else ([], w)
  | .disable caller => if w.mayCall caller then w.startDisable caller else ([], w)
  | .proceed caller => w.goOn caller
  | .beginTick ticker =>
    if w.timer.mayTick ticker then
      ([.began ticker], { w with timer := w.timer.beginTick ticker })
    else ([], w)
  | .endTick ticker failure =>
    if w.timer.isTicking ticker && w.stage (.inside ticker) = .idle then
      ([.ended ticker], { w with timer := w.timer.endTick ticker failure })
    else ([], w)

/-- What comes of a step. -/
def perform (w : Clockwork) (step : Step) : Clockwork := (w.act step).2

/-- What comes of some steps, one after the other. -/
def run (w : Clockwork) (steps : List Step) : Clockwork := steps.foldl perform w

/-- What happens in some steps, the first first. -/
def history (w : Clockwork) : List Step → List Event
  | [] => []
  | step :: steps => (w.act step).1 ++ (w.perform step).history steps

/-! ## Small facts -/

@[simp] theorem run_nil (w : Clockwork) : w.run [] = w := rfl

@[simp] theorem run_cons (w : Clockwork) (step : Step) (steps : List Step) :
    w.run (step :: steps) = (w.perform step).run steps := rfl

theorem run_append (w : Clockwork) (before after : List Step) :
    w.run (before ++ after) = (w.run before).run after := List.foldl_append ..

theorem history_append (w : Clockwork) (before after : List Step) :
    w.history (before ++ after) = w.history before ++ (w.run before).history after := by
  induction before generalizing w with
  | nil => rfl
  | cons step before ih => simp [history, ih]

section

variable (w : Clockwork) (t t' : Timer) (c : Caller) (s s' : Stage)

@[simp] theorem goTo_timer : (w.goTo t c s).timer = t := rfl

@[simp] theorem goTo_self : (w.goTo t c s).stage c = s := if_pos rfl

theorem goTo_ne {c' : Caller} (h : c' ≠ c) : (w.goTo t c s).stage c' = w.stage c' := if_neg h

@[simp] theorem goTo_goTo : (w.goTo t c s).goTo t' c s' = w.goTo t' c s' := by
  simp only [goTo, mk.injEq, true_and]
  funext c'
  split <;> rfl

end

/-- Whoever is idle may be said to be idle. -/
theorem goTo_idle {w : Clockwork} {c : Caller} (h : w.stage c = .idle) (t : Timer) :
    w.goTo t c .idle = { w with timer := t } := by
  simp only [goTo, mk.injEq, true_and]
  funext c'
  by_cases hc : c' = c
  · rw [if_pos hc, hc, h]
  · rw [if_neg hc]

/-! ## Calls that nobody interrupts -/

/-- The answer of a call, and whose call it was. -/
def Event.answer? : Event → Option (Caller × Except Failure Bool)
  | .answered caller answer => some (caller, answer)
  | _ => none

/-- The steps in which a caller enables the timer. -/
def enabling (caller : Caller) (interval : Int) : List Step :=
  [.enable caller interval, .proceed caller, .proceed caller, .proceed caller]

/-- The steps in which a caller disables the timer. -/
def disabling (caller : Caller) : List Step :=
  [.disable caller, .proceed caller, .proceed caller]

variable {w : Clockwork} {c : Caller}

theorem idle_of_mayCall (h : w.mayCall c = true) : w.stage c = .idle := by
  simp only [mayCall, Bool.and_eq_true, decide_eq_true_eq] at h
  exact h.1

theorem goOn_idle (h : w.stage c = .idle) : w.goOn c = ([], w) := by simp [goOn, h]

/-- **To enable the timer alone** is to do what `Timer.enable` says. -/
theorem run_enabling (h : w.mayCall c = true) (interval : Int) :
    w.run (enabling c interval) = { w with timer := (w.timer.enable interval).2 } ∧
      (w.history (enabling c interval)).filterMap Event.answer?
        = [(c, (w.timer.enable interval).1)] := by
  have hidle := idle_of_mayCall h
  by_cases hi : interval ≤ 0
  · simp [enabling, history, perform, act, h, startEnable, hi, goOn_idle hidle, Timer.enable,
      Event.answer?]
  by_cases he : w.timer.isEnabled = true
  · simp [enabling, history, perform, act, h, startEnable, hi, he, goOn_idle hidle, Timer.enable,
      Event.answer?]
  have hnone : w.timer.active = none := by simpa [Timer.isEnabled] using he
  simp [enabling, history, perform, act, h, startEnable, hi, he, goOn, Timer.enable, Timer.create,
    Timer.offer, hnone, goTo_idle hidle, Timer.noteEnabled, List.filterMap_cons, Event.answer?]

/-- **To disable the timer alone** is to do what `Timer.disable` says, if the ticker in the slot is
in no tick or it is its callback that calls. -/
theorem run_disabling (h : w.mayCall c = true)
    (hleave : ∀ ticker, w.timer.active = some ticker → w.mayLeave c ticker = true) :
    w.run (disabling c) = { w with timer := w.timer.disable.2 } ∧
      (w.history (disabling c)).filterMap Event.answer? = [(c, .ok w.timer.disable.1)] := by
  have hidle := idle_of_mayCall h
  cases hactive : w.timer.active with
  | none =>
      simp [disabling, history, perform, act, h, startDisable, Timer.take, hactive, goOn, hidle,
        Timer.disable, Event.answer?]
  | some ticker =>
      have hmay : ∀ stage, (w.goTo ({ w.timer with active := none }.cancel ticker) c stage).mayLeave
          c ticker = true := by
        intro stage
        rw [mayLeave, goTo_timer, Timer.isTicking_cancel]
        exact hleave ticker hactive
      simp [disabling, history, perform, act, h, startDisable, Timer.take, hactive, goOn, cancelBy,
        hmay, goTo_idle hidle, Timer.disable, Timer.noteDisabled, List.filterMap_cons,
        Event.answer?]

/-- The steps in which a ticker ticks some times, and is disabled from inside the last of these
ticks, where each of the others fails if a failure is given. -/
def ticking (ticker : Nat) (failure : Option Failure) : Nat → List Step
  | 0 => []
  | 1 => .beginTick ticker :: disabling (.inside ticker) ++ [.endTick ticker none]
  | n + 2 => .beginTick ticker :: .endTick ticker failure :: ticking ticker failure (n + 1)

/-- **To tick alone and disable the timer from inside** is to do what `Timer.tickThenDisable`
says. -/
theorem run_ticking {ticker : Nat} (hactive : w.timer.active = some ticker)
    (hmay : w.timer.mayTick ticker = true) (hidle : w.stage (.inside ticker) = .idle)
    (failure : Option Failure) (n : Nat) :
    w.run (ticking ticker failure n)
      = { w with timer := w.timer.tickThenDisable failure n } := by
  induction n generalizing w with
  | zero => rfl
  | succ n ih =>
      have hbegin : w.perform (.beginTick ticker)
          = { w with timer := w.timer.beginTick ticker } := by
        simp [perform, act, hmay]
      have hticking := Timer.isTicking_beginTick hmay
      cases n with
      | zero =>
          have hdisable := (run_disabling (w := { w with timer := w.timer.beginTick ticker })
            (c := .inside ticker) (by simp [mayCall, hidle, hticking])
            (by simp [mayLeave, hactive])).1
          rw [ticking, List.cons_append, run_cons, hbegin, run_append, hdisable]
          simp [perform, act, hidle, hticking, Timer.tickThenDisable, hactive]
      | succ n =>
          have hend : ({ w with timer := w.timer.beginTick ticker } : Clockwork).perform
              (.endTick ticker failure) = { w with
                timer := (w.timer.beginTick ticker).endTick ticker failure } := by
            simp [perform, act, hidle, hticking]
          rw [ticking, run_cons, hbegin, run_cons, hend, ih]
          · simp [Timer.tickThenDisable, hactive]
          · simp [hactive]
          · exact Timer.mayTick_endTick_beginTick hmay failure
          · exact hidle

end Clockwork

end FleetScaler
