import FleetScaler.Failure
import FleetScaler.Log.Entry

/-!
# The timer

A timer ticks at most from one ticker at a time. The active ticker sits in a slot that is read,
exchanged, and compared and exchanged in single steps; a caller who enables the timer makes a
ticker first and cancels it again when another caller was faster. A cancelled ticker begins no
further tick and stops as soon as it is in none, and whoever cancels it from outside waits for the
tick that is under way.

`enable` and `disable` are the sequences of these steps for a caller whom nobody interrupts.
-/

namespace FleetScaler

/-- The source that a timer names in its log records. -/
def timerSource : String := "scheduler"

/-- A ticker, alive from its creation until it is cancelled. -/
structure Ticker where
  cancelled : Bool := false
  /-- A tick is under way. -/
  ticking : Bool := false
  deriving DecidableEq, Repr

/-- A timer with every ticker it ever made. -/
structure Timer where
  name : String := "autoscale-timer"
  /-- All tickers, by the number of their creation. -/
  tickers : List Ticker := []
  /-- The number of the ticker in the slot. -/
  active : Option Nat := none
  /-- The ticks that have begun so far. -/
  ticks : Nat := 0
  journal : Log.Journal := []
  deriving Repr

namespace Timer

/-- The slot holds a ticker. -/
def isEnabled (t : Timer) : Bool := t.active.isSome

/-- The journal of a timer with one more record about it. -/
def said (t : Timer) (level : Log.Level) (message : String) : Log.Journal :=
  t.journal.add level timerSource (t.name ++ message)

/-! ## Single steps -/

/-- Makes a ticker that is to tick every `interval` milliseconds, and gives its number. -/
def create (t : Timer) (interval : Int) : Nat × Timer :=
  (t.tickers.length,
    { t with
      tickers := t.tickers ++ [{}]
      journal := t.said .debug (" started with interval " ++ toString interval ++ "ms") })

/-- Puts a ticker into the slot if the slot is empty, and says whether it was. -/
def offer (t : Timer) (ticker : Nat) : Bool × Timer :=
  match t.active with
  | none => (true, { t with active := some ticker })
  | some _ => (false, t)

/-- Takes the ticker out of the slot. -/
def take (t : Timer) : Option Nat × Timer := (t.active, { t with active := none })

/-- A ticker may begin a tick: it is not cancelled and in no tick. -/
def mayTick (t : Timer) (ticker : Nat) : Bool :=
  match t.tickers[ticker]? with
  | some k => !k.cancelled && !k.ticking
  | none => false

/-- A ticker is in a tick. -/
def isTicking (t : Timer) (ticker : Nat) : Bool :=
  ((t.tickers[ticker]?).map (·.ticking)).getD false

/-- A ticker has been cancelled. -/
def isCancelled (t : Timer) (ticker : Nat) : Bool :=
  ((t.tickers[ticker]?).map (·.cancelled)).getD false

/-- Cancels a ticker. It stops at once unless it is in a tick. -/
def cancel (t : Timer) (ticker : Nat) : Timer :=
  { t with
    tickers := t.tickers.modify ticker fun k => { k with cancelled := true }
    journal := if t.isTicking ticker then t.journal else t.said .debug " stopped" }

/-- A ticker begins a tick, if it may. -/
def beginTick (t : Timer) (ticker : Nat) : Timer :=
  if t.mayTick ticker then
    { t with
      ticks := t.ticks + 1
      tickers := t.tickers.modify ticker fun k => { k with ticking := true }
      journal := t.said .debug " tick" }
  else t

/-- Notes that a tick failed, which stops no later one. -/
def tickFailed (t : Timer) (e : Failure) : Timer :=
  { t with journal := t.said .error (" tick failed: " ++ e.message) }

/-- A ticker ends its tick, in which the callback may have failed. It stops if it has been cancelled
meanwhile. -/
def endTick (t : Timer) (ticker : Nat) (failure : Option Failure := none) : Timer :=
  let t := (failure.map t.tickFailed).getD t
  { t with
    tickers := t.tickers.modify ticker fun k => { k with ticking := false }
    journal := if t.isCancelled ticker then t.said .debug " stopped" else t.journal }

/-! ## Whole operations -/

/-- Starts ticking every `interval` milliseconds; false if the timer ticks already. -/
def enable (t : Timer) (interval : Int) : Except Failure Bool × Timer :=
  if interval ≤ 0 then (.error .nonPositiveInterval, t)
  else if t.isEnabled then (.ok false, t)
  else
    let (ticker, t) := t.create interval
    let (installed, t) := t.offer ticker
    if installed then
      (.ok true,
        { t with journal := t.said .info (" enabled every " ++ toString interval ++ "ms") })
    else (.ok false, t.cancel ticker)

/-- Stops ticking; false if the timer does not tick. -/
def disable (t : Timer) : Bool × Timer :=
  let (taken, t) := t.take
  match taken with
  | none => (false, t)
  | some ticker =>
    let t := t.cancel ticker
    (true, { t with journal := t.said .info " disabled" })

/-- Lets the active ticker tick the given number of times. In the last of these ticks the timer is
disabled from inside; each of the others fails, if a failure is given. -/
def tickThenDisable (failure : Option Failure) : Nat → Timer → Timer
  | 0, t => t
  | n + 1, t =>
    match t.active with
    | none => t
    | some ticker =>
      let t := t.beginTick ticker
      if n = 0 then t.disable.2.endTick ticker
      else tickThenDisable failure n (t.endTick ticker failure)

end Timer

end FleetScaler
