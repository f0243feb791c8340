import FleetScaler.Controller.Basic

/-!
# How a controller plays its part

The events of its group tell a controller which part it plays. A master has its callback tracked
and its timer enabled, and runs a pass at once; a standby has neither; one that lost its session
has no callback tracked, while its timer goes on. An event that finds a capability unbound, or no
elector, changes nothing.

Passes that the timer or a change of the requirements calls for are run only by the master of the
moment, whatever part the events have told.
-/

namespace FleetScaler

namespace Candidacy

/-- Publishes the state of the elector's node again. -/
def republish (seat : Candidacy) (handle : Nat) (w : Surroundings) :
    Except Failure Bool × Candidacy × Surroundings :=
  let (answer, elector, service) :=
    seat.elector.republish (Coordination.access handle) (w.services.get seat.service)
  (answer, { seat with elector }, { w with services := w.services.set seat.service service })

end Candidacy

namespace Controller

/-! ## Taking a part -/

/-- Becomes the master over the site of the given number. -/
def becomeMaster (c : Controller) (site : Nat) (w : Surroundings) :
    Except Failure Unit × Controller × Surroundings :=
  let w := w.onSite site (Site.track c.callback)
  match c.timer.enable c.settings.pollIntervalMs.toNat with
  | (.error e, timer) => (.error e, { c with timer }, w)
  | (.ok _, timer) =>
    let (_, c, w) := { c with timer, state := .master }.reconcile w
    (.ok (), c, w)

/-- Becomes a standby at the site of the given number. -/
def becomeStandby (c : Controller) (site : Nat) (w : Surroundings) : Controller × Surroundings :=
  ({ c with timer := c.timer.disable.2, state := .standby },
    w.onSite site (Site.untrack c.callback))

/-- Steps back because the session is lost. -/
def stepBack (c : Controller) (w : Surroundings) : Controller × Surroundings :=
  let w := match c.cluster.value with
    | none => w
    | some i => w.onSite i (Site.untrack c.callback)
  ({ c with state := .disconnected }.note .warn "lost membership; no longer acting as master", w)

/-- Takes the part that the group assigns at this moment. -/
def takePart (c : Controller) (seat : Candidacy) (site : Nat) (w : Surroundings) :
    Except Failure Unit × Controller × Surroundings :=
  let isMaster := c.isMaster w
  let c := c.note .info
    ("AutoScaleController is " ++ (if isMaster then "" else "not ") ++ "the master")
  let (published, seat, w) := seat.republish c.handle w
  let c := { c with candidacy := some seat }
  match published with
  | .error e => (.error e, c, w)
  | .ok published =>
    let c := if published then c
      else c.note .debug "membership state not republished; awaiting next event"
    if isMaster then c.becomeMaster site w
    else
      let (c, w) := c.becomeStandby site w
      (.ok (), c, w)

/-! ## What comes from outside -/

/-- An event of the group reaches the controller. -/
def membershipEvent (c : Controller) (event : MembershipEvent) (w : Surroundings) :
    Except Failure Unit × Controller × Surroundings :=
  if event = .disconnected then
    let (c, w) := c.stepBack w
    (.ok (), c, w)
  else
    match c.candidacy, c.coordination.value, c.cluster.value with
    | some seat, some _, some site => c.takePart seat site w
    | _, _, _ =>
      let missing := if c.isActive then c.missingBindings else "leader elector"
      let c := c.note .info ("ignoring " ++ event.name ++ " with master: " ++
        (if c.isMaster w then "1" else "0") ++ "; missing: " ++ missing)
      (.ok (), c, w)

/-- The requirements of a site have changed. -/
def configurationChanged (c : Controller) (w : Surroundings) : Controller × Surroundings :=
  if c.isMaster w then
    let (_, c, w) := (c.note .debug
      "configuration has changed; checking the auto-scaling requirements").reconcile w
    (c, w)
  else (c.note .debug "configuration changed while not master; ignoring", w)

/-- The timer fires. -/
def timerFired (c : Controller) (w : Surroundings) : Controller × Surroundings :=
  if c.isMaster w then
    let (_, c, w) := (c.note .debug "autoscale timer").reconcile w
    (c, w)
  else ((c.note .debug "autoscale timer fired while not master; skipping").skip, w)

/-- One tick of the timer, if the timer may tick. -/
def tick (c : Controller) (w : Surroundings) : Controller × Surroundings :=
  match c.timer.active with
  | none => (c, w)
  | some ticker =>
    if c.timer.mayTick ticker then
      let (c, w) := { c with timer := c.timer.beginTick ticker }.timerFired w
      ({ c with timer := c.timer.endTick ticker }, w)
    else (c, w)

/-- An event of the group reaches the controller's elector, which passes it on. A controller that
stands for no election hears nothing. -/
def hear (c : Controller) (memberId : String) (event : GroupEvent) (w : Surroundings) :
    Except Failure Unit × Controller × Surroundings :=
  match c.candidacy with
  | none => (.ok (), c, w)
  | some seat =>
    let (forwarded, elector) := seat.elector.hear memberId event
    { c with candidacy := some { seat with elector } }.membershipEvent forwarded w

end Controller

end FleetScaler
