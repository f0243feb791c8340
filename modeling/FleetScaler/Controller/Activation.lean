import FleetScaler.Controller.Mastership

/-!
# Coming and going of a controller

A controller that is activated stands for election at the coordination service that is bound then,
and keeps to that service until it is deactivated. A controller that is dropped leaves its group
and stops its timer, but a site that tracks its callback goes on doing so, in vain.
-/

namespace FleetScaler

namespace Controller

/-- Whom the controller's elector stands for. -/
def electorConfig (c : Controller) : ElectorConfig where
  groupPath := c.settings.groupPath
  nodeType := c.settings.nodeType
  nodeId := c.settings.nodeId

/-- Keeps the log records of an elector that ceases to exist. -/
def inherit (c : Controller) (journal : Log.Journal) : Controller :=
  { c with journal := journal ++ c.journal }

/-- Stands for election. A controller that does already does nothing; one that cannot stays as it
was, but for its callback. -/
def activate (c : Controller) (w : Surroundings) :
    Except Failure Unit × Controller × Surroundings :=
  if c.isActive then (.ok (), c, w)
  else
    let c := { c with callable := true }
    match c.coordination.get with
    | .error e => (.error e, c, w)
    | .ok service =>
      let access := Coordination.access c.handle
      let elector : Elector Nat := { config := c.electorConfig }
      match elector.activate (some access) (w.services.get service) with
      | (.error e, elector, s) =>
        (.error e, c.inherit elector.journal,
          { w with services := w.services.set service (elector.abandon access s) })
      | (.ok (), elector, s) =>
        let c := { c with candidacy := some { service, elector } }
        let c := c.note .info ("activated " ++ elector.memberId access s ++
          " with poll interval " ++ toString c.settings.pollIntervalMs.toNat ++ "ms")
        (.ok (), c, { w with services := w.services.set service s })

/-- Gives up the election. -/
def leave (c : Controller) (w : Surroundings) : Controller × Surroundings :=
  match c.candidacy with
  | none => (c, w)
  | some seat =>
    let (elector, s) := seat.elector.deactivate (Coordination.access c.handle)
      (w.services.get seat.service)
    ({ c with candidacy := none }.inherit elector.journal,
      { w with services := w.services.set seat.service s })

/-- Stops the timer. -/
def stopTimer (c : Controller) : Controller := { c with timer := c.timer.disable.2 }

/-- Stands for election no longer. -/
def deactivate (c : Controller) (w : Surroundings) : Controller × Surroundings :=
  let wasActive := c.isActive
  let (c, w) := c.leave w
  let c := { c.stopTimer with state := .unknown }
  let w := match c.cluster.value with
    | none => w
    | some i => w.onSite i (Site.untrack c.callback)
  (if wasActive then c.note .info "deactivated" else c, w)

/-- Ceases to exist. -/
def drop (c : Controller) (w : Surroundings) : Controller × Surroundings :=
  { c.stopTimer with dropped := true }.leave w

end Controller

end FleetScaler
