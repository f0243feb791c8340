import FleetScaler.Cluster.Site
import FleetScaler.Membership.Elector
import FleetScaler.Settings.Basic
import FleetScaler.Slot
import FleetScaler.Table
import FleetScaler.Timer

/-!
# Controllers

A controller keeps the clusters of its site at their requirements while it is the master of its
group. It works with whatever coordination service and cluster are bound to it at the moment, out
of the numbered ones around it. Services and sites know the controller by its handle.

This module holds what a controller is, what can be seen of it, and the pass that it runs.
-/

namespace FleetScaler

/-- The source that a controller names in its log records. -/
def controllerSource : String := "controller"

/-- The part that a controller plays. -/
inductive ControllerState where
  /-- No event has told the controller its part. -/
  | unknown
  | master
  | standby
  /-- The session is lost. -/
  | disconnected
  deriving DecidableEq, Repr, Inhabited

namespace ControllerState

/-- The name of a part in a status report. -/
def name : ControllerState → String
  | unknown => "UNKNOWN"
  | master => "MASTER"
  | standby => "STANDBY"
  | disconnected => "DISCONNECTED"

/-- The part with the given number. -/
def ofCode (code : Int) : ControllerState :=
  if code = 1 then master
  else if code = 2 then standby
  else if code = 3 then disconnected
  else unknown

end ControllerState

/-- What controllers work with: coordination services and sites. -/
structure Surroundings where
  services : Table (Coordination Nat) := {}
  sites : Table (Site Nat) := {}
  deriving Repr

namespace Surroundings

/-- Applies a change to a service. -/
def onService (w : Surroundings) (i : Nat) (f : Coordination Nat → Coordination Nat) :
    Surroundings :=
  { w with services := w.services.update i f }

/-- Applies a change to a site. -/
def onSite (w : Surroundings) (i : Nat) (f : Site Nat → Site Nat) : Surroundings :=
  { w with sites := w.sites.update i f }

end Surroundings

/-- An elector with the number of the service at which it stands for election. -/
structure Candidacy where
  service : Nat
  elector : Elector Nat
  deriving Repr

/-- What a controller has done so far. -/
structure Tally where
  passes : Nat := 0
  /-- Passes that did not take place. -/
  skipped : Nat := 0
  scaleUps : Nat := 0
  scaleDowns : Nat := 0
  /-- Profiles on which a pass failed. -/
  failures : Nat := 0
  deriving DecidableEq, Repr, Inhabited

/-- A controller. -/
structure Controller where
  /-- The handle by which services and sites know the controller. -/
  handle : Nat := 0
  settings : Settings := {}
  /-- The number of the coordination service that is bound. -/
  coordination : Slot Nat := { name := "coordination service" }
  /-- The number of the site whose cluster is bound. -/
  cluster : Slot Nat := { name := "cluster service" }
  candidacy : Option Candidacy := none
  state : ControllerState := .unknown
  timer : Timer := {}
  /-- The controller has a callback that a site can track. -/
  callable : Bool := false
  tally : Tally := {}
  lastReport : Report := {}
  /-- The controller no longer exists, and its callback does nothing. -/
  dropped : Bool := false
  journal : Log.Journal := []
  deriving Repr

instance : Inhabited Controller := ⟨{}⟩

namespace Controller

/-! ## What can be seen -/

/-- The controller stands for election. -/
def isActive (c : Controller) : Bool := c.candidacy.isSome

/-- The controller is the master of its group. -/
def isMaster (c : Controller) (w : Surroundings) : Bool :=
  match c.candidacy with
  | none => false
  | some seat => seat.elector.isMaster (Coordination.access c.handle) (w.services.get seat.service)

/-- The id of the controller's member; empty if it stands for no election. -/
def memberId (c : Controller) (w : Surroundings) : String :=
  match c.candidacy with
  | none => ""
  | some seat => seat.elector.memberId (Coordination.access c.handle) (w.services.get seat.service)

/-- Both capabilities are bound. -/
def isValid (c : Controller) : Bool := c.coordination.isBound && c.cluster.isBound

/-- The names of the capabilities that are not bound. -/
def missingBindings (c : Controller) : String :=
  String.intercalate ", "
    ((if c.coordination.isBound then [] else [c.coordination.name]) ++
      (if c.cluster.isBound then [] else [c.cluster.name]))

/-- The callback that a site can track, if the controller has made one. -/
def callback (c : Controller) : Option Nat := if c.callable then some c.handle else none

/-! ## Bindings -/

/-- Binds a coordination service, or none. -/
def bindCoordination (c : Controller) (service : Option Nat) : Controller :=
  { c with coordination := c.coordination.bind service }

/-- Unbinds a coordination service, unless another one has been bound since. -/
def unbindCoordination (c : Controller) (service : Option Nat) : Controller :=
  { c with coordination := c.coordination.unbind service }

/-- Binds the cluster of a site, or none. -/
def bindCluster (c : Controller) (site : Option Nat) : Controller :=
  { c with cluster := c.cluster.bind site }

/-- Unbinds the cluster of a site, unless another one has been bound since. In any case the site
no longer calls the controller. -/
def unbindCluster (c : Controller) (site : Option Nat) (w : Surroundings) :
    Controller × Surroundings :=
  ({ c with cluster := c.cluster.unbind site },
    match site with
    | none => w
    | some i => w.onSite i (Site.untrack c.callback))

/-! ## Passes -/

/-- Writes a log record. -/
def note (c : Controller) (level : Log.Level) (message : String) : Controller :=
  { c with journal := c.journal.add level controllerSource message }

/-- Counts a pass that does not take place. -/
def skip (c : Controller) : Controller :=
  { c with tally := { c.tally with skipped := c.tally.skipped + 1 } }

/-- Counts a pass with its report. -/
def count (c : Controller) (report : Report) : Controller :=
  { c with
    tally := { c.tally with
      passes := c.tally.passes + 1
      scaleUps := c.tally.scaleUps + report.count .scaledUp
      scaleDowns := c.tally.scaleDowns + report.count .scaledDown
      failures := c.tally.failures + report.count .failed }
    lastReport := report }

/-- Runs a pass over the site that is bound, whoever is the master. -/
def reconcile (c : Controller) (w : Surroundings) : Report × Controller × Surroundings :=
  match c.coordination.value, c.cluster.value with
  | some _, some i =>
    match (w.sites.get i).requirements with
    | .error e => ({}, (c.note .error ("cannot read requirements: " ++ e.message)).skip, w)
    | .ok document =>
      let (report, site) := (w.sites.get i).pass document
      (report, c.count report, { w with sites := w.sites.set i site })
  | _, _ =>
    ({}, (c.note .warn ("skipping reconciliation pass; missing " ++ c.missingBindings)).skip, w)

end Controller

end FleetScaler
