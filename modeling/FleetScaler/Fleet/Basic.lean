import FleetScaler.Controller.Activation

/-!
# Fleets

A fleet is a set of controllers with the coordination services and the sites around them. Whatever
happens in it is one of the steps of this module and the next: a controller is told to do
something, a session is lost or comes back, requirements change, a timer ticks, the next event of a
member is delivered, or the notifier of a store takes a step.
-/

namespace FleetScaler

/-- Controllers and their surroundings. -/
structure Fleet extends Surroundings where
  controllers : Table Controller := {}
  deriving Repr

namespace Fleet

/-- The controller of the given number, which is its handle. -/
def controller (f : Fleet) (k : Nat) : Controller := { f.controllers.get k with handle := k }

/-- The controller of the given number acts on its surroundings. -/
def act {α : Type} (f : Fleet) (k : Nat)
    (g : Controller → Surroundings → α × Controller × Surroundings) : α × Fleet :=
  let (a, c, w) := g (f.controller k) f.toSurroundings
  (a, { w with controllers := f.controllers.set k c })

/-- The controller of the given number acts on its surroundings, and nothing comes of it for
whoever asked. -/
def move (f : Fleet) (k : Nat) (g : Controller → Surroundings → Controller × Surroundings) :
    Fleet :=
  let (c, w) := g (f.controller k) f.toSurroundings
  { w with controllers := f.controllers.set k c }

/-- Adds a controller with nothing bound to it, and gives its number. -/
def add (f : Fleet) (settings : Settings) : Nat × Fleet :=
  let k := f.controllers.size
  (k, { f with controllers := f.controllers.set k { settings } })

/-! ## What a controller can be told -/

/-- Binds a coordination service, or none. -/
def bindCoordination (f : Fleet) (k : Nat) (service : Option Nat) : Fleet :=
  f.move k fun c w => (c.bindCoordination service, w)

/-- Unbinds a coordination service, unless another one has been bound since. -/
def unbindCoordination (f : Fleet) (k : Nat) (service : Option Nat) : Fleet :=
  f.move k fun c w => (c.unbindCoordination service, w)

/-- Binds the cluster of a site, or none. -/
def bindCluster (f : Fleet) (k : Nat) (site : Option Nat) : Fleet :=
  f.move k fun c w => (c.bindCluster site, w)

/-- Unbinds the cluster of a site, unless another one has been bound since. -/
def unbindCluster (f : Fleet) (k : Nat) (site : Option Nat) : Fleet :=
  f.move k fun c w => c.unbindCluster site w

/-- Stands for election. -/
def activate (f : Fleet) (k : Nat) : Except Failure Unit × Fleet := f.act k Controller.activate

/-- Stands for election no longer. -/
def deactivate (f : Fleet) (k : Nat) : Fleet := f.move k Controller.deactivate

/-- Ceases to exist. -/
def drop (f : Fleet) (k : Nat) : Fleet := f.move k Controller.drop

/-- Runs a pass, whoever is the master. -/
def reconcile (f : Fleet) (k : Nat) : Report × Fleet := f.act k Controller.reconcile

/-- Hears of an event of the group, wherever it comes from. -/
def membershipEvent (f : Fleet) (k : Nat) (event : MembershipEvent) :
    Except Failure Unit × Fleet :=
  f.act k fun c w => c.membershipEvent event w

/-- Lets the timer tick once. -/
def tick (f : Fleet) (k : Nat) : Fleet := f.move k Controller.tick

/-- Calls a callback. That of a dropped controller does nothing. -/
def call (f : Fleet) (k : Nat) : Fleet :=
  if (f.controller k).dropped then f else f.move k Controller.configurationChanged

/-! ## What happens around the controllers -/

/-- A session is lost; false if it was lost before or nobody has the id. -/
def disconnect (f : Fleet) (service : Nat) (id : String) : Bool × Fleet :=
  let (done, s) := (f.services.get service).disconnect id
  (done, { f with services := f.services.set service s })

/-- A session comes back; false if it was up or nobody has the id. -/
def reconnect (f : Fleet) (service : Nat) (id : String) : Bool × Fleet :=
  let (done, s) := (f.services.get service).reconnect id
  (done, { f with services := f.services.set service s })

/-- Applies a change to a site. -/
def changeSite (f : Fleet) (site : Nat) (g : Site Nat → Site Nat) : Fleet :=
  { f with sites := f.sites.update site g }

/-- Puts a requirements document in force at a site. -/
def setRequirements (f : Fleet) (site : Nat) (document : Document) : Fleet :=
  f.changeSite site (Site.onStore fun store => store.set document)

/-! ## Log records -/

/-- The records of a controller and its parts, newest first. -/
def recordsOfController (c : Controller) : Log.Journal :=
  c.timer.journal ++ (c.candidacy.map fun seat => seat.elector.journal).getD [] ++ c.journal

/-- The records of a site and its parts, newest first. -/
def recordsOfSite (s : Site Nat) : Log.Journal := s.store.journal ++ s.cluster.journal

/-- The records that have been written and not yet collected, part by part. -/
def records (f : Fleet) : List Log.Record :=
  (f.services.entries.flatMap fun s => s.journal.records) ++
    (f.sites.entries.flatMap fun s => (recordsOfSite s).records) ++
    (f.controllers.entries.flatMap fun c => (recordsOfController c).records)

/-- A controller whose records have been collected. -/
def quietController (c : Controller) : Controller :=
  { c with
    journal := []
    timer := { c.timer with journal := [] }
    candidacy := c.candidacy.map fun seat =>
      { seat with elector := { seat.elector with journal := [] } } }

/-- A site whose records have been collected. -/
def quietSite (s : Site Nat) : Site Nat :=
  { s with
    store := { s.store with journal := [] }
    cluster := { s.cluster with journal := [] } }

/-- Collects the records, which are then in the fleet no longer. -/
def collect (f : Fleet) : List Log.Record × Fleet :=
  (f.records,
    { services := f.services.map fun s => { s with journal := [] }
      sites := f.sites.map quietSite
      controllers := f.controllers.map quietController })

end Fleet

end FleetScaler
