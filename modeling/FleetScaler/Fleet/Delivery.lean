import FleetScaler.Fleet.Basic

/-!
# Delivery

Events of members and changes of requirements are handled in steps of their own, which may lag
behind the things that caused them. `quiesce` takes these steps until none is left: handling an
event or a change causes no further one, so what waits at the beginning is all there is to do.
-/

namespace FleetScaler

namespace Fleet

/-- A listener hears an event of a member. When it fails, the service notes that. -/
def hearAt (service member : Nat) (event : GroupEvent) (f : Fleet) (listener : Nat) : Fleet :=
  let id := (f.services.get service).idOf member
  match f.act listener fun c w => c.hear id event w with
  | (.ok (), f) => f
  | (.error e, f) =>
    { f with services := f.services.update service fun s => s.listenerFailed member event e }

/-- Delivers the next event of a member of a service. -/
def deliver (f : Fleet) (service member : Nat) : Fleet :=
  match (f.services.get service).takeEvent member with
  | (none, _) => f
  | (some (event, listeners), s) =>
    listeners.foldl (hearAt service member event)
      { f with services := f.services.set service s }

/-- The notifier of a site's store takes its next step. -/
def notify (f : Fleet) (site : Nat) : Fleet :=
  let (called, store) := (f.sites.get site).store.notifierStep
  let f := f.changeSite site fun s => { s with store }
  match called with
  | none => f
  | some k => f.call k

/-- Delivers all events of a member of a service that wait at the moment. -/
def deliverMember (service : Nat) (f : Fleet) (member : Nat) : Fleet :=
  let waiting := ((f.services.get service).members[member]?.map fun m => m.queue.length).getD 0
  Nat.repeat (fun f => f.deliver service member) waiting f

/-- Delivers all events of a service that wait at the moment. -/
def deliverService (f : Fleet) (service : Nat) : Fleet :=
  (List.range (f.services.get service).members.length).foldl (deliverMember service) f

/-- The notifier of a site's store finishes what it has to do at the moment. -/
def notifySite (f : Fleet) (site : Nat) : Fleet :=
  Nat.repeat (fun f => f.notify site) (f.sites.get site).store.stepsToIdle f

/-- Handles all that waits. -/
def quiesce (f : Fleet) : Fleet :=
  let f := (List.range f.services.size).foldl deliverService f
  (List.range f.sites.size).foldl notifySite f

/-- Lets every enabled timer tick once. -/
def tickAll (f : Fleet) : Fleet := (List.range f.controllers.size).foldl tick f

/-- Lets the timers tick until a goal is reached, for at most the given number of rounds, and says
whether it was reached. -/
def tickUntil (goal : Fleet → Bool) : Nat → Fleet → Bool × Fleet
  | 0, f => (goal f, f)
  | rounds + 1, f => if goal f then (true, f) else tickUntil goal rounds f.tickAll.quiesce

end Fleet

end FleetScaler
