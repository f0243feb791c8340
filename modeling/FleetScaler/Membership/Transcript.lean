import FleetScaler.Membership.Coordination

/-!
# Transcripts

A transcript is a coordination service together with everything that its listeners have heard. A
listener may close the member on hearing an event, and it may fail; neither keeps the other
listeners of the member from hearing that event, but a member that is closed hears no later one.
-/

namespace FleetScaler

/-- What a listener does on hearing an event. -/
structure Reaction where
  /-- The listener closes the member. -/
  closes : Bool := false
  /-- The listener fails in the end. -/
  failure : Option Failure := none
  deriving DecidableEq, Repr

/-- A listener has heard an event of a member. -/
structure Hearing (κ : Type) where
  /-- The number of the member. -/
  member : Nat
  listener : κ
  event : GroupEvent
  /-- The member was the master at that moment. -/
  isMaster : Bool
  deriving DecidableEq, Repr

/-- A coordination service with what has been heard, newest first. -/
structure Transcript (κ : Type) where
  service : Coordination κ := {}
  heard : List (Hearing κ) := []
  deriving Repr

namespace Transcript

variable {κ : Type}

/-- A listener hears an event of a member and reacts. -/
def hear (react : κ → GroupEvent → Reaction) (member : Nat) (event : GroupEvent)
    (t : Transcript κ) (listener : κ) : Transcript κ :=
  let hearing : Hearing κ := { member, listener, event, isMaster := t.service.isMaster member }
  let reaction := react listener event
  let service := if reaction.closes then t.service.close member else t.service
  let service := match reaction.failure with
    | none => service
    | some e => service.listenerFailed member event e
  { service, heard := hearing :: t.heard }

/-- The listeners of a member hear its next event. -/
def deliver (react : κ → GroupEvent → Reaction) (t : Transcript κ) (member : Nat) :
    Transcript κ :=
  match t.service.takeEvent member with
  | (none, _) => t
  | (some (event, listeners), service) =>
    listeners.foldl (hear react member event) { t with service }

/-- Delivers the given number of events, those of the members who joined first before all others. -/
def deliverMany (react : κ → GroupEvent → Reaction) : Nat → Transcript κ → Transcript κ
  | 0, t => t
  | n + 1, t =>
    match t.service.members.findIdx? fun m => !m.queue.isEmpty with
    | none => t
    | some member => deliverMany react n (t.deliver react member)

/-- Delivers all events. Each member can be closed once, and then every other one has one more
event. -/
def deliverAll (react : κ → GroupEvent → Reaction) (t : Transcript κ) : Transcript κ :=
  let n := t.service.members.length
  deliverMany react (t.service.backlog + n * n) t

end Transcript

end FleetScaler
