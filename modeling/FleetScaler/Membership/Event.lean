/-!
# Events

What a coordination service tells a member about its group, and what an elector makes of it for the
controller behind it. A service may send an event that this library does not know; it counts as a
lost session.
-/

namespace FleetScaler

/-- An event of a group, as a member of the group gets it. -/
inductive GroupEvent where
  /-- The member's session is up. -/
  | connected
  /-- Another member came or went. -/
  | changed
  /-- The member's session is lost. -/
  | disconnected
  | unknown
  deriving DecidableEq, Repr, Inhabited

namespace GroupEvent

/-- The name of an event in log records. -/
def name : GroupEvent → String
  | connected => "CONNECTED"
  | changed => "CHANGED"
  | disconnected => "DISCONNECTED"
  | unknown => "UNKNOWN"

/-- The event with the given number. -/
def ofCode (code : Int) : GroupEvent :=
  if code = 0 then connected
  else if code = 1 then changed
  else if code = 2 then disconnected
  else unknown

end GroupEvent

/-- An event of an election, as a controller gets it. -/
inductive MembershipEvent where
  /-- The controller's member is in the group. -/
  | joined
  /-- The group has changed. -/
  | changed
  /-- The controller's session is lost. -/
  | disconnected
  | unknown
  deriving DecidableEq, Repr, Inhabited

namespace MembershipEvent

/-- The name of an event in log records. -/
def name : MembershipEvent → String
  | joined => "JOINED"
  | changed => "CHANGED"
  | disconnected => "DISCONNECTED"
  | unknown => "UNKNOWN"

/-- The event with the given number. -/
def ofCode (code : Int) : MembershipEvent :=
  if code = 0 then joined
  else if code = 1 then changed
  else if code = 2 then disconnected
  else unknown

/-- What a controller hears of an event of its group. -/
def ofGroupEvent : GroupEvent → MembershipEvent
  | .connected => joined
  | .changed => changed
  | .disconnected => disconnected
  | .unknown => disconnected

end MembershipEvent

/-- What a member publishes about itself. -/
structure MemberState where
  nodeId : String := ""
  nodeType : String := ""
  deriving DecidableEq, Repr, Inhabited

end FleetScaler
