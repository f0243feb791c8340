import FleetScaler.Membership.Coordination

/-!
# Electors

An elector stands for one node in an election. It joins a group, listens to it, publishes the
node's state and starts; from then on it is the master while the group says so and its session is
up, as far as the events have told.

The group may belong to any coordination service: `GroupAccess` lists what an elector needs of one,
over a state that the service keeps.
-/

namespace FleetScaler

/-- The source that an elector names in its log records. -/
def electorSource : String := "leader"

/-- A coordination service as an elector uses it: groups of type `γ`, over a state `σ`. -/
structure GroupAccess (σ γ : Type) where
  /-- Joins a group under a path as a node of some type. -/
  join : String → String → σ → Except Failure γ × σ
  /-- Makes the elector hear the events of the group. -/
  listen : γ → σ → Except Failure Unit × σ
  /-- Publishes the state of the node. -/
  update : γ → MemberState → σ → Except Failure Unit × σ
  start : γ → σ → Except Failure Unit × σ
  /-- Makes the elector hear the events of the group no longer. -/
  unlisten : γ → σ → σ
  close : γ → σ → σ
  isMaster : γ → σ → Bool
  memberId : γ → σ → String

/-- Whom an elector stands for. -/
structure ElectorConfig where
  groupPath : String := "/autoscale/controllers"
  nodeType : String := "autoscaler"
  nodeId : String := ""
  deriving DecidableEq, Repr, Inhabited

/-- An elector, with groups of type `γ`. -/
structure Elector (γ : Type) where
  config : ElectorConfig := {}
  /-- The group that the elector has joined. -/
  group : Option γ := none
  /-- The session is up, as far as the events have told. -/
  connected : Bool := false
  journal : Log.Journal := []
  deriving Repr

namespace Elector

variable {σ γ : Type}

/-- The elector has a group. -/
def isActive (e : Elector γ) : Bool := e.group.isSome

/-- The elector's node is the master. -/
def isMaster (e : Elector γ) (access : GroupAccess σ γ) (s : σ) : Bool :=
  e.connected && (e.group.map fun g => access.isMaster g s).getD false

/-- The id of the elector's member; empty if it has no group. -/
def memberId (e : Elector γ) (access : GroupAccess σ γ) (s : σ) : String :=
  (e.group.map fun g => access.memberId g s).getD ""

/-- The state that the elector publishes. -/
def state (e : Elector γ) : MemberState :=
  { nodeId := e.config.nodeId, nodeType := e.config.nodeType }

/-- Writes a log record. -/
def note (e : Elector γ) (level : Log.Level) (message : String) : Elector γ :=
  { e with journal := e.journal.add level electorSource message }

/-- Joins a group, listens to it, publishes the node's state and starts, in this order. The group
counts as joined once the state has been published. An active elector does nothing. -/
def activate (e : Elector γ) (service : Option (GroupAccess σ γ)) (s : σ) :
    Except Failure Unit × Elector γ × σ :=
  if e.isActive then (.ok (), e, s)
  else
    match service with
    | none => (.error (.noCoordination e.config.groupPath), e, s)
    | some access =>
      match access.join e.config.groupPath e.config.nodeType s with
      | (.error failure, s) => (.error failure, e, s)
      | (.ok g, s) =>
        match access.listen g s with
        | (.error failure, s) => (.error failure, e, s)
        | (.ok (), s) =>
          match access.update g e.state s with
          | (.error failure, s) => (.error failure, e, s)
          | (.ok (), s) =>
            let e := { e with group := some g }
            match access.start g s with
            | (.error failure, s) => (.error failure, e, s)
            | (.ok (), s) =>
              (.ok (), e.note .info
                ("joined " ++ e.config.groupPath ++ " as " ++ access.memberId g s), s)

/-- Leaves the group. -/
def deactivate (e : Elector γ) (access : GroupAccess σ γ) (s : σ) : Elector γ × σ :=
  match e.group with
  | none => ({ e with connected := false }, s)
  | some g =>
    let e := { e with group := none, connected := false }
    (e.note .info ("left " ++ e.config.groupPath), access.close g (access.unlisten g s))

/-- What an elector that ceases to exist leaves behind: its group is closed. -/
def abandon (e : Elector γ) (access : GroupAccess σ γ) (s : σ) : σ :=
  match e.group with
  | none => s
  | some g => access.close g s

/-- Publishes the node's state again, and says whether that was possible. A membership that went
away is no failure, since a later event of the group puts the matter right. -/
def republish (e : Elector γ) (access : GroupAccess σ γ) (s : σ) :
    Except Failure Bool × Elector γ × σ :=
  match e.group with
  | none => (.ok false, e.note .debug "not republishing state; no active group", s)
  | some g =>
    match access.update g e.state s with
    | (.ok (), s) => (.ok true, e, s)
    | (.error failure, s) =>
      if failure.isStale then
        (.ok false, e.note .debug ("ignoring stale group state: " ++ failure.message), s)
      else (.error failure, e, s)

/-- Hears an event of the group with the given member id, and says what the node's controller is to
hear. -/
def hear (e : Elector γ) (memberId : String) (event : GroupEvent) :
    MembershipEvent × Elector γ :=
  let forwarded := MembershipEvent.ofGroupEvent event
  let e := { e with connected := forwarded ≠ MembershipEvent.disconnected }
  (forwarded, e.note .debug (memberId ++ " received " ++ event.name))

end Elector

/-- A coordination service as the elector with the given handle uses it. -/
def Coordination.access {κ : Type} [DecidableEq κ] (listener : κ) :
    GroupAccess (Coordination κ) Nat where
  join path nodeType s := s.join path nodeType
  listen number s := (.ok (), s.listen number listener)
  update number state s := s.update number state
  start number s := s.start number
  unlisten number s := s.unlisten number listener
  close number s := s.close number
  isMaster number s := s.isMaster number
  memberId number s := s.idOf number

end FleetScaler
