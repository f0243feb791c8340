import FleetScaler.Failure
import FleetScaler.Log.Entry
import FleetScaler.Membership.Event

/-!
# The coordination service

Members join a group under a path, start, lose and regain their session, and close. The members of
a path that are started and whose session is up stand in a line: a member gets its place when it
starts, and a new one at the end when its session comes back. The first in line is the master.

Each member has a queue of events, and taking the next event of a member is a step of its own. A
start queues `connected` for the member itself, a lost or regained session queues its event for the
member if it has started, and each of these and a close queue `changed` for every other member in
line on the same path. The listeners of a member hear its events in the order of the queue;
listeners are handles of some type `κ`.

Members are numbered by the order in which they joined, on whatever path. Nobody is forgotten: a
closed member keeps its number, but has no place and no queue.
-/

namespace FleetScaler

/-- The source that the coordination service names in its log records. -/
def coordinationSource : String := "coordination"

/-- A member of a group. -/
structure Member (κ : Type) where
  id : String
  path : String
  started : Bool := false
  /-- The member's session is up. -/
  connected : Bool := true
  closed : Bool := false
  /-- The member's place in line, if it is in line. -/
  sequence : Nat := 0
  /-- What the member published last. -/
  state : MemberState := {}
  /-- Who hears the member's events, once for each registration. -/
  listeners : List κ := []
  /-- The events that are still to be heard, oldest first. -/
  queue : List GroupEvent := []
  deriving Repr

namespace Member

variable {κ : Type}

/-- The member stands in the line of its path. -/
def inLine (m : Member κ) : Bool := m.started && m.connected && !m.closed

/-- Queues an event, if the member can hear one. -/
def enqueue (event : GroupEvent) (m : Member κ) : Member κ :=
  if m.started && !m.closed then { m with queue := m.queue ++ [event] } else m

/-- Queues `changed` for a member in line on a path, other than the one of the given id. -/
def hearChange (path except : String) (m : Member κ) : Member κ :=
  if m.path = path ∧ m.id ≠ except ∧ m.inLine then m.enqueue .changed else m

end Member

/-- The first of the members by their places in line. -/
def firstInLine {κ : Type} : List (Member κ) → Option (Member κ)
  | [] => none
  | m :: rest =>
    match firstInLine rest with
    | none => some m
    | some best => if best.sequence < m.sequence then some best else some m

/-- A coordination service, with listeners of type `κ`. -/
structure Coordination (κ : Type) where
  /-- Everyone who ever joined, in that order. -/
  members : List (Member κ) := []
  /-- The place that the next member in line gets. -/
  nextSequence : Nat := 0
  journal : Log.Journal := []
  deriving Repr

instance {κ : Type} : Inhabited (Coordination κ) := ⟨{}⟩

namespace Coordination

variable {κ : Type}

/-! ## What can be seen -/

/-- The members in line on a path, in the order in which they joined. -/
def line (s : Coordination κ) (path : String) : List (Member κ) :=
  s.members.filter fun m => m.path = path && m.inLine

/-- The id of the master of a path; empty if there is none. -/
def masterOf (s : Coordination κ) (path : String) : String :=
  ((firstInLine (s.line path)).map (·.id)).getD ""

/-- The ids of the started members of a path, in alphabetical order. -/
def membersOf (s : Coordination κ) (path : String) : List String :=
  ((s.members.filter fun m => m.path = path && m.started && !m.closed).map (·.id)).mergeSort
    (fun a b => decide (a ≤ b))

/-- The member is the master of its path. -/
def isMaster (s : Coordination κ) (number : Nat) : Bool :=
  match s.members[number]? with
  | some m => !m.closed && s.masterOf m.path = m.id
  | none => false

/-- The id of a member; empty if nobody has the number. -/
def idOf (s : Coordination κ) (number : Nat) : String :=
  ((s.members[number]?).map (·.id)).getD ""

/-- The number of the open member with the given id. -/
def number? (s : Coordination κ) (id : String) : Option Nat :=
  s.members.findIdx? fun m => m.id = id && !m.closed

/-- The events that are still to be heard, of all members. -/
def backlog (s : Coordination κ) : Nat := s.members.foldr (fun m n => m.queue.length + n) 0

/-! ## Writing -/

/-- Applies a change to one member. -/
def onMember (s : Coordination κ) (number : Nat) (f : Member κ → Member κ) : Coordination κ :=
  { s with members := s.members.modify number f }

/-- Queues `changed` for everyone else in line on a path. -/
def tellOthers (s : Coordination κ) (path except : String) : Coordination κ :=
  { s with members := s.members.map (Member.hearChange path except) }

/-- Writes a log record. -/
def note (s : Coordination κ) (level : Log.Level) (message : String) : Coordination κ :=
  { s with journal := s.journal.add level coordinationSource message }

/-! ## Membership -/

/-- The id of the member that joins under the given number. -/
def memberId (path nodeType : String) (number : Nat) : String :=
  path ++ "/" ++ nodeType ++ "-" ++ toString number

/-- Joins a group and gives the number of the new member. -/
def join (s : Coordination κ) (path nodeType : String) : Except Failure Nat × Coordination κ :=
  if path = "" then (.error .emptyGroupPath, s)
  else
    let number := s.members.length
    let member : Member κ := { id := memberId path nodeType number, path }
    let s := { s with members := s.members ++ [member] }
    (.ok number, s.note .debug ("member " ++ member.id ++ " joined " ++ path))

/-- Starts a member: it goes to the end of the line, unless its session is lost. A second start
does nothing. -/
def start (s : Coordination κ) (number : Nat) : Except Failure Unit × Coordination κ :=
  match s.members[number]? with
  | none => (.ok (), s)
  | some m =>
    if m.closed then (.error (.startAfterClose m.id), s)
    else if m.started then (.ok (), s)
    else
      let s := s.onMember number fun m =>
        { m with started := true, sequence := s.nextSequence }
      let s := { s with nextSequence := s.nextSequence + 1 }
      let s := s.note .debug
        ("member " ++ m.id ++ " started; master of " ++ m.path ++ " is " ++ s.masterOf m.path)
      let s := s.onMember number (Member.enqueue .connected)
      (.ok (), s.tellOthers m.path m.id)

/-- Closes a member, whose events are heard no longer. A second close does nothing. -/
def close (s : Coordination κ) (number : Nat) : Coordination κ :=
  match s.members[number]? with
  | none => s
  | some m =>
    if m.closed then s
    else
      let s := s.onMember number fun m => { m with closed := true, queue := [] }
      let s := s.note .debug ("member " ++ m.id ++ " left " ++ m.path)
      s.tellOthers m.path m.id

/-- The session of the open member with the given id is lost; false if it was lost before or nobody
has the id. -/
def disconnect (s : Coordination κ) (id : String) : Bool × Coordination κ :=
  match s.number? id with
  | none => (false, s)
  | some number =>
    match s.members[number]? with
    | none => (false, s)
    | some m =>
      if !m.connected then (false, s)
      else
        let s := s.onMember number fun m => { m with connected := false }
        let s := s.note .info ("session of " ++ id ++ " lost")
        let s := s.onMember number (Member.enqueue .disconnected)
        (true, s.tellOthers m.path id)

/-- The session of the open member with the given id comes back, and the member goes to the end of
the line if it has started; false if the session was up or nobody has the id. -/
def reconnect (s : Coordination κ) (id : String) : Bool × Coordination κ :=
  match s.number? id with
  | none => (false, s)
  | some number =>
    match s.members[number]? with
    | none => (false, s)
    | some m =>
      if m.connected then (false, s)
      else
        let s := s.onMember number fun m =>
          { m with connected := true, sequence := s.nextSequence }
        let s := { s with nextSequence := s.nextSequence + 1 }
        let s := s.note .info ("session of " ++ id ++ " re-established")
        let s := s.onMember number (Member.enqueue .connected)
        (true, s.tellOthers m.path id)

/-- Publishes the state of a member. -/
def update (s : Coordination κ) (number : Nat) (state : MemberState) :
    Except Failure Unit × Coordination κ :=
  match s.members[number]? with
  | none => (.ok (), s)
  | some m =>
    if m.closed then (.error (.memberClosed m.id), s)
    else (.ok (), s.onMember number fun m => { m with state })

/-! ## Listening -/

/-- Registers a listener with a member. -/
def listen (s : Coordination κ) (number : Nat) (listener : κ) : Coordination κ :=
  s.onMember number fun m => { m with listeners := m.listeners ++ [listener] }

/-- Removes every registration of a listener with a member. -/
def unlisten [DecidableEq κ] (s : Coordination κ) (number : Nat) (listener : κ) :
    Coordination κ :=
  s.onMember number fun m => { m with listeners := m.listeners.filter (· ≠ listener) }

/-- A listener ceases to exist, and nobody's events reach it any more. -/
def expire [DecidableEq κ] (s : Coordination κ) (listener : κ) : Coordination κ :=
  { s with members := s.members.map fun m =>
      { m with listeners := m.listeners.filter (· ≠ listener) } }

/-- Takes the next event of a member off its queue, with the listeners that are to hear it. -/
def takeEvent (s : Coordination κ) (number : Nat) :
    Option (GroupEvent × List κ) × Coordination κ :=
  match s.members[number]? with
  | none => (none, s)
  | some m =>
    match m.queue with
    | [] => (none, s)
    | event :: rest =>
      (some (event, m.listeners), s.onMember number fun m => { m with queue := rest })

/-- Notes that a listener failed on an event, which keeps no other from hearing it. -/
def listenerFailed (s : Coordination κ) (number : Nat) (event : GroupEvent) (e : Failure) :
    Coordination κ :=
  s.note .error
    ("listener of " ++ s.idOf number ++ " failed on " ++ event.name ++ ": " ++ e.message)

end Coordination

end FleetScaler
