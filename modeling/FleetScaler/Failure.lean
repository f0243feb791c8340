import FleetScaler.Json.Reader
import FleetScaler.Terminated

/-!
# Failures

Everything that can go wrong in an operation of the fleet, as opposed to a document or a setting
that is refused. Whoever asked for the operation gets the failure; a pass and the delivery of an
event go on to the next profile or listener and keep the wording.
-/

namespace FleetScaler

/-- Why an operation could not be carried out. -/
inductive Failure where
  /-- State was published for a member that has left its group. -/
  | memberClosed (id : String)
  /-- A member was started after it had left its group. -/
  | startAfterClose (id : String)
  /-- The group was torn down under its member, for a reason of the coordination service. -/
  | membershipStale (reason : String)
  /-- A group was joined under an empty path. -/
  | emptyGroupPath
  /-- There is no coordination service through which a group could be joined. -/
  | noCoordination (path : String)
  /-- A timer was enabled with an interval that is not positive. -/
  | nonPositiveInterval
  /-- A cluster was set up without a requirements store. -/
  | noStore
  /-- A capability was asked for that is not bound. -/
  | notBound (slot : String)
  /-- The cluster behind an autoscaler no longer exists. -/
  | clusterGone
  /-- A negative number of instances was to be stopped. -/
  | negativeCount
  /-- A folder was opened as if it were a file. -/
  | unreadable
  /-- A document could not be read as JSON. -/
  | json (e : Json.ReadError)
  /-- A collaborator failed for a reason of its own. -/
  | collaborator (reason : String)
  deriving DecidableEq, Repr

namespace Failure

/-- What there is to say about a failure. -/
def description : Failure → String
  | memberClosed id => "group member " ++ id ++ " has been closed"
  | startAfterClose id => "cannot start closed group member " ++ id
  | membershipStale reason => reason
  | emptyGroupPath => "group path must not be empty"
  | noCoordination path => "no coordination service to join " ++ path
  | nonPositiveInterval => "poll interval must be positive"
  | noStore => "SimulatedCluster needs a requirements store"
  | notBound slot => slot ++ " is not bound"
  | clusterGone => "simulated cluster has been shut down"
  | negativeCount => "cannot stop a negative number of instances"
  | unreadable => "basic_filebuf::underflow error reading the file: Is a directory"
  | json e => e.message
  | collaborator reason => reason

/-- The wording of a failure: its description up to the first NUL character. -/
def message (e : Failure) : String := beforeNul e.description

/-- The membership went away; a later event of the group puts the matter right. -/
def isStale : Failure → Bool
  | memberClosed _ | startAfterClose _ | membershipStale _ => true
  | _ => false

end Failure

/-- What comes of loading a document: it is accepted, it is refused with a reason for the operator,
or the attempt itself fails. -/
inductive Loaded (α : Type) where
  | accepted (value : α)
  | refused (reason : String)
  | failed (failure : Failure)
  deriving DecidableEq, Repr

namespace Loaded

/-- The document, if it was accepted. -/
def value? {α : Type} : Loaded α → Option α
  | accepted value => some value
  | _ => none

end Loaded

end FleetScaler
