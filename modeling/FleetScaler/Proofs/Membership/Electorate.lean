import FleetScaler.Proofs.Membership.News
import FleetScaler.Table

/-!
# Electors at one service

Any number of electors use one coordination service. They come and go, sessions are lost and come
back, and the events that follow are delivered one at a time, in any order of the members. What an
elector remembers of the events is whether its session is up; whether it is the master it asks the
service at the moment of the question.
-/

namespace FleetScaler

instance {γ : Type} : Inhabited (Elector γ) := ⟨{}⟩

/-- A coordination service and the electors that use it. The elector with the number `k` listens
under the handle `k`. -/
structure Electorate where
  service : Coordination Nat := {}
  electors : Table (Elector Nat) := {}

/-- What may happen to electors and their service. -/
inductive ElectionStep where
  | activate (k : Nat)
  | deactivate (k : Nat)
  | disconnect (id : String)
  | reconnect (id : String)
  /-- The next event of the member with the number `n` is delivered, if one is waiting. -/
  | deliver (n : Nat)
  deriving DecidableEq, Repr

namespace Electorate

open Coordination

/-! ## What can be seen -/

def elector (u : Electorate) (k : Nat) : Elector Nat := u.electors.get k

/-- The path of the group that an elector joins when it is activated. -/
def path (u : Electorate) (k : Nat) : String := (u.elector k).config.groupPath

def isActive (u : Electorate) (k : Nat) : Bool := (u.elector k).isActive

/-- The id of the member that an elector has become; empty if it is not active. -/
def memberId (u : Electorate) (k : Nat) : String := (u.elector k).memberId (access k) u.service

/-- The elector says that it is the master. -/
def claims (u : Electorate) (k : Nat) : Bool := (u.elector k).isMaster (access k) u.service

/-- The elector is active and the session of its member is up. -/
def sessionUp (u : Electorate) (k : Nat) : Bool :=
  (((u.elector k).group.bind fun n => u.service.members[n]?).map (·.connected)).getD false

/-! ## Steps -/

/-- Puts an elector and the service in the place of those before. -/
def replace (u : Electorate) (k : Nat) (elector : Elector Nat) (service : Coordination Nat) :
    Electorate := { service, electors := u.electors.set k elector }

def activate (u : Electorate) (k : Nat) : Electorate :=
  let (_, elector, service) := (u.elector k).activate (some (access k)) u.service
  u.replace k elector service

def deactivate (u : Electorate) (k : Nat) : Electorate :=
  let (elector, service) := (u.elector k).deactivate (access k) u.service
  u.replace k elector service

/-- An elector hears an event of the member with the number `n`. -/
def hear (n : Nat) (event : GroupEvent) (u : Electorate) (k : Nat) : Electorate :=
  u.replace k ((u.elector k).hear (u.service.idOf n) event).2 u.service

def deliver (u : Electorate) (n : Nat) : Electorate :=
  match u.service.takeEvent n with
  | (none, _) => u
  | (some (event, listeners), service) => listeners.foldl (hear n event) { u with service }

/-- The electors and their service after a step. -/
def perform (u : Electorate) : ElectionStep → Electorate
  | .activate k => u.activate k
  | .deactivate k => u.deactivate k
  | .disconnect id => { u with service := (u.service.disconnect id).2 }
  | .reconnect id => { u with service := (u.service.reconnect id).2 }
  | .deliver n => u.deliver n

/-- The electors and their service after some steps, one after the other. -/
def run (u : Electorate) (steps : List ElectionStep) : Electorate := steps.foldl perform u

@[simp] theorem run_nil (u : Electorate) : u.run [] = u := rfl

@[simp] theorem run_cons (u : Electorate) (x : ElectionStep) (rest : List ElectionStep) :
    u.run (x :: rest) = (u.perform x).run rest := rfl

/-- Electors that have been made and done nothing yet, at a service that nobody has joined. Those
beyond the list have the config that is the default. -/
def start (configs : List ElectorConfig) : Electorate :=
  { electors := ⟨configs.map fun config => { config }⟩ }

/-- The events that an elector hears in a step, once for each time it is registered. -/
def hearings (u : Electorate) (k : Nat) : ElectionStep → List GroupEvent
  | .deliver n =>
    match (u.service.takeEvent n).1 with
    | none => []
    | some (event, listeners) => List.replicate (listeners.count k) event
  | _ => []

/-- The events that an elector hears in the course of some steps, oldest first. -/
def heard (u : Electorate) (k : Nat) : List ElectionStep → List GroupEvent
  | [] => []
  | x :: rest => u.hearings k x ++ (u.perform x).heard k rest

variable {k : Nat}

/-! ### Reading electors after a step -/

@[simp] theorem service_replace (u : Electorate) (k : Nat) (e : Elector Nat)
    (s : Coordination Nat) : (u.replace k e s).service = s := rfl

@[simp] theorem elector_replace_self (u : Electorate) (k : Nat) (e : Elector Nat)
    (s : Coordination Nat) : (u.replace k e s).elector k = e := Table.get_set_self _ _ _

theorem elector_replace_ne (u : Electorate) {j : Nat} (hj : j ≠ k) (e : Elector Nat)
    (s : Coordination Nat) : (u.replace k e s).elector j = u.elector j := Table.get_set_ne _ _ hj

theorem elector_start (configs : List ElectorConfig) (k : Nat) :
    ((start configs).elector k).group = none := by
  simp only [elector, start, Table.get, List.getD_eq_getElem?_getD, List.getElem?_map]
  cases configs[k]? <;> rfl

end Electorate

end FleetScaler
