import FleetScaler.Failure
import FleetScaler.Inventory
import FleetScaler.Log.Entry

/-!
# The collaborators of a pass

A pass asks an inventory for instances, a factory for the autoscaler of a profile, a version source
for the version that new instances run, and an autoscaler to start or stop instances. All of them
may fail, and all of them may change with every call: they share a state, which each call hands on.
An autoscaler is a handle of some type, so that a factory may offer different ones.
-/

namespace FleetScaler

/-- The collaborators of a pass over a state `σ`, with autoscalers of type `α`. -/
structure Collaborators (σ α : Type) where
  /-- The autoscaler for a requirement of a document, if one can handle the profile. -/
  offer : Document → Requirement → σ → Except Failure (Option α) × σ
  /-- The instances of a profile. -/
  instances : String → σ → Except Failure (List Instance) × σ
  /-- The version for new instances. -/
  version : σ → Except Failure String × σ
  /-- Starts instances. -/
  create : α → ScaleUp → σ → Except Failure Unit × σ
  /-- Stops instances. -/
  destroy : α → ScaleDown → σ → Except Failure Unit × σ
  /-- Takes a log record of the pass. -/
  note : Log.Record → σ → σ

/-- A call that a pass made, with its answer. -/
inductive Call where
  | offer (profile : String) (answer : Except Failure Bool)
  | instances (profile : String) (answer : Except Failure (List Instance))
  | version (answer : Except Failure String)
  | create (request : ScaleUp) (answer : Except Failure Unit)
  | destroy (request : ScaleDown) (answer : Except Failure Unit)

namespace Collaborators

variable {σ α : Type}

/-- The same collaborators, which also keep the calls made to them, newest first. -/
def recorded (c : Collaborators σ α) : Collaborators (σ × List Call) α where
  offer document requirement s :=
    let (answer, world) := c.offer document requirement s.1
    (answer, world, .offer requirement.profile (answer.map Option.isSome) :: s.2)
  instances profile s :=
    let (answer, world) := c.instances profile s.1
    (answer, world, .instances profile answer :: s.2)
  version s :=
    let (answer, world) := c.version s.1
    (answer, world, .version answer :: s.2)
  create autoscaler request s :=
    let (answer, world) := c.create autoscaler request s.1
    (answer, world, .create request answer :: s.2)
  destroy autoscaler request s :=
    let (answer, world) := c.destroy autoscaler request s.1
    (answer, world, .destroy request answer :: s.2)
  note record s := (c.note record s.1, s.2)

end Collaborators

end FleetScaler
