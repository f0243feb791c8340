import FleetScaler.Pass.Collaborators

/-!
# Scripted collaborators

A script fixes the answer to every call by the arguments of the call alone. Collaborators that
follow a script have nothing to remember but the log records of the pass.
-/

namespace FleetScaler

/-- Answers that depend on the arguments of a call alone, with autoscalers of type `α`. -/
structure Script (α : Type) where
  offer : Document → Requirement → Except Failure (Option α)
  instances : String → Except Failure (List Instance)
  version : Except Failure String
  create : α → ScaleUp → Except Failure Unit
  destroy : α → ScaleDown → Except Failure Unit

namespace Script

/-- The collaborators that follow a script. -/
def collaborators {α : Type} (s : Script α) : Collaborators Log.Journal α where
  offer document requirement journal := (s.offer document requirement, journal)
  instances profile journal := (s.instances profile, journal)
  version journal := (s.version, journal)
  create autoscaler request journal := (s.create autoscaler request, journal)
  destroy autoscaler request journal := (s.destroy autoscaler request, journal)
  note record journal := record :: journal

end Script

end FleetScaler
