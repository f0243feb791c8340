import FleetScaler.Requirements.Basic

/-!
# Instances

A running or starting copy of a profile's workload, as the inventory reports it.
-/

namespace FleetScaler

/-- One instance of a profile. -/
structure Instance where
  id : String
  profile : String
  alive : Bool := false
  /-- The instance has been asked for and is not up yet. -/
  pending : Bool := false
  deriving DecidableEq, Repr, Inhabited

namespace Instance

/-- The instance counts toward the minimum of its profile: it is up or on its way. -/
def isCountable (i : Instance) : Bool := i.alive || i.pending

end Instance

/-- A request to start instances of a profile. -/
structure ScaleUp where
  version : String
  profile : String
  count : Int
  /-- The whole document that the request serves. -/
  requirements : Document
  /-- What is asked for the profile. -/
  requirement : Requirement
  deriving DecidableEq, Repr

/-- A request to stop instances of a profile, to be chosen among the candidates. -/
structure ScaleDown where
  profile : String
  count : Int
  candidates : List Instance
  deriving DecidableEq, Repr

end FleetScaler
