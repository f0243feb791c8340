/-!
# Reports of a pass

What a pass found and did for each profile, in the order of the document. The totals of a report
are counts over its verdicts.
-/

namespace FleetScaler

/-- What a pass did for one profile. -/
inductive Outcome where
  /-- No minimum is asked for. -/
  | unmanaged
  /-- Nothing can start or stop instances of the profile. -/
  | noAutoscaler
  | satisfied
  | scaledUp
  | scaledDown
  /-- Instances are missing, and a dependency has to come up first. -/
  | gated
  /-- A collaborator failed. -/
  | failed
  deriving DecidableEq, Repr, Inhabited

namespace Outcome

/-- The name of an outcome in a report. -/
def name : Outcome → String
  | unmanaged => "unmanaged"
  | noAutoscaler => "no-autoscaler"
  | satisfied => "satisfied"
  | scaledUp => "scaled-up"
  | scaledDown => "scaled-down"
  | gated => "gated"
  | failed => "failed"

/-- All outcomes, in the order of their numbers. -/
def all : List Outcome :=
  [unmanaged, noAutoscaler, satisfied, scaledUp, scaledDown, gated, failed]

/-- The name of the outcome with the given number; a number without an outcome has a name too. -/
def nameOfCode (code : Int) : String :=
  if code < 0 then "unknown" else (all[code.toNat]?.map name).getD "unknown"

end Outcome

/-- The verdict of a pass on one profile. Numbers that the pass did not get to are zero. -/
structure Verdict where
  profile : String
  outcome : Outcome := .unmanaged
  /-- The minimum that is asked for. -/
  desired : Int := 0
  /-- The countable instances that were found. -/
  observed : Int := 0
  /-- The instances that are missing, or with a minus sign the ones that are too many. -/
  delta : Int := 0
  /-- The dependency that held back a scale-up. -/
  blocking : String := ""
  /-- The wording of the failure. -/
  error : String := ""
  deriving DecidableEq, Repr, Inhabited

/-- The verdicts of a pass, in the order of the document. -/
structure Report where
  verdicts : List Verdict := []
  deriving DecidableEq, Repr, Inhabited

namespace Report

/-- The number of profiles with the given outcome. -/
def count (r : Report) (outcome : Outcome) : Nat :=
  r.verdicts.countP fun v => v.outcome = outcome

/-- The scale commands that were carried out. -/
def commands (r : Report) : Nat := r.count .scaledUp + r.count .scaledDown

/-- The first verdict on a profile. -/
def find? (r : Report) (profile : String) : Option Verdict :=
  r.verdicts.find? fun v => v.profile = profile

/-- The report in one line, for a pass that took the given number of milliseconds. -/
def summary (r : Report) (milliseconds : Nat) : String :=
  toString r.verdicts.length ++ " profile(s), " ++ toString (r.count .scaledUp) ++
    " scale-up, " ++ toString (r.count .scaledDown) ++ " scale-down, " ++
    toString (r.count .gated) ++ " gated, " ++ toString (r.count .failed) ++ " failed in " ++
    toString milliseconds ++ "ms"

end Report

end FleetScaler
