import FleetScaler.Log.Level

/-!
# Settings

What a controller node and the daemon around it can be told, and which settings are sensible.
-/

namespace FleetScaler

/-- The settings of a controller node and of the daemon that runs it. -/
structure Settings where
  /-- Milliseconds between two periodic passes. -/
  pollIntervalMs : UInt32 := 10000
  /-- The group in which the controllers elect their master. -/
  groupPath : String := "/autoscale/controllers"
  nodeType : String := "autoscaler"
  nodeId : String := ""
  logLevel : String := "info"
  jsonLogs : Bool := false
  asyncLogging : Bool := false
  /-- The requirements document to load; none if empty. -/
  requirementsPath : String := ""
  /-- The number of controllers in one daemon. -/
  nodes : UInt32 := 2
  /-- The daemon ends after this long; zero means never. -/
  runSeconds : UInt32 := 0
  /-- The daemon stops its master after this long; zero means never. -/
  failoverAfterSeconds : UInt32 := 0
  deriving DecidableEq, Repr, Inhabited

namespace Settings

/-- A setting that makes no sense. -/
inductive Invalid where
  | pollInterval
  | groupPath
  | nodeType
  | logLevel (name : String)
  | nodes
  deriving DecidableEq, Repr

/-- The wording of an invalid setting. -/
def Invalid.message : Invalid → String
  | pollInterval => "Poll interval must be at least 1ms"
  | groupPath => "Group path must be an absolute path"
  | nodeType => "Node type cannot be empty"
  | logLevel name => "Unknown log level: " ++ name
  | nodes => "At least one controller node is required"

/-- The first setting, in a fixed order, that makes no sense. -/
def invalid? (s : Settings) : Option Invalid :=
  if s.pollIntervalMs < 1 then some .pollInterval
  else if s.groupPath.toList.head? ≠ some '/' then some .groupPath
  else if s.nodeType = "" then some .nodeType
  else if Log.Level.parse? s.logLevel = none then some (.logLevel s.logLevel)
  else if s.nodes < 1 then some .nodes
  else none

end Settings

end FleetScaler
