import FleetScaler.Failure
import FleetScaler.Folder
import FleetScaler.Json.Reader
import FleetScaler.Log.Entry
import FleetScaler.Settings.Basic

/-!
# Settings as JSON

An object of settings is laid over others: a key that is present replaces the setting, an absent
one leaves it, and a key that is not known is ignored. The poll interval has two keys, of which
`pollIntervalMs` wins. Each key is checked in a fixed order, and the first that has the wrong type
or does not fit 32 bits is the error.
-/

namespace FleetScaler

/-- The source that loading settings names in its log records. -/
def settingsSource : String := "config"

namespace Settings

/-- What is wrong with a value that is to be laid over settings. -/
inductive OverlayError where
  | notAnObject
  | notANatural (key : String)
  | tooLarge (key : String)
  | notAText (key : String)
  | notABool (key : String)
  deriving DecidableEq, Repr

/-- The wording of a fault. -/
def OverlayError.message : OverlayError → String
  | notAnObject => "configuration must be a JSON object"
  | notANatural key => "\"" ++ key ++ "\" must be a non-negative integer"
  | tooLarge key => "\"" ++ key ++ "\" is out of range (max 4294967295)"
  | notAText key => "\"" ++ key ++ "\" must be a string"
  | notABool key => "\"" ++ key ++ "\" must be a boolean"

/-- The number under a key, or `current` if the key is absent. -/
def readWord (v : Json) (key : String) (current : UInt32) : Except OverlayError UInt32 :=
  match v.get? key with
  | none => .ok current
  | some w =>
    match w.int? with
    | none => .error (.notANatural key)
    | some i =>
      if i < 0 then .error (.notANatural key)
      else if 4294967295 < i then .error (.tooLarge key)
      else .ok (UInt32.ofNat i.toNat)

/-- The text under a key, or `current` if the key is absent. -/
def readText (v : Json) (key : String) (current : String) : Except OverlayError String :=
  match v.get? key with
  | none => .ok current
  | some w =>
    match w.text? with
    | none => .error (.notAText key)
    | some s => .ok s

/-- The truth value under a key, or `current` if the key is absent. -/
def readBool (v : Json) (key : String) (current : Bool) : Except OverlayError Bool :=
  match v.get? key with
  | none => .ok current
  | some w =>
    match w.bool? with
    | none => .error (.notABool key)
    | some b => .ok b

/-- Lays the keys of a JSON object over settings. -/
def overlay (base : Settings) (v : Json) : Except OverlayError Settings :=
  if v.isObject then do
    let pollTime ← readWord v "pollTime" base.pollIntervalMs
    let pollIntervalMs ← readWord v "pollIntervalMs" pollTime
    let groupPath ← readText v "groupPath" base.groupPath
    let nodeType ← readText v "nodeType" base.nodeType
    let nodeId ← readText v "nodeId" base.nodeId
    let logLevel ← readText v "logLevel" base.logLevel
    let jsonLogs ← readBool v "jsonLogs" base.jsonLogs
    let asyncLogging ← readBool v "asyncLogging" base.asyncLogging
    let requirementsPath ← readText v "requirementsPath" base.requirementsPath
    let nodes ← readWord v "nodes" base.nodes
    let runSeconds ← readWord v "runSeconds" base.runSeconds
    let failoverAfterSeconds ← readWord v "failoverAfterSeconds" base.failoverAfterSeconds
    return { pollIntervalMs, groupPath, nodeType, nodeId, logLevel, jsonLogs, asyncLogging,
             requirementsPath, nodes, runSeconds, failoverAfterSeconds }
  else .error .notAnObject

/-- The settings as a JSON object, keys in alphabetical order. -/
def toJson (s : Settings) : Json :=
  .object [
    ("asyncLogging", .bool s.asyncLogging),
    ("failoverAfterSeconds", .unsigned s.failoverAfterSeconds.toNat),
    ("groupPath", .text s.groupPath),
    ("jsonLogs", .bool s.jsonLogs),
    ("logLevel", .text s.logLevel),
    ("nodeId", .text s.nodeId),
    ("nodeType", .text s.nodeType),
    ("nodes", .unsigned s.nodes.toNat),
    ("pollIntervalMs", .unsigned s.pollIntervalMs.toNat),
    ("requirementsPath", .text s.requirementsPath),
    ("runSeconds", .unsigned s.runSeconds.toNat)]

/-- Why no settings could be had. -/
inductive LoadError where
  | cannotOpen (path : String)
  /-- Reading broke off. -/
  | broken (e : Failure)
  | notJson (path : String) (e : Json.ReadError)
  | overlay (e : OverlayError)
  | invalid (e : Invalid)
  deriving DecidableEq, Repr

/-- The wording of a load error. -/
def LoadError.message : LoadError → String
  | cannotOpen path => "cannot open config file " ++ path
  | broken e => e.message
  | notJson path e => "invalid JSON in " ++ path ++ ": " ++ e.message
  | overlay e => e.message
  | invalid e => e.message

/-- The settings of a file laid over others, and what is logged about it; `found` is what is found
at the path. Only the first JSON value of the file counts. -/
def load (base : Settings) (path : String) (found : Found) :
    Except LoadError Settings × Log.Journal :=
  match found with
  | .nothing => (.error (.cannotOpen path), [])
  | .folder => (.error (.broken .unreadable), [])
  | .text text =>
    match Json.parseFirst text with
    | .error e => (.error (.notJson path e), [])
    | .ok v =>
      match base.overlay v with
      | .error e => (.error (.overlay e), [])
      | .ok s => (.ok s, Log.Journal.add [] .debug settingsSource ("loaded " ++ path))

end Settings

end FleetScaler
