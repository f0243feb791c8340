import FleetScaler.CommandLine.Basic
import FleetScaler.Fleet.Delivery

/-!
# The daemon

The daemon runs some controllers, the nodes, on one coordination service and one simulated cluster.
Its life goes in rounds of a tenth of a second: the timers tick that are due, a status report is
written once per poll interval, and after some time the master may be stopped for a drill.

Everything here is a function of the arguments, of the files and of the number of rounds. Waiting
and printing are left to the program.
-/

namespace FleetScaler

/-- The source of the daemon's own log records. -/
def daemonSource : String := "main"

/-- The source of status reports. -/
def statusSource : String := "status"

/-- How the program ends. -/
structure Ending where
  code : Nat := 0
  /-- What is printed for the user, apart from log lines. -/
  output : String := ""
  /-- What is printed about errors. -/
  complaint : String := ""
  deriving DecidableEq, Repr, Inhabited

/-- Why the daemon did not start. -/
inductive StartError where
  | usage (e : CommandLine.UsageError)
  | settings (e : Settings.LoadError)
  /-- The requirements document was refused. -/
  | requirements (reason : String)
  | fatal (e : Failure)
  /-- The failure came before there was anything to handle it. -/
  | unhandled (e : Failure)
  deriving DecidableEq, Repr

namespace StartError

/-- The wording of a start error. -/
def message : StartError → String
  | usage e => e.message
  | settings e => "Configuration error: " ++ e.message
  | requirements reason => "Requirements error: " ++ reason
  | fatal e => "Fatal error: " ++ e.message
  | unhandled e => e.message

/-- How a program of the given name ends on a start error, unless it breaks off on a failure that is
not handled. Only a usage error shows the usage. -/
def ending (program : String) (e : StartError) : Except Failure Ending :=
  let complaint := e.message ++ "\n"
  match e with
  | unhandled failure => .error failure
  | usage _ => .ok { code := 1, output := CommandLine.usage program, complaint }
  | _ => .ok { code := 1, complaint }

end StartError

/-- The daemon. Its nodes use the service and the site of number zero. -/
structure Daemon where
  settings : Settings := {}
  fleet : Fleet := {}
  /-- Milliseconds since the start. -/
  clock : Nat := 0
  /-- When the last status report was due. -/
  lastStatus : Nat := 0
  /-- The drill has taken place. -/
  failedOver : Bool := false
  /-- What has been logged, the records of the fleet included as soon as they are gathered. -/
  journal : Log.Journal := []
  deriving Repr

namespace Daemon

/-! ## Log records -/

/-- The daemon's log level. -/
def level (d : Daemon) : Log.Level := (Log.Level.parse? d.settings.logLevel).getD .info

/-- Writes a log record. -/
def note (d : Daemon) (level : Log.Level) (source message : String) : Daemon :=
  { d with journal := d.journal.add level source message }

/-- Takes over the log records of the fleet. -/
def gather (d : Daemon) : Daemon :=
  let (records, fleet) := d.fleet.collect
  { d with fleet, journal := records.reverse ++ d.journal }

/-- Handles everything that waits in the fleet. -/
def quiesce (d : Daemon) : Daemon := { d with fleet := d.fleet.quiesce }.gather

/-! ## Starting -/

/-- A daemon with its requirements loaded and no node yet. -/
def load (settings : Settings) (files : String → Found) : Except StartError Daemon :=
  let d : Daemon := { settings }
  if settings.requirementsPath = "" then
    .ok (d.note .warn daemonSource "no requirements document given; nothing will be scaled")
  else
    let (loaded, store) := Store.load {} settings.requirementsPath
      (files settings.requirementsPath)
    match loaded with
    | .failed e => .error (.fatal e)
    | .refused reason => .error (.requirements reason)
    | .accepted () =>
      .ok { d with fleet := d.fleet.changeSite 0 fun s => { s with store } }

/-- The settings of the node of the given number. -/
def nodeSettings (settings : Settings) (i : Nat) : Settings :=
  { settings with
    nodeId := (if settings.nodeId = "" then "node" else settings.nodeId) ++ "-" ++ toString i }

/-- Adds the node of the given number to a fleet and has it stand for election. -/
def addNode (settings : Settings) (fleet : Fleet) (i : Nat) : Except Failure Fleet :=
  let (k, fleet) := fleet.add (nodeSettings settings i)
  let fleet := (fleet.bindCoordination k (some 0)).bindCluster k (some 0)
  match fleet.activate k with
  | (.error e, _) => .error e
  | (.ok (), fleet) => .ok fleet

/-- Adds nodes until there are as many as the settings ask for. -/
def addNodes (settings : Settings) (fleet : Fleet) : Except Failure Fleet :=
  (List.range settings.nodes.toNat).foldlM (addNode settings) fleet

/-- What a command line makes of the program. -/
inductive Start where
  /-- The usage is shown, and that is all. -/
  | help
  | run (daemon : Daemon)

/-- Starts the daemon with all its nodes; `files` gives what is found at a path. -/
def start (arguments : List String) (files : String → Found) : Except StartError Start :=
  match CommandLine.parse arguments with
  | .error e => .error (.usage e)
  | .ok .help => .ok .help
  | .ok (.run line) =>
    match line.resolve files with
    | .error (.broken e) => .error (.unhandled e)
    | .error e => .error (.settings e)
    | .ok settings => do
      let d ← load settings files
      match addNodes settings d.fleet with
      | .error e => .error (.fatal e)
      | .ok fleet => .ok (.run { d with fleet })

/-- How a program of the given name ends that is told to shut down as soon as it has started. -/
def startAndStop (program : String) (arguments : List String) (files : String → Found) :
    Except Failure Ending :=
  match start arguments files with
  | .error e => e.ending program
  | .ok .help => .ok { output := CommandLine.usage program }
  | .ok (.run _) => .ok {}

/-! ## Running -/

/-- The numbers of the nodes. -/
def nodes (d : Daemon) : List Nat := List.range d.fleet.controllers.size

/-- The line of a node in a status report. -/
def statusLine (d : Daemon) (k : Nat) : String :=
  let c := d.fleet.controller k
  c.memberId d.fleet.toSurroundings ++ " " ++ c.state.name ++
    " passes=" ++ toString c.tally.passes ++
    " scale_up=" ++ toString c.tally.scaleUps ++
    " scale_down=" ++ toString c.tally.scaleDowns ++
    " failures=" ++ toString c.tally.failures

/-- Writes a status report. -/
def report (d : Daemon) : Daemon :=
  let d := d.gather
  let instances := (d.fleet.sites.get 0).cluster.instances.length
  (d.nodes.foldl (fun (e : Daemon) k => e.note .info statusSource (d.statusLine k)) d).note
    .info statusSource (toString instances ++ " instance(s) in the cluster")

/-- Lets every enabled timer tick once and handles what follows. -/
def tick (d : Daemon) : Daemon := { d with fleet := d.fleet.tickAll }.quiesce

/-- Brings up what has been asked for at the cluster. -/
def settleCluster (d : Daemon) : Daemon :=
  { d with fleet := d.fleet.changeSite 0 (Site.onCluster fun c => c.settle.2) }

/-- The status report is due. -/
def isReportDue (d : Daemon) : Bool := d.settings.pollIntervalMs.toNat ≤ d.clock - d.lastStatus

/-- The drill is due. -/
def isFailoverDue (d : Daemon) : Bool :=
  !d.failedOver && 0 < d.settings.failoverAfterSeconds.toNat &&
    d.settings.failoverAfterSeconds.toNat ≤ d.clock / 1000

/-- The daemon has run for as long as it should. -/
def isOver (d : Daemon) : Bool :=
  0 < d.settings.runSeconds.toNat && d.settings.runSeconds.toNat ≤ d.clock / 1000

/-- Stops the master, if there is one. -/
def stopMaster (d : Daemon) : Daemon :=
  let surroundings := d.fleet.toSurroundings
  match d.nodes.find? fun k => (d.fleet.controller k).isMaster surroundings with
  | none => d
  | some k =>
    let d := d.note .info daemonSource
      ("stopping master " ++ (d.fleet.controller k).memberId surroundings)
    { d with fleet := d.fleet.deactivate k }

/-- The length of a round in milliseconds. -/
def roundLength : Nat := 100

/-- The ticks of an interval that are due in the round that starts at the given time. -/
def ticksDue (interval clock : Nat) : Nat := (clock + roundLength) / interval - clock / interval

/-- Lets a round pass up to the moment when the status report may be due. -/
def advance (d : Daemon) : Daemon :=
  let due := ticksDue d.settings.pollIntervalMs.toNat d.clock
  let d := Nat.repeat tick due d.quiesce
  { d with clock := d.clock + roundLength }

/-- Writes the status report if it is due. -/
def reportIfDue (d : Daemon) : Daemon :=
  if d.isReportDue then { d.settleCluster.report with lastStatus := d.clock } else d

/-- Stops the master if the drill is due. -/
def failOverIfDue (d : Daemon) : Daemon :=
  if d.isFailoverDue then { d.stopMaster with failedOver := true }.quiesce else d

/-- One round. -/
def round (d : Daemon) : Daemon := d.advance.reportIfDue.failOverIfDue

/-- Ends the work of all nodes. -/
def shutDown (d : Daemon) : Daemon :=
  let d := d.quiesce.note .info daemonSource "shutting down"
  { d with fleet := d.nodes.foldl Fleet.deactivate d.fleet }.report

/-- The number of rounds up to the first status report. -/
def roundsToReport (d : Daemon) : Nat :=
  max 1 ((d.settings.pollIntervalMs.toNat + roundLength - 1) / roundLength)

/-- The daemon right after its first status report. -/
def firstReport (d : Daemon) : Daemon :=
  (Nat.repeat advance d.roundsToReport d).reportIfDue

end Daemon

end FleetScaler
