import FleetScaler.CommandLine.Word
import FleetScaler.Settings.Format

/-!
# The command line

Flags are read from left to right. A flag that takes a value takes the next argument, whatever it
looks like; at the end of the list, without a value, it is an unknown argument. Of several
occurrences the last one counts. A request for help ends the reading at once.

The settings come from three places: the defaults, then the configuration file if one is named,
then the flags.
-/

namespace FleetScaler

/-- The flags that take a value. -/
inductive Flag where
  | config
  | requirements
  | pollInterval
  | nodes
  | runSeconds
  | failoverAfter
  | logLevel
  deriving DecidableEq, Repr

namespace Flag

/-- The flag as it is written. -/
def name : Flag → String
  | config => "--config"
  | requirements => "--requirements"
  | pollInterval => "--poll-interval"
  | nodes => "--nodes"
  | runSeconds => "--run-seconds"
  | failoverAfter => "--failover-after"
  | logLevel => "--log-level"

/-- All flags that take a value. -/
def all : List Flag :=
  [config, requirements, pollInterval, nodes, runSeconds, failoverAfter, logLevel]

/-- The flag that is written as the given argument. -/
def ofName? (argument : String) : Option Flag := all.find? fun flag => flag.name = argument

end Flag

/-- What the command line says. -/
structure CommandLine where
  configPath : String := ""
  requirementsPath : Option String := none
  pollIntervalMs : Option UInt32 := none
  nodes : Option UInt32 := none
  runSeconds : Option UInt32 := none
  failoverAfterSeconds : Option UInt32 := none
  logLevel : Option String := none
  jsonLogs : Bool := false
  deriving DecidableEq, Repr, Inhabited

namespace CommandLine

/-- What is wrong with a command line. -/
inductive UsageError where
  | invalidNumber (flag : Flag)
  | unknownArgument (argument : String)
  deriving DecidableEq, Repr

/-- The wording of a usage error. -/
def UsageError.message : UsageError → String
  | invalidNumber flag => "invalid " ++ flag.name
  | unknownArgument argument => "unknown argument: " ++ argument

/-- What a command line asks for. -/
inductive Request where
  | help
  | run (line : CommandLine)
  deriving DecidableEq, Repr

/-- The number that a flag is given. -/
def number (flag : Flag) (value : String) : Except UsageError UInt32 :=
  match word? value with
  | some n => .ok n
  | none => .error (.invalidNumber flag)

/-- Notes the value of a flag. -/
def set (line : CommandLine) (flag : Flag) (value : String) : Except UsageError CommandLine :=
  match flag with
  | .config => .ok { line with configPath := value }
  | .requirements => .ok { line with requirementsPath := some value }
  | .logLevel => .ok { line with logLevel := some value }
  | .pollInterval => (number flag value).map fun n => { line with pollIntervalMs := some n }
  | .nodes => (number flag value).map fun n => { line with nodes := some n }
  | .runSeconds => (number flag value).map fun n => { line with runSeconds := some n }
  | .failoverAfter =>
    (number flag value).map fun n => { line with failoverAfterSeconds := some n }

/-- Reads on from what has been noted so far. -/
def parseFrom (line : CommandLine) : List String → Except UsageError Request
  | [] => .ok (.run line)
  | argument :: rest =>
    if argument = "--help" ∨ argument = "-h" then .ok .help
    else if argument = "--json-logs" then parseFrom { line with jsonLogs := true } rest
    else
      match Flag.ofName? argument, rest with
      | some flag, value :: rest =>
        match line.set flag value with
        | .error e => .error e
        | .ok line => parseFrom line rest
      | _, _ => .error (.unknownArgument argument)

/-- What a list of arguments, without the name of the program, asks for. -/
def parse (arguments : List String) : Except UsageError Request := parseFrom {} arguments

/-- Lays the flags over settings. -/
def apply (line : CommandLine) (base : Settings) : Settings :=
  { base with
    requirementsPath := line.requirementsPath.getD base.requirementsPath
    pollIntervalMs := line.pollIntervalMs.getD base.pollIntervalMs
    nodes := line.nodes.getD base.nodes
    runSeconds := line.runSeconds.getD base.runSeconds
    failoverAfterSeconds := line.failoverAfterSeconds.getD base.failoverAfterSeconds
    logLevel := line.logLevel.getD base.logLevel
    jsonLogs := line.jsonLogs || base.jsonLogs }

/-- The settings under the flags: those of the named file, or the defaults if none is named. What is
logged about the file is lost, as the logger still has the level that it starts with. -/
def fileSettings (line : CommandLine) (files : String → Found) :
    Except Settings.LoadError Settings :=
  if line.configPath = "" then .ok {}
  else (Settings.load {} line.configPath (files line.configPath)).1

/-- The settings to run with; `files` gives what is found at a path. -/
def resolve (line : CommandLine) (files : String → Found) :
    Except Settings.LoadError Settings := do
  let base ← line.fileSettings files
  let settings := line.apply base
  match settings.invalid? with
  | some e => .error (.invalid e)
  | none => .ok settings

/-- The help text of a program that is called by the given name. -/
def usage (program : String) : String :=
  "Usage: " ++ program ++ " [options]\n" ++
  "\n" ++
  "Options:\n" ++
  "  --config FILE              Path to JSON configuration file\n" ++
  "  --requirements FILE        Path to JSON requirements document\n" ++
  "  --poll-interval MS         Milliseconds between reconciliation passes (default: 10000)\n" ++
  "  --nodes COUNT              Controller nodes to run (default: 2)\n" ++
  "  --run-seconds SECONDS      Exit after this long (default: run until interrupted)\n" ++
  "  --failover-after SECONDS   Stop the master after this long\n" ++
  "  --log-level LEVEL          trace, debug, info, warn, error\n" ++
  "  --json-logs                Emit JSON log lines\n" ++
  "  --help                     Show this help message\n"

end CommandLine

end FleetScaler
