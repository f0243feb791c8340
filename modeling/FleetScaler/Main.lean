import FleetScaler.Daemon
import FleetScaler.Log.Logger
import Std.Time.DateTime.Timestamp

/-!
# The program

Reads the files that the command line names, starts the daemon, and then waits and prints: one round
of the daemon for each tenth of a second, and its log lines on standard output.
-/

namespace FleetScaler.Program

/-- The name by which the program is called. -/
def name : String := "autoscaled"

/-- What is found at a path. What can be opened and not read is a folder, and bytes that are no text
stand for an empty one. -/
def find (path : String) : IO Found := do
  match ← (IO.FS.Handle.mk (beforeNul path) .read).toBaseIO with
  | .error _ => return .nothing
  | .ok handle =>
    match ← handle.readBinToEnd.toBaseIO with
    | .error _ => return .folder
    | .ok bytes => return .text ((String.fromUTF8? bytes).getD "")

/-- The files that a command line names: the configuration, and the requirements that the settings
name. -/
def filesFor (arguments : List String) : IO (String → Found) := do
  match CommandLine.parse arguments with
  | .ok (.run line) =>
    let configuration ← find line.configPath
    let files := fun path => if path = line.configPath then configuration else .nothing
    match line.resolve files with
    | .ok settings =>
      let requirements ← find settings.requirementsPath
      return fun path => if path = settings.requirementsPath then requirements else files path
    | .error _ => return files
  | _ => return fun _ => .nothing

/-- Milliseconds since 1970. -/
def wallClock : IO Int := do
  let now ← Std.Time.Timestamp.now
  return now.toMillisecondsSinceUnixEpoch.val

/-- The logger of a daemon. -/
def loggerFor (d : Daemon) : Log.Logger :=
  let logger : Log.Logger := { threshold := d.level, jsonFormat := d.settings.jsonLogs }
  logger.setAsynchronous d.settings.asyncLogging

/-- Logs a record and has the worker deliver it, if it is left to the worker. -/
def logRecord (timestamp : Int) (logger : Log.Logger) (record : Log.Record) : Log.Logger :=
  (logger.log { record with timestamp, threadId := name }).drain

/-- Prints the log records of a daemon that reach its level, and returns the daemon without them. -/
def printRecords (d : Daemon) : IO Daemon := do
  let logger := d.journal.records.foldl (logRecord (← wallClock)) (loggerFor d)
  for delivery in logger.sink.reverse do
    IO.println delivery.line
  (← IO.getStdout).flush
  return { d with journal := [] }

/-- Runs rounds until the daemon has run for as long as it should. -/
partial def run (d : Daemon) : IO Daemon := do
  if d.isOver then return d
  IO.sleep (UInt32.ofNat Daemon.roundLength)
  run (← printRecords d.round)

/-- Prints how the program ends and gives the exit code. -/
def finish (ending : Ending) : IO UInt32 := do
  IO.print ending.output
  IO.eprint ending.complaint
  return UInt32.ofNat ending.code

end FleetScaler.Program

open FleetScaler in
/-- The program. -/
def main (arguments : List String) : IO UInt32 := do
  let files ← Program.filesFor arguments
  match Daemon.start arguments files with
  | .error e =>
    match e.ending Program.name with
    | .error failure => throw (IO.userError failure.message)
    | .ok ending => Program.finish ending
  | .ok .help => Program.finish { output := CommandLine.usage Program.name }
  | .ok (.run daemon) =>
    let daemon ← Program.run (← Program.printRecords daemon.quiesce)
    let _ ← Program.printRecords daemon.shutDown
    Program.finish {}
