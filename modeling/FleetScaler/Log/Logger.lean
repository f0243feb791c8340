import FleetScaler.Log.Entry

/-!
# The logger

The logger lets an entry through whose level reaches its threshold, and hands it to a sink as a
line. With asynchronous delivery on, an entry waits in a queue; a worker takes the oldest, holds it
for a moment and then outputs it. Switching asynchronous delivery off first lets the worker finish
and then outputs what is left, so the order in which entries were logged is the order in which the
sink sees them.

The level is looked at when an entry is logged, the format when it is output.
-/

namespace FleetScaler.Log

/-- A piece of a message: text, a number or a truth value, which prints as one digit. -/
inductive Part where
  | text (s : String)
  | number (i : Int)
  | flag (b : Bool)
  deriving DecidableEq, Repr

/-- The piece as it stands in the message. -/
def Part.render : Part → String
  | text s => s
  | number i => toString i
  | flag true => "1"
  | flag false => "0"

/-- A message from its pieces, one after the other. -/
def messageOf (parts : List Part) : String := String.join (parts.map Part.render)

/-- The source of a message that names none. -/
def generalSource : String := "general"

/-- The most entries that wait at a time; beyond it the oldest is dropped. -/
def queueLimit : Nat := 10000

/-- An entry that has reached the sink, with the line it was written as. -/
structure Delivery where
  entry : Entry
  line : String
  deriving DecidableEq, Repr

/-- A logger and what it has delivered so far, newest first. -/
structure Logger where
  threshold : Level := Level.info
  jsonFormat : Bool := false
  asynchronous : Bool := false
  /-- Entries that wait for the worker, oldest first. -/
  queue : List Entry := []
  /-- The entry that the worker has taken and not yet output. -/
  inHand : Option Entry := none
  sink : List Delivery := []
  deriving Repr

namespace Logger

/-- Entries of this level are let through. -/
def enabled (l : Logger) (level : Level) : Bool := level.passes l.threshold

/-- Debugging entries are let through. -/
def debugging (l : Logger) : Bool := l.enabled Level.debug

/-- The line of an entry in the format that is set now. -/
def lineOf (l : Logger) (e : Entry) : String :=
  if l.jsonFormat then e.jsonLine else e.textLine

/-- Hands an entry to the sink. -/
def deliver (l : Logger) (e : Entry) : Logger :=
  { l with sink := { entry := e, line := l.lineOf e } :: l.sink }

/-- Puts an entry into the queue, in place of the oldest one if the queue is full. -/
def enqueue (l : Logger) (e : Entry) : Logger :=
  let waiting := if queueLimit ≤ l.queue.length then l.queue.tail else l.queue
  { l with queue := waiting ++ [e] }

/-- Logs an entry. -/
def log (l : Logger) (e : Entry) : Logger :=
  if l.enabled e.level then
    if l.asynchronous then l.enqueue e else l.deliver e
  else l

/-- The worker takes the oldest entry that waits, if its hand is empty. -/
def take (l : Logger) : Logger :=
  match l.inHand, l.queue with
  | none, e :: rest => { l with inHand := some e, queue := rest }
  | _, _ => l

/-- The worker outputs the entry in its hand. -/
def output (l : Logger) : Logger :=
  match l.inHand with
  | some e => { l.deliver e with inHand := none }
  | none => l

/-- The worker works until nothing waits. -/
def drain (l : Logger) : Logger :=
  Nat.repeat (fun l => l.take.output) l.queue.length l.output

/-- Outputs the entry in hand and then all that wait. -/
def flush (l : Logger) : Logger :=
  let l := l.output
  { l.queue.foldl deliver l with queue := [] }

/-- Switches asynchronous delivery on or off; off means that nothing waits any more. -/
def setAsynchronous (l : Logger) (on : Bool) : Logger :=
  if on then { l with asynchronous := true }
  else if l.asynchronous then { l.flush with asynchronous := false }
  else l

/-- Sets the level below which entries are dropped. -/
def setThreshold (l : Logger) (level : Level) : Logger := { l with threshold := level }

/-- Sets the format of the lines to come. -/
def setJsonFormat (l : Logger) (on : Bool) : Logger := { l with jsonFormat := on }

end Logger

end FleetScaler.Log
