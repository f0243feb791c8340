import FleetScaler.Calendar
import FleetScaler.Json.Quoted
import FleetScaler.Log.Level

/-!
# Log entries and their lines

A `Record` is what a part of the program has to say; an `Entry` is a record with the time and the
thread of its writing. An entry is written as one line, either as a JSON object or as plain text.

The line breaks off at the millisecond. For a time before 1970 the seconds are cut toward zero and
what is left over is negative; it is printed as the number it is.
-/

namespace FleetScaler.Log

/-- What is logged: a message of some part of the program, with named values beside it. -/
structure Record where
  level : Level
  source : String
  message : String
  context : List (String × String) := []
  deriving DecidableEq, Repr

/-- A record with the time, in milliseconds since 1970, and the thread of its writing. -/
structure Entry extends Record where
  timestamp : Int
  threadId : String
  deriving DecidableEq, Repr

namespace Entry

/-- The second that the time of the entry falls in, cut toward zero. -/
def dateTime (e : Entry) : DateTime := DateTime.ofSeconds (e.timestamp.tdiv 1000)

/-- The time as `YYYY-MM-DDThh:mm:ss.mmmZ`. -/
def timestampChars (e : Entry) : List Char :=
  e.dateTime.dateChars ++ 'T' :: e.dateTime.timeChars ++
    '.' :: zeroFilled 3 (e.timestamp.tmod 1000) ++ ['Z']

/-- A string of a log line with its quotes. -/
def quoted (s : String) : List Char := Json.quote Json.Letters.logLine s

/-- A field of a JSON line whose value is a text. -/
def field (key value : String) : List Char := quoted key ++ ':' :: quoted value

/-- The named values as fields of a JSON object. -/
def contextFields (context : List (String × String)) : List Char :=
  List.intercalate [','] (context.map fun (key, value) => field key value)

/-- The named values as a last field of a JSON line; nothing if there are none. -/
def contextPart : List (String × String) → List Char
  | [] => []
  | context => ',' :: quoted "context" ++ ':' :: '\x7b' :: contextFields context ++ ['\x7d']

/-- The fields of a JSON line that follow its time, without the closing brace. -/
def jsonFields (e : Entry) : List Char :=
  field "level" e.level.name ++ ',' :: field "module" e.source ++
    ',' :: field "thread_id" e.threadId ++ ',' :: field "message" e.message ++
    contextPart e.context

/-- The entry as a JSON object on one line. -/
def jsonLine (e : Entry) : String :=
  String.ofList ('\x7b' :: quoted "timestamp" ++ ':' :: '"' :: e.timestampChars ++ '"' ::
    ',' :: e.jsonFields ++ ['\x7d'])

/-- The named values behind a plain message; nothing if there are none. -/
def contextText : List (String × String) → String
  | [] => ""
  | context =>
    " \x7b" ++ String.intercalate ", " (context.map fun (key, value) => key ++ "=" ++ value) ++
      "\x7d"

/-- The entry as a line of plain text. -/
def textLine (e : Entry) : String :=
  "[" ++ String.ofList (e.dateTime.dateChars ++ ' ' :: e.dateTime.timeChars) ++ "] [" ++
    e.level.name ++ "] [" ++ e.source ++ "] " ++ e.message ++ contextText e.context

end Entry

/-! ## Journals -/

/-- The records that a part of the program has written and nobody has collected yet, newest first. -/
abbrev Journal := List Record

namespace Journal

/-- Writes one more record. -/
def add (journal : Journal) (level : Level) (source message : String)
    (context : List (String × String) := []) : Journal :=
  { level, source, message, context } :: journal

/-- The records in the order of their writing. -/
def records (journal : Journal) : List Record := journal.reverse

end Journal

end FleetScaler.Log
