/-!
# Log levels

A level is a number, and a larger number is more severe. Six of them have a name; a configuration
names them, and any other number is legal in an entry.
-/

namespace FleetScaler.Log

/-- How severe a log entry is. -/
structure Level where
  code : Int
  deriving DecidableEq, Repr, Inhabited

namespace Level

def trace : Level := ⟨0⟩
def debug : Level := ⟨1⟩
def info : Level := ⟨2⟩
def warn : Level := ⟨3⟩
def error : Level := ⟨4⟩
def critical : Level := ⟨5⟩

/-- The name of a level in a log line. -/
def name (level : Level) : String :=
  if level = trace then "TRACE"
  else if level = debug then "DEBUG"
  else if level = info then "INFO"
  else if level = warn then "WARN"
  else if level = error then "ERROR"
  else if level = critical then "CRITICAL"
  else "UNKNOWN"

/-- The level that a configuration names. Letters count alike in both cases, ASCII letters only. -/
def parse? (s : String) : Option Level :=
  match s.toList.map Char.toLower with
  | ['t', 'r', 'a', 'c', 'e'] => some trace
  | ['d', 'e', 'b', 'u', 'g'] => some debug
  | ['i', 'n', 'f', 'o'] => some info
  | ['w', 'a', 'r', 'n'] => some warn
  | ['w', 'a', 'r', 'n', 'i', 'n', 'g'] => some warn
  | ['e', 'r', 'r', 'o', 'r'] => some error
  | ['c', 'r', 'i', 't', 'i', 'c', 'a', 'l'] => some critical
  | _ => none

/-- An entry of this level passes a logger whose threshold is `threshold`. -/
def passes (level threshold : Level) : Bool := threshold.code ≤ level.code

end Level

end FleetScaler.Log
