/-!
# Numbers on the command line

A number may have blanks and one sign in front of it, and nothing behind it. Its magnitude has to
fit 64 bits; a minus sign then counts down from zero around the 64-bit circle, and of the result
the lowest 32 bits are kept.
-/

namespace FleetScaler.CommandLine

/-- The blanks that may stand before a number. -/
def isLeadingBlank (c : Char) : Bool :=
  c = ' ' || c = '\t' || c = '\n' || c = '\x0b' || c = '\x0c' || c = '\r'

/-- The magnitude that a row of decimal digits denotes, if there is at least one and only digits. -/
def magnitude? (cs : List Char) : Option Nat :=
  if cs ≠ [] ∧ cs.all (fun c => '0' ≤ c && c ≤ '9') then
    some (cs.foldl (fun n c => 10 * n + (c.toNat - 48)) 0)
  else none

/-- A sign, if there is one, and what follows it; the flag says whether it is a minus sign. -/
def splitSign : List Char → Bool × List Char
  | '-' :: rest => (true, rest)
  | '+' :: rest => (false, rest)
  | cs => (false, cs)

/-- The 32-bit number that a text denotes. -/
def word? (s : String) : Option UInt32 :=
  let (negative, digits) := splitSign (s.toList.dropWhile isLeadingBlank)
  match magnitude? digits with
  | none => none
  | some n =>
    if Nat.pow 2 64 ≤ n then none
    else if negative then some (UInt32.ofNat ((Nat.pow 2 64 - n) % Nat.pow 2 64))
    else some (UInt32.ofNat n)

end FleetScaler.CommandLine
