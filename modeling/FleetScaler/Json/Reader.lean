import FleetScaler.Json.Basic
import FleetScaler.Json.Quoted

/-!
# Reading JSON

A strict reader: no comments, no trailing commas, no leading zeros, and only space, tab, line feed
and carriage return between tokens. It fails at the first fault in the order of the text, and there
are two kinds of fault: the text is not JSON, or a number is too large for a double-precision
float. `parse` asks for one value and nothing after it; `parseFirst` stops after the first value.
A NUL character between two tokens ends the text, whatever follows it.

The recursion runs on fuel. Every character opens at most one array or object, and each level
spends two units, so twice the length of the text is enough.
-/

namespace FleetScaler.Json

/-- Why a text could not be read. -/
inductive ReadError where
  /-- The text is not JSON. -/
  | malformed
  /-- A number rounds to no finite double-precision float. -/
  | numberTooLarge
  deriving DecidableEq, Repr

/-- The wording of a read error, which names neither the place nor the kind. -/
def ReadError.message (_ : ReadError) : String := "<json library text>"

/-- The characters that may stand between two tokens. -/
def isBlank (c : Char) : Bool := c = ' ' || c = '\t' || c = '\n' || c = '\r'

/-- What follows the blanks at the front. -/
def skipBlank : List Char → List Char
  | [] => []
  | c :: rest => if isBlank c then skipBlank rest else c :: rest

/-! ## Numbers -/

/-- A decimal digit. -/
def isDigit (c : Char) : Bool := '0' ≤ c && c ≤ '9'

/-- The number that a row of digits denotes, continuing from `n`. -/
def digitsValue (n : Nat) (ds : List Char) : Nat :=
  ds.foldl (fun n d => 10 * n + (d.toNat - 48)) n

/-- The longest row of digits at the front, and what follows it. -/
def spanDigits (cs : List Char) : List Char × List Char :=
  (cs.takeWhile isDigit, cs.dropWhile isDigit)

/-- The whole part: one zero, or digits that do not start with a zero. -/
def wholePart : List Char → Option (List Char × List Char)
  | [] => none
  | '0' :: rest => some (['0'], rest)
  | c :: rest => if isDigit c then some (spanDigits (c :: rest)) else none

/-- The digits behind a point, if there is one; at least one digit must follow it. -/
def fraction : List Char → Option (List Char × List Char)
  | '.' :: rest =>
    match spanDigits rest with
    | ([], _) => none
    | (ds, rest) => some (ds, rest)
  | cs => some ([], cs)

/-- The digits of an exponent: at least one. -/
def exponentDigits (cs : List Char) : Option (Nat × List Char) :=
  match spanDigits cs with
  | ([], _) => none
  | (ds, rest) => some (digitsValue 0 ds, rest)

/-- The signed digits behind the mark of an exponent. -/
def signedExponent : List Char → Option (Int × List Char)
  | '-' :: rest => (exponentDigits rest).map fun (n, r) => (-(n : Int), r)
  | '+' :: rest => (exponentDigits rest).map fun (n, r) => ((n : Int), r)
  | cs => (exponentDigits cs).map fun (n, r) => ((n : Int), r)

/-- The exponent, if there is one. -/
def exponent? : List Char → Option (Option Int × List Char)
  | 'e' :: rest => (signedExponent rest).map fun (n, r) => (some n, r)
  | 'E' :: rest => (signedExponent rest).map fun (n, r) => (some n, r)
  | cs => some (none, cs)

/--
The least magnitude that rounds to no finite double: the largest finite one is `2^1024 - 2^971`,
and a value half a unit above it already rounds up, ties going to the even side.
-/
def doubleLimit : Nat := Nat.pow 2 1024 - Nat.pow 2 970

/--
`significand * 10 ^ exponent` rounds to a finite double. The count of digits settles all but one
order of magnitude, so no power of ten is formed that is longer than the number itself.
-/
def isFinite (significand : Nat) (exponent : Int) : Bool :=
  if significand = 0 then true
  else
    let places := (Nat.toDigits 10 significand).length + exponent
    if places ≤ 308 then true
    else if 309 < places then false
    else significand * Nat.pow 10 exponent.toNat < doubleLimit * Nat.pow 10 (-exponent).toNat

/-- The value of a number from its parts. -/
def numberValue (negative : Bool) (whole frac : List Char) (exp : Option Int) :
    Except ReadError Json :=
  let significand := digitsValue 0 (whole ++ frac)
  let sign : Int → Int := fun i => if negative then -i else i
  match frac, exp with
  | [], none =>
    if negative && significand ≤ Nat.pow 2 63 then .ok (.signed (-significand))
    else if !negative && significand < Nat.pow 2 64 then .ok (.unsigned significand)
    else if isFinite significand 0 then .ok (.decimal (sign significand) 0)
    else .error .numberTooLarge
  | _, _ =>
    let exponent := exp.getD 0 - frac.length
    if isFinite significand exponent then .ok (.decimal (sign significand) exponent)
    else .error .numberTooLarge

/-- Reads a number without its sign. -/
def readMagnitude (negative : Bool) (cs : List Char) : Except ReadError (Json × List Char) :=
  match wholePart cs with
  | none => .error .malformed
  | some (whole, rest) =>
    match fraction rest with
    | none => .error .malformed
    | some (frac, rest) =>
      match exponent? rest with
      | none => .error .malformed
      | some (exp, rest) =>
        match numberValue negative whole frac exp with
        | .error e => .error e
        | .ok v => .ok (v, rest)

/-- Reads a number. -/
def readNumber : List Char → Except ReadError (Json × List Char)
  | '-' :: rest => readMagnitude true rest
  | cs => readMagnitude false cs

/-! ## Values -/

/-- Reads a value that holds no other: a literal or a number. -/
def readScalar : List Char → Except ReadError (Json × List Char)
  | 't' :: 'r' :: 'u' :: 'e' :: rest => .ok (.bool true, rest)
  | 'f' :: 'a' :: 'l' :: 's' :: 'e' :: rest => .ok (.bool false, rest)
  | 'n' :: 'u' :: 'l' :: 'l' :: rest => .ok (.null, rest)
  | cs => readNumber cs

mutual

/-- Reads a value that starts at the first character. -/
def readValue : Nat → List Char → Except ReadError (Json × List Char)
  | 0, _ => .error .malformed
  | fuel + 1, cs =>
    match cs with
    | '"' :: rest =>
      match decode rest with
      | none => .error .malformed
      | some (s, rest) => .ok (.text (String.ofList s), rest)
    | '[' :: rest =>
      match skipBlank rest with
      | ']' :: rest => .ok (.array [], rest)
      | rest =>
        match readItems fuel rest with
        | .error e => .error e
        | .ok (items, rest) => .ok (.array items, rest)
    | '\x7b' :: rest =>
      match skipBlank rest with
      | '\x7d' :: rest => .ok (.object [], rest)
      | rest =>
        match readFields fuel rest with
        | .error e => .error e
        | .ok (fields, rest) => .ok (.object fields, rest)
    | cs => readScalar cs

/-- Reads the items of an array, the first of which starts at the first character. -/
def readItems : Nat → List Char → Except ReadError (List Json × List Char)
  | 0, _ => .error .malformed
  | fuel + 1, cs =>
    match readValue fuel cs with
    | .error e => .error e
    | .ok (item, rest) =>
      match skipBlank rest with
      | ']' :: rest => .ok ([item], rest)
      | ',' :: rest =>
        match readItems fuel (skipBlank rest) with
        | .error e => .error e
        | .ok (items, rest) => .ok (item :: items, rest)
      | _ => .error .malformed

/-- Reads the fields of an object, the first of which starts at the first character. -/
def readFields : Nat → List Char → Except ReadError (List (String × Json) × List Char)
  | 0, _ => .error .malformed
  | fuel + 1, cs =>
    match cs with
    | '"' :: rest =>
      match decode rest with
      | none => .error .malformed
      | some (key, rest) =>
        match skipBlank rest with
        | ':' :: rest =>
          match readValue fuel (skipBlank rest) with
          | .error e => .error e
          | .ok (v, rest) =>
            match skipBlank rest with
            | '\x7d' :: rest => .ok ([(String.ofList key, v)], rest)
            | ',' :: rest =>
              match readFields fuel (skipBlank rest) with
              | .error e => .error e
              | .ok (fields, rest) => .ok ((String.ofList key, v) :: fields, rest)
            | _ => .error .malformed
        | _ => .error .malformed
    | _ => .error .malformed

end

/-- The text without a byte order mark at its very start. -/
def withoutMark : List Char → List Char
  | '\uFEFF' :: rest => rest
  | cs => cs

/-- Fuel that no text of this length uses up. -/
def fuelFor (cs : List Char) : Nat := 2 * cs.length + 2

/-- The first value of a text and what follows it. -/
def readFirst (s : String) : Except ReadError (Json × List Char) :=
  let cs := skipBlank (withoutMark s.toList)
  readValue (fuelFor cs) cs

/-- The value at the start of a text, whatever follows it. -/
def parseFirst (s : String) : Except ReadError Json :=
  (readFirst s).map (·.1)

/-- No token follows: only blanks, up to the end of the text or to a NUL character. -/
def isAtEnd (cs : List Char) : Bool :=
  match skipBlank cs with
  | [] => true
  | c :: _ => c = '\x00'

/-- The value of a text that holds one value and no token after it. -/
def parse (s : String) : Except ReadError Json :=
  match readFirst s with
  | .error e => .error e
  | .ok (v, rest) => if isAtEnd rest then .ok v else .error .malformed

end FleetScaler.Json
