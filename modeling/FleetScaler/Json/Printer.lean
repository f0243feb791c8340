import FleetScaler.Json.Basic
import FleetScaler.Json.Quoted

/-!
# Writing JSON

A value is written in one of two layouts. That of a saved document has two spaces for each level,
one item or field a line, `[]` and `{}` for what is empty, and `": "` after a key; the other one has
no blanks and no line breaks. Fields are written in the order in which the value holds them;
whoever builds a value for saving puts them in order of their keys.
-/

namespace FleetScaler.Json

/-- A line break and the blanks of a level. -/
def lineBreak (level : Nat) : List Char := '\n' :: List.replicate (2 * level) ' '

/-- A whole number in decimal digits. -/
def intChars (i : Int) : List Char :=
  if i < 0 then '-' :: Nat.toDigits 10 i.natAbs else Nat.toDigits 10 i.natAbs

mutual

/-- A value on the given level. -/
def write (level : Nat) : Json → List Char
  | .null => "null".toList
  | .bool true => "true".toList
  | .bool false => "false".toList
  | .unsigned n => Nat.toDigits 10 n
  | .signed i => intChars i
  | .decimal significand exponent => intChars significand ++ 'e' :: intChars exponent
  | .text s => quote Letters.document s
  | .array [] => ['[', ']']
  | .array (item :: items) =>
    '[' :: lineBreak (level + 1) ++ write (level + 1) item ++ writeItems level items
  | .object [] => ['\x7b', '\x7d']
  | .object ((key, value) :: fields) =>
    '\x7b' :: lineBreak (level + 1) ++ quote Letters.document key ++ ':' :: ' ' ::
      write (level + 1) value ++ writeFields level fields

/-- The items after the first, and the closing bracket. -/
def writeItems (level : Nat) : List Json → List Char
  | [] => lineBreak level ++ [']']
  | item :: items =>
    ',' :: lineBreak (level + 1) ++ write (level + 1) item ++ writeItems level items

/-- The fields after the first, and the closing brace. -/
def writeFields (level : Nat) : List (String × Json) → List Char
  | [] => lineBreak level ++ ['\x7d']
  | (key, value) :: fields =>
    ',' :: lineBreak (level + 1) ++ quote Letters.document key ++ ':' :: ' ' ::
      write (level + 1) value ++ writeFields level fields

end

/-- The text of a value in the layout of a saved document. -/
def print (v : Json) : String := String.ofList (write 0 v)

/-! ## On one line -/

mutual

/-- A value without blanks and line breaks. -/
def writeLine : Json → List Char
  | .array [] => ['[', ']']
  | .array (item :: items) => '[' :: writeLine item ++ writeLineItems items
  | .object [] => ['\x7b', '\x7d']
  | .object ((key, value) :: fields) =>
    '\x7b' :: quote Letters.document key ++ ':' :: writeLine value ++ writeLineFields fields
  | scalar => write 0 scalar

/-- The items after the first, and the closing bracket. -/
def writeLineItems : List Json → List Char
  | [] => [']']
  | item :: items => ',' :: writeLine item ++ writeLineItems items

/-- The fields after the first, and the closing brace. -/
def writeLineFields : List (String × Json) → List Char
  | [] => ['\x7d']
  | (key, value) :: fields =>
    ',' :: quote Letters.document key ++ ':' :: writeLine value ++ writeLineFields fields

end

/-- The text of a value on one line. -/
def line (v : Json) : String := String.ofList (writeLine v)

end FleetScaler.Json
