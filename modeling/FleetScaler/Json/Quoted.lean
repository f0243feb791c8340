/-!
# Quoted text

How characters are written between the quotes of a JSON string. The quotation mark, the backslash
and the characters below U+0020 cannot stand for themselves; some of them have a letter of their
own (`\n`), the others are written as four hexadecimal digits (`\u001f`). Which ones have a letter
is a choice of the writer, made in a `Letters` value; a reader accepts every choice.
-/

namespace FleetScaler.Json

/-- Which of the characters that need an escape have a letter of their own. -/
abbrev Letters := Char → Option Char

/-- The letters of a saved document: every letter that JSON has for a character that needs one. -/
def Letters.document : Letters
  | '"' => some '"'
  | '\\' => some '\\'
  | '\x08' => some 'b'
  | '\x0c' => some 'f'
  | '\n' => some 'n'
  | '\r' => some 'r'
  | '\t' => some 't'
  | _ => none

/-- The letters of a log line, which has none for backspace and form feed. -/
def Letters.logLine : Letters
  | '"' => some '"'
  | '\\' => some '\\'
  | '\n' => some 'n'
  | '\r' => some 'r'
  | '\t' => some 't'
  | _ => none

/-- The character that the letter after a backslash stands for. -/
def unletter? : Char → Option Char
  | '"' => some '"'
  | '\\' => some '\\'
  | '/' => some '/'
  | 'b' => some '\x08'
  | 'f' => some '\x0c'
  | 'n' => some '\n'
  | 'r' => some '\r'
  | 't' => some '\t'
  | _ => none

/-- A hexadecimal digit, in lower case. -/
def hexDigit (n : Nat) : Char :=
  if n < 10 then Char.ofNat (48 + n) else Char.ofNat (87 + n)

/-- The value of a hexadecimal digit of either case. -/
def hexValue? (c : Char) : Option Nat :=
  if '0' ≤ c ∧ c ≤ '9' then some (c.toNat - 48)
  else if 'a' ≤ c ∧ c ≤ 'f' then some (c.toNat - 87)
  else if 'A' ≤ c ∧ c ≤ 'F' then some (c.toNat - 55)
  else none

/-- The value of four hexadecimal digits. -/
def hexUnit? (a b c d : Char) : Option Nat := do
  let a ← hexValue? a
  let b ← hexValue? b
  let c ← hexValue? c
  let d ← hexValue? d
  return ((a * 16 + b) * 16 + c) * 16 + d

/-- One character as it stands between the quotes. -/
def encodeChar (letters : Letters) (c : Char) : List Char :=
  match letters c with
  | some l => ['\\', l]
  | none =>
    if c.toNat < 0x20 then ['\\', 'u', '0', '0', hexDigit (c.toNat / 16), hexDigit (c.toNat % 16)]
    else [c]

/-- A text as it stands between the quotes. -/
def encode (letters : Letters) (s : List Char) : List Char :=
  s.flatMap (encodeChar letters)

/-- A text with its quotes. -/
def quote (letters : Letters) (s : String) : List Char :=
  '"' :: encode letters s.toList ++ ['"']

/-- A unit that opens a pair standing for one character beyond U+FFFF. -/
def isHighUnit (n : Nat) : Bool := 0xD800 ≤ n && n < 0xDC00

/-- A unit that closes such a pair. -/
def isLowUnit (n : Nat) : Bool := 0xDC00 ≤ n && n < 0xE000

/-- The character of a pair of units. -/
def pairChar (high low : Nat) : Char :=
  Char.ofNat (0x10000 + (high - 0xD800) * 0x400 + (low - 0xDC00))

/--
Reads up to the closing quote: the text and what follows the quote. Nothing is read where a
character below U+0020 stands for itself, an escape is unknown, half a pair stands alone, or the
quote is missing.
-/
def decode : List Char → Option (List Char × List Char)
  | [] => none
  | '"' :: rest => some ([], rest)
  | '\\' :: 'u' :: a :: b :: c :: d :: rest =>
    match hexUnit? a b c d with
    | none => none
    | some high =>
      if isHighUnit high then
        match rest with
        | '\\' :: 'u' :: e :: f :: g :: h :: rest' =>
          match hexUnit? e f g h with
          | none => none
          | some low =>
            if isLowUnit low then
              (decode rest').map fun (s, r) => (pairChar high low :: s, r)
            else none
        | _ => none
      else if isLowUnit high then none
      else (decode rest).map fun (s, r) => (Char.ofNat high :: s, r)
  | '\\' :: l :: rest =>
    match unletter? l with
    | none => none
    | some c => (decode rest).map fun (s, r) => (c :: s, r)
  | c :: rest =>
    if c.toNat < 0x20 ∨ c = '\\' then none
    else (decode rest).map fun (s, r) => (c :: s, r)

end FleetScaler.Json
