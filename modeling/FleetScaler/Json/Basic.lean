/-!
# JSON values

A value as the reader hands it on. Numbers keep the form in which they were written, since the
rest of the library asks for integers and must not mistake `1.0` or `1e3` for one: a whole number
without a minus sign is `unsigned`, one with a minus sign is `signed`, and everything else is a
`decimal`, kept exactly.

The fields of an object stay in the order of the text. Where a key is repeated the last one counts,
which is what `Json.get?` says.
-/

namespace FleetScaler

/-- A JSON value. -/
inductive Json where
  | null
  | bool (b : Bool)
  /-- A whole number written without a minus sign. -/
  | unsigned (n : Nat)
  /-- A whole number written with a minus sign, or one that comes from signed data. -/
  | signed (i : Int)
  /-- Any other number, as `significand * 10 ^ exponent`. -/
  | decimal (significand exponent : Int)
  | text (s : String)
  | array (items : List Json)
  | object (fields : List (String × Json))
  deriving Inhabited, Repr, BEq

namespace Json

/-- The value under `key` in a list of fields; of several, the last. -/
def lookup (key : String) : List (String × Json) → Option Json
  | [] => none
  | (k, v) :: rest =>
    match lookup key rest with
    | some w => some w
    | none => if k = key then some v else none

/-- The value of the object under `key`; nothing for any other kind of value. -/
def get? (key : String) : Json → Option Json
  | object fields => lookup key fields
  | _ => none

/-- The whole number that the value holds, if it is one. -/
def int? : Json → Option Int
  | unsigned n => some n
  | signed i => some i
  | _ => none

/-- The text that the value holds, if it is one. -/
def text? : Json → Option String
  | text s => some s
  | _ => none

/-- The truth value that the value holds, if it is one. -/
def bool? : Json → Option Bool
  | bool b => some b
  | _ => none

/-- The items of the value, if it is an array. -/
def items? : Json → Option (List Json)
  | array items => some items
  | _ => none

/-- The value is an object. -/
def isObject : Json → Bool
  | object _ => true
  | _ => false

/-! ## Lookups -/

@[simp] theorem lookup_nil (key : String) : lookup key [] = none := rfl

/-- A field at the end hides every earlier one with the same key. -/
theorem lookup_append_singleton (key k : String) (v : Json) (fields : List (String × Json)) :
    lookup key (fields ++ [(k, v)]) = if k = key then some v else lookup key fields := by
  induction fields with
  | nil => simp [lookup]
  | cons field rest ih =>
    obtain ⟨k', v'⟩ := field
    simp only [List.cons_append, lookup, ih]
    by_cases h : k = key <;> simp [h]

end Json

end FleetScaler
