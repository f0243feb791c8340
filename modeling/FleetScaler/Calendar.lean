/-!
# Calendar dates and times of day

The Gregorian calendar, counted in days from 1970-01-01. A year is taken to begin in March, so that
the leap day is the last day of its year and the months before it have fixed lengths; four hundred
such years form an era of 146097 days.
-/

namespace FleetScaler

/-- A calendar date. -/
structure Date where
  year : Int
  month : Int
  day : Int
  deriving DecidableEq, Repr

namespace Date

/-- The number of days from 1970-01-01 to a date. -/
def toDays (date : Date) : Int :=
  let year := if date.month ≤ 2 then date.year - 1 else date.year
  let month := if date.month ≤ 2 then date.month + 9 else date.month - 3
  365 * year + year / 4 - year / 100 + year / 400 + (153 * month + 2) / 5 + date.day - 719469

/-- The date that lies a number of days after 1970-01-01, or before it if the number is negative. -/
def ofDays (days : Int) : Date :=
  let shifted := days + 719468
  let era := shifted / 146097
  let dayOfEra := shifted % 146097
  let yearOfEra := (dayOfEra - dayOfEra / 1460 + dayOfEra / 36524 - dayOfEra / 146096) / 365
  let dayOfYear := dayOfEra - (365 * yearOfEra + yearOfEra / 4 - yearOfEra / 100)
  let month := (5 * dayOfYear + 2) / 153
  { year := era * 400 + yearOfEra + (if month < 10 then 0 else 1)
    month := if month < 10 then month + 3 else month - 9
    day := dayOfYear - (153 * month + 2) / 5 + 1 }

end Date

/-- A date and a time of day, in universal time and to the second. -/
structure DateTime where
  date : Date
  hour : Int
  minute : Int
  second : Int
  deriving DecidableEq, Repr

namespace DateTime

/-- The date and time a number of seconds after the start of 1970. -/
def ofSeconds (seconds : Int) : DateTime :=
  let rest := seconds % 86400
  { date := Date.ofDays (seconds / 86400)
    hour := rest / 3600
    minute := rest % 3600 / 60
    second := rest % 60 }

/-- The number of seconds from the start of 1970. -/
def toSeconds (t : DateTime) : Int :=
  t.date.toDays * 86400 + t.hour * 3600 + t.minute * 60 + t.second

end DateTime

/-- A whole number in decimal digits with a sign if it is negative, filled up with zeros on the left
to `width` characters. The sign counts as a character and stands behind the zeros. -/
def zeroFilled (width : Nat) (i : Int) : List Char :=
  let digits := Nat.toDigits 10 i.natAbs
  let signed := if i < 0 then '-' :: digits else digits
  List.replicate (width - signed.length) '0' ++ signed

namespace DateTime

/-- The date as `YYYY-MM-DD`. -/
def dateChars (t : DateTime) : List Char :=
  zeroFilled 4 t.date.year ++ '-' :: zeroFilled 2 t.date.month ++ '-' :: zeroFilled 2 t.date.day

/-- The time of day as `hh:mm:ss`. -/
def timeChars (t : DateTime) : List Char :=
  zeroFilled 2 t.hour ++ ':' :: zeroFilled 2 t.minute ++ ':' :: zeroFilled 2 t.second

end DateTime

end FleetScaler
