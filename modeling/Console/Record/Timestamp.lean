import Console.Json.Value

/-! # Time stamps

    A time stamp counts microseconds since the start of 1970 in UTC, between the first
    day of the year -262143 and the last day of the year 262142. Packets give it in
    milliseconds, whole or fractional; messages write it as a calendar date.
-/

namespace Console

/-- The microseconds of the earliest time stamp. -/
def earliestMicros : Int := -8334601228800000000

/-- The microseconds of the latest time stamp. -/
def latestMicros : Int := 8210266876799999999

/-- A moment, in microseconds since the start of 1970. -/
structure Timestamp where
  micros : Int
  inRange : earliestMicros ≤ micros ∧ micros ≤ latestMicros
  deriving DecidableEq

namespace Timestamp

/-- The start of 1970. -/
def epoch : Timestamp := ⟨0, by decide⟩

instance : Inhabited Timestamp := ⟨epoch⟩

/-- The time stamp of a number of microseconds in range. -/
def ofMicros? (micros : Int) : Option Timestamp :=
  if h : earliestMicros ≤ micros ∧ micros ≤ latestMicros then some ⟨micros, h⟩ else none

/-- A thousand, as a number. -/
def thousand : Binary64 := Binary64.ofInt 1000

/-- The time stamp of a number of milliseconds: the product by a thousand is rounded to
    binary64 and then to the nearest microsecond, a half away from zero. -/
def ofMillis? (ms : Binary64) : Option Timestamp :=
  match ms.mul thousand with
  | .finite x => ofMicros? x.roundAway
  | _ => none

/-- The milliseconds as JSON: an integer, unless there are microseconds left over. -/
def toJson (t : Timestamp) : Json :=
  -- whole milliseconds stay integers
  if t.micros % 1000 = 0 then .int (t.micros / 1000)
  else .real (((Binary64.ofInt t.micros).div thousand).getD .zero)

/-! ### Calendar dates -/

/-- A day of the proleptic Gregorian calendar. -/
structure Date where
  year : Int
  month : Nat
  day : Nat

/-- The date of a day, counted from the first of January 1970. Years are reckoned from
    March, so that a leap day ends one; four hundred of them are 146097 days. -/
def Date.ofDays (days : Int) : Date :=
  let shifted := days + 719468
  let era := shifted / 146097
  let dayOfEra := (shifted % 146097).toNat
  let yearOfEra := (dayOfEra - dayOfEra / 1460 + dayOfEra / 36524 - dayOfEra / 146096) / 365
  let dayOfYear := dayOfEra - (365 * yearOfEra + yearOfEra / 4 - yearOfEra / 100)
  let fromMarch := (5 * dayOfYear + 2) / 153
  let month := if fromMarch < 10 then fromMarch + 3 else fromMarch - 9
  { year := yearOfEra + era * 400 + (if month ≤ 2 then 1 else 0)
    month := month
    day := dayOfYear - (153 * fromMarch + 2) / 5 + 1 }

/-- The number `n` in decimal, with zeros in front up to the given width. -/
def padded (width n : Nat) : String :=
  let text := toString n
  "".pushn '0' (width - text.length) ++ text

/-- The year in four digits; outside 0 to 9999 it has a sign. -/
def yearText (year : Int) : String :=
  if 0 ≤ year ∧ year ≤ 9999 then padded 4 year.toNat
  else (if year < 0 then "-" else "+") ++ padded 4 year.natAbs

/-- The fraction of a second: none, milliseconds or microseconds. -/
def fractionText (micros : Nat) : String :=
  if micros = 0 then ""
  else if micros % 1000 = 0 then "." ++ padded 3 (micros / 1000)
  else "." ++ padded 6 micros

/-- The date and time in UTC: `2019-11-04T11:38:03.805Z`. -/
def text (t : Timestamp) : String :=
  let date := Date.ofDays (t.micros / 86400000000)
  let micros := (t.micros % 86400000000).toNat
  let seconds := micros / 1000000
  yearText date.year ++ "-" ++ padded 2 date.month ++ "-" ++ padded 2 date.day ++ "T"
    ++ padded 2 (seconds / 3600) ++ ":" ++ padded 2 (seconds / 60 % 60) ++ ":"
    ++ padded 2 (seconds % 60) ++ fractionText (micros % 1000000) ++ "Z"

end Timestamp

end Console
