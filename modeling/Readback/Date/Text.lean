import Readback.Date.Calendar
import Readback.Number.Rounding
import Readback.Text.Digits
/-!
# Date text

A date is a number of milliseconds since the first instant of 1970.  It is written to the millisecond, as
`YYYY-MM-DDTHH:MM:SS.mmmZ`; a year below zero or above 9999 is written with its sign and six digits.  A number that is not
finite, or lies further than a hundred million days from the start, is no date and has no text.
-/
namespace Readback.Date

open Text (padded)

/-- A hundred million days. -/
def maxMillis : Nat := 8640000000000000

def yearText (year : Int) : List Char :=
  if 0 ≤ year ∧ year ≤ 9999 then padded 4 year.toNat
  else (if year < 0 then '-' else '+') :: padded 6 year.natAbs

def dayText (d : Day) : List Char := yearText d.year ++ '-' :: padded 2 d.month ++ '-' :: padded 2 d.day

/-- The time of day that lies so many milliseconds after midnight. -/
def clockText (millis : Nat) : List Char :=
  padded 2 (millis / 3600000) ++ ':' :: padded 2 (millis / 60000 % 60) ++ ':' :: padded 2 (millis / 1000 % 60) ++
    '.' :: padded 3 (millis % 1000)

/-- The text of a whole number of milliseconds. -/
def millisText (millis : Int) : List Char :=
  dayText (Day.ofNumber (millis / 86400000)) ++ 'T' :: clockText (millis % 86400000).toNat ++ ['Z']

/-- The whole milliseconds of a date, when it is one. -/
def millis? (time : Number) : Option Int := time.whole?.filter (fun t => t.natAbs ≤ maxMillis)

def text? (time : Number) : Option String := (millis? time).map (fun t => String.ofList (millisText t))

end Readback.Date
