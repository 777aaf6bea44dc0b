/-!
# The calendar

The Gregorian calendar, extended to all years, and days counted from 1 January 1970.  Years are counted from March, so
that the leap day is the last of its year; four hundred of them make an era of 146097 days, and a day's place in its era
is read off by centuries, then by fours of years, then by years.
-/
namespace Readback

/-- A day of the calendar; a month and a day of a month count from one. -/
structure Day where
  year  : Int
  month : Nat
  day   : Nat
deriving DecidableEq, Inhabited

namespace Day

def isLeap (year : Int) : Bool := year % 4 == 0 && (year % 100 != 0 || year % 400 == 0)

def monthLength (year : Int) (month : Nat) : Nat :=
  if month = 2 then (if isLeap year then 29 else 28)
  else if month = 4 ∨ month = 6 ∨ month = 9 ∨ month = 11 then 30
  else 31

/-- The day is in the calendar. -/
def Real (d : Day) : Prop := 1 ≤ d.month ∧ d.month ≤ 12 ∧ 1 ≤ d.day ∧ d.day ≤ monthLength d.year d.month

instance (d : Day) : Decidable d.Real := inferInstanceAs (Decidable (_ ∧ _))

def eraDays : Nat := 146097

/-- From the first day of era zero, 1 March of the year zero, to the first day counted. -/
def epoch : Nat := 719468

/-- The year a day belongs to when years start in March. -/
def marchYear (d : Day) : Int := if d.month ≤ 2 then d.year - 1 else d.year

/-- Months passed since March, and the days in them. -/
def marchMonth (d : Day) : Nat := (d.month + 9) % 12

def daysBeforeMonth (marchMonth : Nat) : Nat := (153 * marchMonth + 2) / 5

def daysBeforeYear (yearOfEra : Nat) : Nat := yearOfEra * 365 + yearOfEra / 4 - yearOfEra / 100

/-- Days since 1 January 1970. -/
def number (d : Day) : Int :=
  d.marchYear / 400 * eraDays + daysBeforeYear (d.marchYear % 400).toNat + daysBeforeMonth d.marchMonth + d.day - 1 -
    epoch

/-- The year of its era that a day lies in, and its place in that year. -/
def yearOfEra (dayOfEra : Nat) : Nat × Nat :=
  let century := min (dayOfEra / 36524) 3
  let inCentury := dayOfEra - century * 36524
  let four := inCentury / 1461
  let inFour := inCentury - four * 1461
  let year := min (inFour / 365) 3
  (century * 100 + four * 4 + year, inFour - year * 365)

/-- The day that lies so many days after 1 January 1970. -/
def ofNumber (n : Int) : Day :=
  let fromEpoch := n + epoch
  let (year, dayOfYear) := yearOfEra (fromEpoch % eraDays).toNat
  let marchMonth := (5 * dayOfYear + 2) / 153
  let month := if marchMonth < 10 then marchMonth + 3 else marchMonth - 9
  let marchYear := fromEpoch / eraDays * 400 + year
  ⟨if month ≤ 2 then marchYear + 1 else marchYear, month, dayOfYear - daysBeforeMonth marchMonth + 1⟩

end Day

/-- A time of a day, to the nanosecond. -/
structure Clock where
  hour   : Nat
  minute : Nat
  second : Nat
  nano   : Nat
deriving DecidableEq, Inhabited

namespace Clock

/-- The time is one that a clock shows. -/
def Real (c : Clock) : Prop := c.hour ≤ 23 ∧ c.minute ≤ 59 ∧ c.second ≤ 59 ∧ c.nano ≤ 999999999

instance (c : Clock) : Decidable c.Real := inferInstanceAs (Decidable (_ ∧ _))

/-- Nanoseconds since midnight. -/
def nanos (c : Clock) : Nat := ((c.hour * 60 + c.minute) * 60 + c.second) * 1000000000 + c.nano

end Clock

def dayNanos : Nat := 86400000000000

/-- Nanoseconds since the first instant of 1970. -/
def instantOf (d : Day) (c : Clock) : Int := d.number * dayNanos + c.nanos

end Readback
