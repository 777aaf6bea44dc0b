import Readback.Date.Text
/-!
# Reading date text

Two forms are read.  The first is a timestamp of the Internet: a four-digit year, any one-byte separator between day and
time, a fraction of a second of any length, and `Z` or an offset from it; a sixtieth second stands for the last
nanosecond of its minute where a leap second may fall.  The second has a signed six-digit year, exactly three digits of
fraction, and `Z`.  Either way the date is the number of whole milliseconds, cut toward 1970, and must be in range.
-/
namespace Readback.Date

open Text (isDigit digitValue valueOf)

-- Powers of natural numbers are those that come with the numbers, whatever other instances are there.
attribute [local instance (2000)] instPowNat

/-! ## Pieces -/

/-- Exactly `n` digits, and the rest. -/
def digits? (n : Nat) (cs : List Char) : Option (Nat × List Char) :=
  let ds := cs.take n
  if ds.length = n ∧ ds.all isDigit then some (valueOf ds, cs.drop n) else none

/-- The rest after one given character. -/
def after? (c : Char) : List Char → Option (List Char)
  | d :: cs => if d = c then some cs else none
  | []      => none

/-- `HH:MM:SS`, and the rest. -/
def hms? (cs : List Char) : Option (Nat × Nat × Nat × List Char) := do
  let (hour, cs) ← digits? 2 cs
  let cs ← after? ':' cs
  let (minute, cs) ← digits? 2 cs
  let cs ← after? ':' cs
  let (second, cs) ← digits? 2 cs
  return (hour, minute, second, cs)

/-! ## Timestamps -/

/-- The nanoseconds that the digits of a fraction spell; from the tenth on they are nothing. -/
def nanosOf (ds : List Char) : Nat := valueOf (ds.take 9) * 10 ^ (9 - (ds.take 9).length)

/-- A point with at least one digit, or nothing; and the rest. -/
def fraction? : List Char → Option (Nat × List Char)
  | '.' :: cs =>
    let ds := cs.takeWhile isDigit
    if ds = [] then none else some (nanosOf ds, cs.dropWhile isDigit)
  | cs => some (0, cs)

/-- The offset from UTC in minutes, at the end of the text. -/
def offset? : List Char → Option Int
  | ['Z']     => some 0
  | ['z']     => some 0
  | '+' :: cs => (minutes? cs).map (fun m => (m : Int))
  | '-' :: cs => (minutes? cs).map (fun m => -(m : Int))
  | _         => none
where
  minutes? (cs : List Char) : Option Nat := do
    let (hour, cs) ← digits? 2 cs
    let cs ← after? ':' cs
    let (minute, cs) ← digits? 2 cs
    if cs = [] ∧ hour ≤ 23 ∧ minute ≤ 59 then return hour * 60 + minute else none

/-- The last nanosecond of a month in UTC, which a leap second may follow. -/
def endsMonth (instant : Int) : Bool :=
  instant % dayNanos == dayNanos - 1 && (Day.ofNumber (instant / dayNanos + 1)).day == 1

/-- A one-byte separator, and the rest. -/
def separator? : List Char → Option (List Char)
  | c :: cs => if c.utf8Size = 1 then some cs else none
  | []      => none

def timestamp? (cs : List Char) : Option Int := do
  let (year, cs) ← digits? 4 cs
  let cs ← after? '-' cs
  let (month, cs) ← digits? 2 cs
  let cs ← after? '-' cs
  let (day, cs) ← digits? 2 cs
  let cs ← separator? cs
  let (hour, minute, second, cs) ← hms? cs
  let (nano, cs) ← fraction? cs
  let offset ← offset? cs
  let date : Day := ⟨year, month, day⟩
  let clock : Clock := if second = 60 then ⟨hour, minute, 59, 999999999⟩ else ⟨hour, minute, second, nano⟩
  let instant := instantOf date clock - offset * 60000000000
  if date.Real ∧ clock.Real ∧ (second = 60 → endsMonth instant = true) then return instant else none

/-! ## Signed years -/

/-- Two characters read as a number, of which the first may be a plus sign. -/
def pair? : List Char → Option Nat
  | ['+', d] => if isDigit d then some (digitValue d) else none
  | [c, d]   => if isDigit c ∧ isDigit d then some (valueOf [c, d]) else none
  | _        => none

/-- What stands before and after the first place of a character. -/
def cut? (c : Char) (cs : List Char) : Option (List Char × List Char) :=
  match cs.span (· != c) with
  | (before, _ :: rest) => some (before, rest)
  | (_, [])             => none

def signedYear? : List Char → Option (Int × List Char)
  | '+' :: cs => (digits? 6 cs).map (fun (year, cs) => ((year : Int), cs))
  | '-' :: cs => (digits? 6 cs).map (fun (year, cs) => (-(year : Int), cs))
  | _         => none

def longYear? (cs : List Char) : Option Int := do
  let (year, cs) ← signedYear? cs
  let cs ← after? '-' cs
  let (date, cs) ← cut? 'T' cs
  let (month, day) ← cut? '-' date
  let month ← pair? month
  let day ← pair? day
  let (hour, minute, second, cs) ← hms? cs
  let cs ← after? '.' cs
  let (milli, cs) ← digits? 3 cs
  let date : Day := ⟨year, month, day⟩
  let clock : Clock := ⟨hour, minute, second, milli * 1000000⟩
  if cs = ['Z'] ∧ date.Real ∧ clock.Real then return instantOf date clock else none

/-- The milliseconds that a date text denotes. -/
def read? (text : String) : Option Int :=
  (((timestamp? text.toList).or (longYear? text.toList)).map (fun nanos => nanos.tdiv 1000000)).filter
    (fun t => t.natAbs ≤ maxMillis)

end Readback.Date
