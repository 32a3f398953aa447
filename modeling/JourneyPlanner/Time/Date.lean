import JourneyPlanner.Text.Decimal

/-!
Dates of the proleptic Gregorian calendar. A date is the number of days since 1970-01-01; its year,
month and day of the month are computed with years that begin in March, so that the leap day is the
last of its year.
-/

namespace JourneyPlanner

structure Date where
  dayNumber : Int
deriving DecidableEq, Repr

/-- Year, month (1 to 12) and day of the month of a date. -/
structure YearMonthDay where
  year : Int
  month : Nat
  day : Nat
deriving DecidableEq, Repr

namespace Date

instance : LE Date := ⟨fun a b => a.dayNumber ≤ b.dayNumber⟩
instance : LT Date := ⟨fun a b => a.dayNumber < b.dayNumber⟩
instance (a b : Date) : Decidable (a ≤ b) :=
  inferInstanceAs (Decidable (a.dayNumber ≤ b.dayNumber))
instance (a b : Date) : Decidable (a < b) :=
  inferInstanceAs (Decidable (a.dayNumber < b.dayNumber))

def isLeapYear (year : Int) : Bool := (year % 4 == 0 && year % 100 != 0) || year % 400 == 0

def daysInMonth (year : Int) (month : Nat) : Nat :=
  if month = 2 then (if isLeapYear year then 29 else 28)
  else if month = 4 ∨ month = 6 ∨ month = 9 ∨ month = 11 then 30 else 31

/-- Days in a cycle of 400 years. -/
def daysPerCycle : Int := 146097

/-- Days from 0000-03-01 to 1970-01-01. -/
def daysToEpoch : Int := 719468

/-- The days of a year that begins in March before its month number `m`, March being 0. -/
def daysBeforeMonth (m : Int) : Int := (153 * m + 2) / 5

/-- The date of a valid year, month and day. -/
def ofYearMonthDay (c : YearMonthDay) : Date :=
  let month : Int := (c.month + 9) % 12
  let year : Int := if c.month ≤ 2 then c.year - 1 else c.year
  let inCycle := year % 400
  ⟨year / 400 * daysPerCycle + inCycle * 365 + inCycle / 4 - inCycle / 100 +
    daysBeforeMonth month + c.day - 1 - daysToEpoch⟩

/-- The date of a year, month and day, when it exists. -/
def ofYearMonthDay? (c : YearMonthDay) : Option Date :=
  if 1 ≤ c.month ∧ c.month ≤ 12 ∧ 1 ≤ c.day ∧ c.day ≤ daysInMonth c.year c.month then
    some (ofYearMonthDay c)
  else none

/-- Year, month and day of the month. -/
def yearMonthDay (d : Date) : YearMonthDay :=
  let n := d.dayNumber + daysToEpoch
  let cycle := n / daysPerCycle
  let inCycle := n % daysPerCycle
  let year := (inCycle - inCycle / 1460 + inCycle / 36524 - inCycle / 146096) / 365
  let inYear := inCycle - (365 * year + year / 4 - year / 100)
  let month := (5 * inYear + 2) / 153
  let day := inYear - daysBeforeMonth month + 1
  let inNextYear : Int := if month < 10 then 0 else 1
  { year := cycle * 400 + year + inNextYear
    month := ((month + 2) % 12 + 1).toNat
    day := day.toNat }

/-- The date `n` days later. -/
def addDays (d : Date) (n : Int) : Date := ⟨d.dayNumber + n⟩

/-- The number of days from `earlier` to `d`. -/
def daysSince (d earlier : Date) : Int := d.dayNumber - earlier.dayNumber

/-- The day of the week, Sunday being 0. -/
def weekday (d : Date) : Int := (d.dayNumber + 4) % 7

/-- A year has at least four digits, a minus sign before year 0, and a plus sign after year 9999. -/
def yearText (year : Int) : String :=
  if year < 0 then "-" ++ Text.padded 4 year.natAbs
  else if 9999 < year then "+" ++ Text.padded 4 year.natAbs
  else Text.padded 4 year.natAbs

/-- A date is written `2020-01-31`. -/
def text (d : Date) : String :=
  let c := d.yearMonthDay
  yearText c.year ++ "-" ++ Text.padded 2 c.month ++ "-" ++ Text.padded 2 c.day

/-- The three-letter name of a month. -/
def monthName : Nat → String
  | 1 => "Jan"
  | 2 => "Feb"
  | 3 => "Mar"
  | 4 => "Apr"
  | 5 => "May"
  | 6 => "Jun"
  | 7 => "Jul"
  | 8 => "Aug"
  | 9 => "Sep"
  | 10 => "Oct"
  | 11 => "Nov"
  | _ => "Dec"

/-- A date is written `31-Jan-20` where space is short. -/
def shortText (d : Date) : String :=
  let c := d.yearMonthDay
  Text.padded 2 c.day ++ "-" ++ monthName c.month ++ "-" ++ Text.padded 2 (c.year % 100).toNat

end Date

end JourneyPlanner
