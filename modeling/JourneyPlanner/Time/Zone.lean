import JourneyPlanner.Time.DateTime

/-!
Time zones, and the local date and time of an instant.
-/

namespace JourneyPlanner

/-- How far local time is ahead of UTC, in seconds. -/
inductive ZoneRule where
  /-- always by the same number -/
  | constant (seconds : Int)
  /-- by `first` until the first change, and by the number of the last change since; a change is
  given by its second since 1970-01-01 00:00 UTC and its number, and changes are in order -/
  | changing (first : Int) (changes : List (Int × Int))
  /-- one hour more from the last Sunday of March to the last Sunday of October, at 01:00 UTC -/
  | europeanSummer (seconds : Int)
deriving DecidableEq, Repr

structure Zone where
  name : String
  rule : ZoneRule
deriving DecidableEq, Repr

namespace Zone

/-- A time of a day, in seconds since 1970-01-01 00:00 UTC. -/
def secondOf (date : YearMonthDay) (hour minute second : Nat) : Int :=
  (Date.ofYearMonthDay date).dayNumber * 86400 + hour * 3600 + minute * 60 + second

/-- Local mean time, the times of the observatories of Howrah and of Madras, and the standard time
since 1906, with one hour more in two periods of the 1940s. -/
def kolkataRule : ZoneRule :=
  .changing 21208
    [(secondOf ⟨1854, 6, 27⟩ 18 6 32, 21200), (secondOf ⟨1869, 12, 31⟩ 18 6 40, 19270),
      (secondOf ⟨1905, 12, 31⟩ 18 38 50, 19800), (secondOf ⟨1941, 9, 30⟩ 18 30 0, 23400),
      (secondOf ⟨1942, 5, 14⟩ 17 30 0, 19800), (secondOf ⟨1942, 8, 31⟩ 18 30 0, 23400),
      (secondOf ⟨1945, 10, 14⟩ 17 30 0, 19800)]

/-- The zones that have a name. -/
def all : List Zone :=
  [⟨"UTC", .constant 0⟩, ⟨"Etc/GMT+5", .constant (-18000)⟩, ⟨"Etc/GMT-14", .constant 50400⟩,
    ⟨"Asia/Kolkata", kolkataRule⟩, ⟨"Europe/Paris", .europeanSummer 3600⟩]

def named? (name : String) : Option Zone := all.find? (·.name == name)

/-- 01:00 UTC on the last Sunday of a month of 31 days, in minutes since 1970-01-01 00:00. -/
def lastSundaySwitch (year : Int) (month : Nat) : Int :=
  let last := Date.ofYearMonthDay ⟨year, month, 31⟩
  (last.addDays (-last.weekday)).dayNumber * 1440 + 60

/-- The seconds by which local time is ahead of UTC at an instant. -/
def offset (z : Zone) (t : Instant) : Int :=
  match z.rule with
  | .constant n => n
  | .changing first changes =>
    ((changes.reverse.find? fun c => c.1 ≤ t.minutes * 60).map (·.2)).getD first
  | .europeanSummer n =>
    let year := t.dateTime.date.yearMonthDay.year
    if lastSundaySwitch year 3 ≤ t.minutes ∧ t.minutes < lastSundaySwitch year 10 then n + 3600
    else n

/-- The local date and time of an instant. -/
def localDateTime (z : Zone) (t : Instant) : DateTime :=
  DateTime.ofSeconds (t.minutes * 60 + z.offset t)

end Zone

end JourneyPlanner
