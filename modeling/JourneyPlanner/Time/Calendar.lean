import JourneyPlanner.Time.DateTime
import JourneyPlanner.Time.Day
import JourneyPlanner.Time.RelTime
import JourneyPlanner.Time.ServiceTime

/-!
The validity period of a timetable. Days are numbered from five days before the first date, so that
transports that left before it can be told, and one more day follows the last date for transports
that run past midnight.
-/

namespace JourneyPlanner

/-- Days before the first date that have a number. -/
def lookbackDays : Nat := 5

def maxDaysInCalendar : Nat := 3 * 366

/-- The dates from `firstDate` to `lastDate`, both included. -/
structure Calendar where
  firstDate : Date
  lastDate : Date
  ordered : firstDate ≤ lastDate
  length_le : lastDate.daysSince firstDate + 1 ≤ maxDaysInCalendar
deriving DecidableEq, Repr

inductive CalendarError where
  | endsBeforeItBegins
  | tooLong (days : Int)
deriving DecidableEq, Repr

def CalendarError.message : CalendarError → String
  | endsBeforeItBegins => "assertion failed: first_date <= last_date"
  | tooLong days => "Trying to construct a calendar with " ++ toString days ++
      " days which is more than the maximum allowed of " ++ toString maxDaysInCalendar ++ " days"

namespace Calendar

/-- The calendar of an interval of dates. -/
def ofDates (first last : Date) : Except CalendarError Calendar :=
  if h : first ≤ last then
    if g : last.daysSince first + 1 ≤ maxDaysInCalendar then .ok ⟨first, last, h, g⟩
    else .error (.tooLong (last.daysSince first + 1))
  else .error .endsBeforeItBegins

/-- The number of days that have a number. -/
def nbOfDays (c : Calendar) : Nat := (c.lastDate.daysSince c.firstDate + 1).toNat + lookbackDays + 1

theorem nbOfDays_lt (c : Calendar) : c.nbOfDays < 65536 := by
  have := c.length_le
  simp only [nbOfDays, lookbackDays, maxDaysInCalendar] at *
  omega

/-- Every numbered day, in order. -/
def days (c : Calendar) : List Day := (List.range c.nbOfDays).filterMap Day.ofNat?

/-- The day of the first date. -/
def firstDay (_ : Calendar) : Day := ⟨lookbackDays, by decide⟩

/-- The date of day 0. -/
def originDate (c : Calendar) : Date := c.firstDate.addDays (-lookbackDays)

/-- The midnight that begins day 0, or the epoch when no instant is that midnight. -/
def origin (c : Calendar) : Instant := (Instant.ofInt? (c.originDate.dayNumber * 1440)).getD .epoch

/-- The midnight that begins a day. -/
def dayStart (c : Calendar) (d : Day) : Instant := .wrap (c.origin.minutes + d.number * 1440)

/-- The first instant of day 0 and the first one after the last day. -/
def interval (c : Calendar) : Instant × Instant :=
  let start := c.dayStart ⟨0, by decide⟩
  (start, .wrap (start.minutes + c.nbOfDays * 1440))

def contains (c : Calendar) (t : Instant) : Bool :=
  decide (c.interval.1 ≤ t) && decide (t < c.interval.2)

def containsDate (c : Calendar) (d : Date) : Bool :=
  decide (c.firstDate ≤ d) && decide (d ≤ c.lastDate)

/-- The day of a date, when it has a number. -/
def dayOf? (c : Calendar) (d : Date) : Option Day :=
  let n := d.daysSince c.originDate
  if 0 ≤ n ∧ n < c.nbOfDays then Day.ofInt? n else none

def dateOf (c : Calendar) (d : Day) : Date := c.originDate.addDays d.number

/-- The day of an instant and the time since its midnight; `none` outside the numbered days. -/
def split? (c : Calendar) (t : Instant) : Option (Day × ServiceTime) :=
  if c.contains t then
    let n := t.minutes - c.interval.1.minutes
    (Day.ofInt? (n / 1440)).map fun d => (d, .ofNat (n % 1440).toNat)
  else none

/-- The instant of a time after the midnight of a day. -/
def instantOf (c : Calendar) (d : Day) (t : ServiceTime) : Instant :=
  .wrap ((c.dayStart d).minutes + t.minutes)

/-- An instant relative to the midnight of a base day. -/
def relative (c : Calendar) (base : Day) (t : Instant) : RelTime :=
  .ofMinutes (t.minutesSince (c.dayStart base))

/-- A difference that is cut off is too long for a time of a search anyway. -/
theorem relative_eq (c : Calendar) (base : Day) (t : Instant) :
    c.relative base t = .ofMinutes (t.minutes - (c.dayStart base).minutes) := by
  apply RelTime.ext
  unfold relative Instant.minutesSince Instant.clamp
  rw [RelTime.minutes?_ofMinutes, RelTime.minutes?_ofMinutes]
  dsimp only
  by_cases h : -32768 < t.minutes - (c.dayStart base).minutes ∧
      t.minutes - (c.dayStart base).minutes < 32767
  · rw [if_pos h, if_pos (by omega)]
    congr 1
    omega
  · rw [if_neg h, if_neg (by omega)]

/-- The instant of a time relative to the midnight of a base day. -/
def absolute? (c : Calendar) (base : Day) (t : RelTime) : Option Instant :=
  t.minutes?.map fun n => .wrap ((c.dayStart base).minutes + n)

/-- The time of an event of day `d`, relative to the midnight of a base day. -/
def eventTime (_ : Calendar) (base d : Day) (t : ServiceTime) : RelTime :=
  .ofMinutes (d.daysSince base * 1440 + t.minutes)

end Calendar

end JourneyPlanner
