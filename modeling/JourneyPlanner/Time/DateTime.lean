import JourneyPlanner.Text.Blank
import JourneyPlanner.Time.Date
import JourneyPlanner.Time.Instant

/-!
A date and a time of day to the second, without a time zone; the reading of the compact form
`20190628T163215`; and the passage to instants, which drops the seconds.
-/

namespace JourneyPlanner

/-- Second 60 is a leap second. -/
structure DateTime where
  date : Date
  hour : Nat
  minute : Nat
  second : Nat
deriving DecidableEq, Repr

namespace DateTime

/-- The date and time `n` minutes after 1970-01-01 00:00. -/
def ofMinutes (n : Int) : DateTime :=
  let inDay := (n % 1440).toNat
  { date := ⟨n / 1440⟩, hour := inDay / 60, minute := inDay % 60, second := 0 }

/-- The date and time `n` seconds after 1970-01-01 00:00. -/
def ofSeconds (n : Int) : DateTime := { ofMinutes (n / 60) with second := (n % 60).toNat }

/-- The whole minutes since 1970-01-01 00:00. -/
def minutes (t : DateTime) : Int := t.date.dayNumber * 1440 + t.hour * 60 + t.minute

/-- The instant of a date and time in UTC, when there is one. -/
def instant? (t : DateTime) : Option Instant := Instant.ofInt? t.minutes

/-- Hours and minutes, as in `16:32`. -/
def clockText (t : DateTime) : String := Text.padded 2 t.hour ++ ":" ++ Text.padded 2 t.minute

/-- To the minute, as in `2019-06-28 16:32`. -/
def minuteText (t : DateTime) : String := t.date.text ++ " " ++ t.clockText

/-- To the second, as in `2019-06-28 16:32:15`. -/
def text (t : DateTime) : String := t.minuteText ++ ":" ++ Text.padded 2 t.second

/-- As in `16:32 28-Jun-19`. -/
def shortText (t : DateTime) : String := t.clockText ++ " " ++ t.date.shortText

/-- The first year of a date that can be read. -/
def firstYear : Int := -262143

/-- The last year of a date that can be read. -/
def lastYear : Int := 262142

/-- A number of at most `width` digits after any white space, with what follows it. -/
def readNumber (width : Nat) (cs : List Char) : Option (Nat × List Char) := do
  let (ds, rest) := Text.spanDigits width (Text.trimStart cs)
  let n ← Text.digits? ds
  return (n, rest)

/-- A year after any white space: four digits at most, or a sign and any number of digits. -/
def readYear (cs : List Char) : Option (Int × List Char) :=
  match Text.trimStart cs with
  | '+' :: rest => do
    let n ← Text.digits? (Text.spanDigits rest.length rest).1
    return (n, (Text.spanDigits rest.length rest).2)
  | '-' :: rest => do
    let n ← Text.digits? (Text.spanDigits rest.length rest).1
    return (-n, (Text.spanDigits rest.length rest).2)
  | rest => do
    let (n, rest) ← readNumber 4 rest
    return (n, rest)

/-- Exactly the letter `c`. -/
def readLetter (c : Char) : List Char → Option (List Char)
  | [] => none
  | d :: rest => if d = c then some rest else none

/-- A date and time whose fields are in range. -/
def ofFields? (c : YearMonthDay) (hour minute second : Nat) : Option DateTime := do
  let date ← Date.ofYearMonthDay? c
  if firstYear ≤ c.year ∧ c.year ≤ lastYear ∧ hour < 24 ∧ minute < 60 ∧ second ≤ 60 then
    some ⟨date, hour, minute, second⟩
  else none

/-- The date and time written by a whole text. -/
def read? (cs : List Char) : Option DateTime := do
  let (year, cs) ← readYear cs
  let (month, cs) ← readNumber 2 cs
  let (day, cs) ← readNumber 2 cs
  let cs ← readLetter 'T' cs
  let (hour, cs) ← readNumber 2 cs
  let (minute, cs) ← readNumber 2 cs
  let (second, cs) ← readNumber 2 cs
  if cs.isEmpty then ofFields? ⟨year, month, day⟩ hour minute second else none

end DateTime

/-- A text that is no date and time. -/
structure BadDateTime where
  input : String
deriving DecidableEq, Repr

def BadDateTime.message (e : BadDateTime) : String :=
  "Unable to parse " ++ e.input ++ " as a datetime. Expected format is 20190628T163215"

def DateTime.parse (input : String) : Except BadDateTime DateTime :=
  match DateTime.read? input.toList with
  | some t => .ok t
  | none => .error ⟨input⟩

/-- The instant of a date and time in UTC. -/
def Instant.parse (input : String) : Except BadDateTime Instant :=
  match (DateTime.read? input.toList).bind DateTime.instant? with
  | some t => .ok t
  | none => .error ⟨input⟩

namespace Instant

/-- The date and time of an instant in UTC. -/
def dateTime (t : Instant) : DateTime := DateTime.ofMinutes t.minutes

/-- As in `2019-06-28 16:32`. -/
def text (t : Instant) : String := t.dateTime.minuteText

end Instant

end JourneyPlanner
