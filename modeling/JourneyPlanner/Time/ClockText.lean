import JourneyPlanner.Data.Checked
import JourneyPlanner.Text.Blank
import JourneyPlanner.Time.ServiceTime

/-!
Reading `HH:MM` and `HH:MM:SS`. White space around the text is ignored, seconds are checked and
dropped, and the number of hours is free. The minutes are counted in a 32-bit word before they are
compared with the limit of what is read; a text of more hours than the word can count is out of
range, which is something else than a text that is no time.
-/

namespace JourneyPlanner

/-- A text that is no time. -/
structure TimeParseError where
  input : String
deriving DecidableEq, Repr

def TimeParseError.message (e : TimeParseError) : String :=
  "Unable to parse `" ++ e.input ++ "` as a time. Expected format is HH:MM or HH:MM:SS"

namespace ClockText

/-- Numbers of hours, minutes and seconds are 32-bit words. -/
def wordSize : Nat := 4294967296

/-- The minutes of a time of `hours` and `minutes`. -/
def total (hours minutes : Nat) : Checked Nat := do
  let whole ← Checked.word wordSize (hours * 60)
  Checked.word wordSize (whole + minutes)

/-- The hours and the minutes of a time given by its fields. -/
def ofFields? : List (List Char) → Option (Nat × Nat)
  | [h, m] => do
    let hours ← Text.unsigned? wordSize h
    let minutes ← Text.unsigned? wordSize m
    if minutes < 60 then some (hours, minutes) else none
  | [h, m, s] => do
    let hours ← Text.unsigned? wordSize h
    let minutes ← Text.unsigned? wordSize m
    let seconds ← Text.unsigned? wordSize s
    if seconds < 60 ∧ minutes < 60 then some (hours, minutes) else none
  | _ => none

/-- The minutes of a time, of any number of hours; `none` when the text is no time. -/
def minutes? (input : String) : Checked (Option Nat) :=
  match ofFields? (Text.splitAtEach ':' (Text.trim input.toList)) with
  | some (hours, minutes) => do return some (← total hours minutes)
  | none => .ok none

/-- Reads what a number of minutes stands for; a text that stands for nothing is quoted. -/
def parse {α : Type} (ofMinutes? : Nat → Option α) (input : String) :
    Checked (Except TimeParseError α) := do
  match (← minutes? input).bind ofMinutes? with
  | some a => return .ok a
  | none => return .error ⟨input⟩

end ClockText

/-- Reads a time within the span of a trip. -/
def ServiceTime.parse : String → Checked (Except TimeParseError ServiceTime) :=
  ClockText.parse ofMinutes?

/-- Reads a usable duration. -/
def Duration.parse : String → Checked (Except TimeParseError Duration) :=
  ClockText.parse fun n => if n < 65535 then some (clamp n) else none

/-- A duration that a text tells, when it tells one. -/
def Duration.ofText? (input : String) : Checked (Option Duration) := do
  return (← Duration.parse input).toOption

end JourneyPlanner
