import JourneyPlanner.Network.ServiceClass
import JourneyPlanner.Time.ClockText
import JourneyPlanner.Time.Direction

/-!
What a request can set, and the meaning of its date and time.
-/

namespace JourneyPlanner

/-- What the date and time of a request are. -/
inductive TimeRole where
  | departure
  | arrival
deriving DecidableEq, Repr

namespace TimeRole

/-- A departure is searched forward from the origins, an arrival backward from the destinations. -/
def direction : TimeRole → Direction
  | departure => .forward
  | arrival => .backward

def text : TimeRole → String
  | departure => "departure"
  | arrival => "arrival"

/-- The role of a name. -/
def named? (name : String) : Option TimeRole := [departure, arrival].find? (·.text == name)

/-- What is said of a name that is no role. -/
def unknownMessage (name : String) : String := "Bad datetime_represent : `" ++ name ++ "`"

end TimeRole

structure RequestParams where
  maxTransfers : Nat
  maxDuration : Duration
  requireBikes : Bool
  /-- the classes that may be used; none given means all -/
  allowedClasses : List ServiceClass
deriving DecidableEq, Repr

namespace RequestParams

/-- Six transfers, a day, with or without bike, any class. -/
def default : RequestParams := ⟨6, .clamp (24 * 60), false, []⟩

def classSet (p : RequestParams) : ClassSet :=
  if p.allowedClasses.isEmpty then .all else .ofList p.allowedClasses

end RequestParams

/-- The number of a text below 256, as numbers of transfers are given. -/
def byte? (s : String) : Option Nat := Text.unsigned? 256 s.toList

end JourneyPlanner
