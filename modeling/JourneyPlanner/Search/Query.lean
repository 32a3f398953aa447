import JourneyPlanner.Network.Timetable

/-!
Queries for journeys, and what makes a query refused. In a forward query the traveller leaves from
the `start` offsets and the query time is a departure; in a backward query the traveller wants to
reach the `start` offsets and the query time is an arrival.
-/

namespace JourneyPlanner

/-- The way between a location and the virtual start or end of a journey. -/
structure Offset where
  location : LocationIndex
  duration : Duration
  /-- a tag given back in the journeys -/
  mode : Nat
deriving DecidableEq, Repr

/-- A location that a journey must go through, and how long it stays there. -/
structure ViaStop where
  location : LocationIndex
  stay : Duration
  maxStay : Option Duration
deriving DecidableEq, Repr

inductive StartTime where
  | instant (t : Instant)
  /-- every instant from `first` to `last`, both included -/
  | interval (first last : Instant)
deriving DecidableEq, Repr

/-- More transfers cannot be asked for. -/
def maxTransfers : Nat := 7

/-- More via stops cannot be asked for. -/
def maxVias : Nat := 2

/-- Round 0 holds the starting times, and round `k` the journeys that use `k` vehicles. -/
def maxRounds : Nat := maxTransfers + 2

structure Query where
  startTime : StartTime
  direction : Direction
  start : List Offset
  destination : List Offset
  /-- in travel order -/
  vias : List ViaStop
  allowedClasses : ClassSet
  requireBikes : Bool
  maxTransfers : Nat
deriving DecidableEq, Repr

inductive BadRequest where
  | noStart
  | noDestination
  | unknownLocation (location : LocationIndex)
  | tooManyVias (n : Nat)
  | viaCountMismatch (expected got : Nat)
  | maxStayBelowStay (location : LocationIndex)
  | tooManyTransfers (n : Nat)
  | startTimeOutOfRange (t : Instant)
  | invertedInterval (first last : Instant)
  | stateNotSized
deriving DecidableEq, Repr

def BadRequest.message : BadRequest → String
  | noStart => "No valid start location among the provided ones."
  | noDestination => "No valid destination location among the provided ones."
  | unknownLocation l => "Location " ++ l.text ++ " does not belong to the timetable."
  | tooManyVias n =>
    toString n ++ " via stops requested, at most " ++ toString maxVias ++ " are supported."
  | viaCountMismatch expected got =>
    "The search state handles " ++ toString expected ++ " via stops, but the query has " ++
      toString got ++ "."
  | maxStayBelowStay l =>
    "The maximum stay at via " ++ l.text ++ " is smaller than its minimum stay."
  | tooManyTransfers n =>
    toString n ++ " transfers requested, at most " ++ toString JourneyPlanner.maxTransfers ++
      " are supported."
  | startTimeOutOfRange t =>
    "The requested instant " ++ t.text ++ " is out of the validity period of the data."
  | invertedInterval first last =>
    "The requested interval [" ++ first.text ++ ", " ++ last.text ++ "] ends before it begins."
  | stateNotSized => "The search state has not been sized for this timetable."

namespace ViaStop

/-- The longest stay, when there is one, is shorter than the least one. -/
def isContradictory (v : ViaStop) : Bool := (v.maxStay.map fun m => decide (m < v.stay)).getD false

end ViaStop

namespace Query

/-- Every location that the query names. -/
def locations (q : Query) : List LocationIndex :=
  (q.start ++ q.destination).map (·.location) ++ q.vias.map (·.location)

/-- The instant belongs to the period of the timetable. -/
def checkInstant (tt : Timetable) (t : Instant) : Except BadRequest Unit :=
  if tt.calendar.contains t then .ok () else .error (.startTimeOutOfRange t)

def checkStartTime (tt : Timetable) : StartTime → Except BadRequest Unit
  | .instant t => checkInstant tt t
  | .interval first last => do
    if last < first then throw (.invertedInterval first last)
    checkInstant tt first
    checkInstant tt last

/-- The query fits the timetable and a search for `nbOfVias` via stops. -/
def validate (q : Query) (tt : Timetable) (nbOfVias : Nat) : Except BadRequest Unit := do
  if q.start.isEmpty then throw .noStart
  if q.destination.isEmpty then throw .noDestination
  if let some l := q.locations.find? fun l => decide (tt.nbOfLocations ≤ l.val) then
    throw (.unknownLocation l)
  if maxVias < q.vias.length then throw (.tooManyVias q.vias.length)
  if q.vias.length ≠ nbOfVias then throw (.viaCountMismatch nbOfVias q.vias.length)
  if let some v := q.vias.find? (·.isContradictory) then throw (.maxStayBelowStay v.location)
  if JourneyPlanner.maxTransfers < q.maxTransfers then throw (.tooManyTransfers q.maxTransfers)
  checkStartTime tt q.startTime

end Query

end JourneyPlanner
