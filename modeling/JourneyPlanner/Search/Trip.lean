import JourneyPlanner.Search.Basic

/-!
Trips, and the best trip of a route that can be caught at a stop. An event may happen days after the
day on which its transport left, so several service days are looked at; on each of them the
catchable columns of the route are an end of its table, found by bisection.
-/

namespace JourneyPlanner

/-- A transport that leaves its first stop on a day. -/
structure Trip where
  transport : TransportIndex
  day : Day
deriving DecidableEq, Repr

namespace Direction

/-- The service days to be looked at, relative to the base day, for someone who is ready on a day
relative to it. -/
def tripDays (dir : Direction) (readyDay : Int) : List Int :=
  let span := match dir with
    | forward => maxDaysInTrip + 1
    | backward => maxDaysInTrip
  (List.range span).map fun i : Nat => readyDay - maxDaysInTrip + 1 + (i : Int)

end Direction

namespace Search

/-- The time of an event of a trip. -/
def eventTime (s : Search) (trip : Trip) (position : Nat) (event : StopEvent) : RelTime :=
  s.timetable.calendar.eventTime s.baseDay trip.day
    (s.timetable.eventTime trip.transport position event)

/-- When a ride on a trip begins at a position. -/
def boardTime (s : Search) (trip : Trip) (position : Nat) : RelTime :=
  s.eventTime trip position s.dir.boardEvent

/-- When a ride on a trip ends at a position. -/
def alightTime (s : Search) (trip : Trip) (position : Nat) : RelTime :=
  s.eventTime trip position s.dir.alightEvent

/-- The columns of a route that can be caught at or after (backward: at or before) a number of
minutes, the best one first. -/
def catchable (s : Search) (r : RouteIndex) (position : Nat) (threshold : Int) : List Nat :=
  let n := (s.timetable.transportsOf r).size
  let minutes (column : Nat) : Int :=
    (s.timetable.columnTime r column position s.dir.boardEvent).minutes
  match s.dir with
  | .forward =>
    let first := partitionPoint n fun column => decide (minutes column < threshold)
    List.range' first (n - first)
  | .backward =>
    (List.range (partitionPoint n fun column => decide (minutes column ≤ threshold))).reverse

/-- The best trip of a service day that can be caught, with the time at which it is boarded. -/
def tripOn? (s : Search) (r : RouteIndex) (position : Nat) (ready offset : Int) :
    Option (Trip × RelTime) := do
  let day ← (s.baseDay.shift? offset).filter fun d =>
    decide (d.number < s.timetable.calendar.nbOfDays)
  let transports := s.timetable.transportsOf r
  let column ← (s.catchable r position (ready - offset * 1440)).find? fun column =>
    s.timetable.isActive (transports.nth column) day
  let trip : Trip := ⟨transports.nth column, day⟩
  return (trip, s.boardTime trip position)

/-- The better of two trips, the first one when neither is. -/
def betterTrip (s : Search) (best : Option (Trip × RelTime)) (next : Trip × RelTime) :
    Option (Trip × RelTime) :=
  match best with
  | none => some next
  | some b => if s.dir.isBetter next.2 b.2 then some next else some b

/-- The best trip of a route that can be caught at a position by someone who is ready at a time,
with the time at which it is boarded. -/
def firstTrip? (s : Search) (r : RouteIndex) (position : Nat) (ready : RelTime) :
    Option (Trip × RelTime) := do
  let minutes ← ready.minutes?
  let candidates := (s.dir.tripDays (minutes / 1440)).filterMap (s.tripOn? r position minutes)
  candidates.foldl s.betterTrip none

end Search

end JourneyPlanner
