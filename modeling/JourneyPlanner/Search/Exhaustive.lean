import JourneyPlanner.Search.Planner

/-!
The search said plainly, without the shortcuts that it takes. `Catches` tells which trips can be
caught at a stop, wherever they stand in their route; the trip that the search takes is a best one
of them. `plainExplore` scans every admitted route in every round, whether one of its locations was
improved or not, and never ends before the last round.
-/

namespace JourneyPlanner

namespace Direction

/-- A number of minutes is not before another one, in search order. -/
def NotBefore (dir : Direction) (ready minutes : Int) : Prop :=
  match dir with
  | forward => ready ≤ minutes
  | backward => minutes ≤ ready

instance (dir : Direction) (ready minutes : Int) : Decidable (dir.NotBefore ready minutes) := by
  cases dir <;> exact inferInstanceAs (Decidable (_ ≤ _))

end Direction

namespace Search

/-- The minutes from the midnight of the base day to the event at which a trip is boarded. -/
def boardMinutes (s : Search) (trip : Trip) (position : Nat) : Int :=
  trip.day.daysSince s.baseDay * 1440 +
    (s.timetable.eventTime trip.transport position s.dir.boardEvent).minutes

/-- A trip of a route that can be caught at a position by someone who is ready at a number of
minutes, among the days that are looked at. -/
structure Catches (s : Search) (r : RouteIndex) (position : Nat) (ready : Int) (trip : Trip) :
    Prop where
  of_route : (s.timetable.transportsOf r).contains trip.transport = true
  in_window : trip.day.daysSince s.baseDay ∈ s.dir.tripDays (ready / 1440)
  in_calendar : trip.day.number < s.timetable.calendar.nbOfDays
  active : s.timetable.isActive trip.transport trip.day = true
  in_time : s.dir.NotBefore ready (s.boardMinutes trip position)

/-- Every route that the query admits, in order. -/
def admittedRoutes (s : Search) : List RouteIndex :=
  (Index.firsts s.timetable.nbOfRoutes).filter (s.query.admits s.timetable)

/-- A number of rounds from a round on, in each of which every admitted route is scanned. -/
def plainRounds (s : Search) : (remaining : Nat) → (round : Nat) → Progress → Progress
  | 0, _, p => p
  | remaining + 1, round, p =>
    plainRounds s remaining (round + 1) (s.roundOver s.admittedRoutes round p)

/-- The whole search, in which nothing is left out. -/
def plainExplore (s : Search) (state : SearchState) : Progress :=
  s.plainRounds (s.query.maxTransfers + 1) 1 (s.seed (s.prepare state))

end Search

namespace Planner

/-- What is found from one instant when nothing is left out, and the state that is left. -/
def plainSearchFrom (p : Planner) (t : Instant) : List Journey × SearchState :=
  match Search.at? p.timetable p.query t with
  | none => ([], p.state)
  | some s =>
    let progress := s.plainExplore p.state
    (s.journeys progress, progress.state)

end Planner

end JourneyPlanner
