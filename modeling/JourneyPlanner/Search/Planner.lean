import JourneyPlanner.Search.Itinerary
import JourneyPlanner.Search.Scan
import JourneyPlanner.Search.Transfer
import JourneyPlanner.Search.Visit

/-!
Searching round by round. Round 0 takes the offsets of the start; round `k` scans the routes at the
locations improved in round `k - 1`, then leaves the vehicles. A journey found in round `k` uses `k`
vehicles. For an interval, one search is made from each instant at which a vehicle can be caught
without waiting, and the journeys that no other one dominates are kept.
-/

namespace JourneyPlanner

namespace Search

/-- One round after round 0, in which the given routes are scanned. -/
def roundOver (s : Search) (routes : List RouteIndex) (round : Nat) (p : Progress) : Progress :=
  let scanned := routes.foldl (s.scanRoute round) (p.mapState (·.rotateMarks))
  (s.transferAll round scanned).mapState (·.finishRound s.dir round)

/-- One round after round 0, in which the routes at improved locations are scanned. -/
def round (s : Search) (round : Nat) (p : Progress) : Progress :=
  s.roundOver (s.routesToScan p.state) round p

/-- At most `remaining` rounds from a round on, until one improves nothing; with the last round. -/
def rounds (s : Search) : (remaining : Nat) → (round : Nat) → Progress → Progress × Nat
  | 0, round, p => (p, round - 1)
  | remaining + 1, round, p =>
    let p := s.round round p
    if p.state.anyMarked then rounds s remaining (round + 1) p else (p, round)

/-- The beginning of a search: everything is reset, and the locations of the destination are
known. -/
def prepare (s : Search) (state : SearchState) : Progress :=
  .start (s.query.destination.foldl (fun state o => state.addExit o.location) state.reset)

/-- The whole search, with the last round. -/
def explore (s : Search) (state : SearchState) : Progress × Nat :=
  s.rounds (s.query.maxTransfers + 1) 1 (s.seed (s.prepare state))

/-- The journeys of a search, one for each round that found a way to the destination, unless it
stays too long at a via stop. -/
def journeys (s : Search) (p : Progress) : List Journey :=
  (List.range' 1 (s.query.maxTransfers + 1)).filterMap fun round => do
    let h ← p.hit? round
    (s.journeyOf? p.state round h).filter (s.query.allowsStays s.timetable)

/-- The search of a query from an instant of the timetable. -/
def at? (tt : Timetable) (q : Query) (t : Instant) : Option Search :=
  (tt.calendar.split? t).map fun (day, _) => ⟨tt, q, day, tt.calendar.relative day t⟩

end Search

namespace Query

/-- A place where a vehicle can be boarded from an offset of the start, without changing vehicles,
and how long it takes to get there. -/
def accesses (q : Query) (tt : Timetable) : List (LocationIndex × Duration) :=
  q.start.flatMap fun o =>
    (o.location, o.duration) ::
      (tt.footpaths q.direction o.location).map fun f => (f.target, o.duration.add f.duration)

/-- The positions of a route where a ride from a location can begin. -/
def boardPositions (q : Query) (tt : Timetable) (r : RouteIndex) (l : LocationIndex) : List Nat :=
  let stops := tt.stops r
  (List.range stops.size).filter fun position =>
    ((stops[position]?).map fun stop => stop.location == l && stop.canStart q.direction).getD false
      && match q.direction with
        | .forward => decide (position + 1 < stops.size)
        | .backward => decide (0 < position)

/-- The instants at which a route can be boarded at a location. -/
def boardInstants (q : Query) (tt : Timetable) (l : LocationIndex) (r : RouteIndex) :
    List Instant :=
  (q.boardPositions tt r l).flatMap fun position =>
    (tt.transportsOf r).toList.flatMap fun transport =>
      let time := tt.eventTime transport position q.direction.boardEvent
      (tt.daysOf transport).map fun day => tt.calendar.instantOf day time

/-- The instants of an interval from which a vehicle is caught without waiting, in order. -/
def startInstants (q : Query) (tt : Timetable) (first last : Instant) : List Instant :=
  let instants := (q.accesses tt).flatMap fun (l, lead) =>
    ((tt.routesAt l).filter (q.admits tt)).flatMap fun r =>
      (q.boardInstants tt l r).map fun t => q.direction.opposite.addInstant t lead
  let inside := instants.filter fun t => decide (first ≤ t) && decide (t ≤ last)
  Instant.distinct (inside.mergeSort fun a b => decide (a ≤ b))

end Query

/-- A query accepted for a timetable, with the state in which it is searched. -/
structure Planner where
  timetable : Timetable
  query : Query
  state : SearchState
  /-- the rounds of the last search, round 0 left out -/
  roundsRun : Nat

namespace Planner

/-- Accepts a query for a timetable and a state. -/
def accept (tt : Timetable) (state : SearchState) (q : Query) : Except BadRequest Planner := do
  q.validate tt state.nbOfVias
  if !state.isSizedFor tt.nbOfLocations tt.nbOfRoutes then throw .stateNotSized
  return ⟨tt, q, state, 0⟩

/-- Searches from one instant. Outside the timetable nothing is found and nothing changes. -/
def searchFrom (p : Planner) (t : Instant) : List Journey × Planner :=
  match Search.at? p.timetable p.query t with
  | none => ([], p)
  | some s =>
    let (progress, rounds) := s.explore p.state
    (s.journeys progress, { p with state := progress.state, roundsRun := rounds })

/-- Searches from several instants, one after the other. -/
def searchAll (p : Planner) : List Instant → List (List Journey) × Planner
  | [] => ([], p)
  | t :: rest =>
    let (journeys, p) := p.searchFrom t
    let (others, p) := searchAll p rest
    (journeys :: others, p)

/-- The journeys of the query, sorted by departure, arrival and number of transfers. -/
def run (p : Planner) : List Journey × Planner :=
  match p.query.startTime with
  | .instant t =>
    let (journeys, p) := p.searchFrom t
    (Journey.sortByKey journeys, p)
  | .interval first last =>
    let (found, p) := p.searchAll (p.query.startInstants p.timetable first last)
    (Journey.sortByKey (Journey.paretoFilter found.flatten), p)

end Planner

/-- The journeys of a query in a timetable, and the state after the search. A refused query leaves
the state as it is. -/
def solve (tt : Timetable) (state : SearchState) (q : Query) :
    Except BadRequest (List Journey) × SearchState :=
  match Planner.accept tt state q with
  | .error e => (.error e, state)
  | .ok p => let (journeys, p) := p.run; (.ok journeys, p.state)

end JourneyPlanner
