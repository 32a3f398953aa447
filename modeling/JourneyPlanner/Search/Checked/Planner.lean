import JourneyPlanner.Search.Checked.Itinerary
import JourneyPlanner.Search.Checked.Scan
import JourneyPlanner.Search.Checked.Transfer
import JourneyPlanner.Search.Planner

/-!
Whole searches and runs of a planner, with every look-up checked. A search begins by overwriting the
tables that are there, so that it relies on the shape that the searches before it have left.
-/

namespace JourneyPlanner

open Checked

namespace Search

def roundM (s : Search) (round : Nat) (p : Progress) : Checked Progress := do
  let routes ← s.routesToScanM p.state
  let scanned ← routes.foldlM (s.scanRouteM round) (p.mapState (·.rotateMarks))
  let left ← s.transferAllM round scanned
  let state ← left.state.finishRoundM s.dir round
  return left.mapState fun _ => state

def roundsM (s : Search) : (remaining : Nat) → (round : Nat) → Progress → Checked (Progress × Nat)
  | 0, round, p => return (p, round - 1)
  | remaining + 1, round, p => do
    let p ← s.roundM round p
    if p.state.anyMarked then roundsM s remaining (round + 1) p else return (p, round)

/-- The beginning of a search, in the tables that are there. -/
def prepareM (s : Search) (state : SearchState) : Checked Progress := do
  let state ← s.query.destination.foldlM (fun state o => state.addExitM o.location) state.clear
  return .start state

def exploreM (s : Search) (state : SearchState) : Checked (Progress × Nat) := do
  let p ← s.prepareM state
  let p ← s.seedM p
  s.roundsM (s.query.maxTransfers + 1) 1 p

def journeyInM? (s : Search) (p : Progress) (round : Nat) : Checked (Option Journey) := do
  let hit? ← p.hitM round
  match hit? with
  | none => return none
  | some h =>
    let journey? ← s.journeyOfM? p.state round h
    match journey? with
    | none => return none
    | some j =>
      let allowed ← s.query.allowsStaysM s.timetable j
      return if allowed then some j else none

def journeysM (s : Search) (p : Progress) : Checked (List Journey) :=
  (List.range' 1 (s.query.maxTransfers + 1)).filterMapM (s.journeyInM? p)

end Search

namespace Query

def accessesM (q : Query) (tt : Timetable) : Checked (List (LocationIndex × Duration)) :=
  q.start.flatMapM fun o => do
    let footpaths ← tt.footpathsM q.direction o.location
    return (o.location, o.duration) ::
      footpaths.map fun f => (f.target, o.duration.add f.duration)

def boardPositionsM (q : Query) (tt : Timetable) (r : RouteIndex) (l : LocationIndex) :
    Checked (List Nat) := do
  let stops ← tt.stopsM r
  (List.range stops.size).filterM fun position => do
    let stop ← item stops position
    return (stop.location == l && stop.canStart q.direction) && match q.direction with
      | .forward => decide (position + 1 < stops.size)
      | .backward => decide (0 < position)

/-- The instants at which a transport of a route can be boarded at a position. -/
def boardInstantsOfM (q : Query) (tt : Timetable) (r : RouteIndex) (position : Nat)
    (transport : TransportIndex) : Checked (List Instant) := do
  let time ← tt.eventTimeM r transport position q.direction.boardEvent
  let days ← tt.daysOfM transport
  return days.toList.map fun day => tt.calendar.instantOf day time

def boardInstantsM (q : Query) (tt : Timetable) (l : LocationIndex) (r : RouteIndex) :
    Checked (List Instant) := do
  let positions ← q.boardPositionsM tt r l
  let transports ← tt.transportsOfM r
  positions.flatMapM fun position => transports.toList.flatMapM (q.boardInstantsOfM tt r position)

/-- The instants from which a vehicle is caught without waiting at a place of access. -/
def instantsAtM (q : Query) (tt : Timetable) (access : LocationIndex × Duration) :
    Checked (List Instant) := do
  let listed ← tt.routesAtM access.1
  let routes ← listed.filterM (q.admitsM tt)
  routes.flatMapM fun r => do
    let instants ← q.boardInstantsM tt access.1 r
    return instants.map fun t => q.direction.opposite.addInstant t access.2

def startInstantsM (q : Query) (tt : Timetable) (first last : Instant) :
    Checked (List Instant) := do
  let accesses ← q.accessesM tt
  let instants ← accesses.flatMapM (q.instantsAtM tt)
  let inside := instants.filter fun t => decide (first ≤ t) && decide (t ≤ last)
  return Instant.distinct (inside.mergeSort fun a b => decide (a ≤ b))

end Query

namespace Planner

def searchFromM (p : Planner) (t : Instant) : Checked (List Journey × Planner) :=
  match Search.at? p.timetable p.query t with
  | none => return ([], p)
  | some s => do
    let (progress, rounds) ← s.exploreM p.state
    let journeys ← s.journeysM progress
    return (journeys, { p with state := progress.state, roundsRun := rounds })

def searchAllM (p : Planner) : List Instant → Checked (List (List Journey) × Planner)
  | [] => return ([], p)
  | t :: rest => do
    let (journeys, p) ← p.searchFromM t
    let (others, p) ← searchAllM p rest
    return (journeys :: others, p)

def runM (p : Planner) : Checked (List Journey × Planner) :=
  match p.query.startTime with
  | .instant t => do
    let (journeys, p) ← p.searchFromM t
    return (Journey.sortByKey journeys, p)
  | .interval first last => do
    let instants ← p.query.startInstantsM p.timetable first last
    let (found, p) ← p.searchAllM instants
    return (Journey.sortByKey (Journey.paretoFilter found.flatten), p)

end Planner

end JourneyPlanner
