import JourneyPlanner.Search.Progress
import JourneyPlanner.Search.Trip

/-!
Scanning a route: its stops are met in search order, with at most one trip taken along for each via
level. At a stop the trips may be left, may pass a via stop that asks for no stay, and may be
exchanged for a better one that can be caught there.
-/

namespace JourneyPlanner

/-- The trips taken along, by via level. -/
abbrev Aboard := List (Option Trip)

namespace Aboard

/-- No trip at any level. -/
def empty (levels : Nat) : Aboard := List.replicate levels none

def trip? (a : Aboard) (level : Nat) : Option Trip := (a[level]?).join

end Aboard

/-- A scan in the middle of a route. -/
structure Scan where
  progress : Progress
  aboard : Aboard

namespace Search

/-- The trip of a level can be left at a stop. -/
def leaveTrip (s : Search) (position : Nat) (l : LocationIndex) (aboard : Aboard) (p : Progress)
    (level : Nat) : Progress :=
  match aboard.trip? level with
  | none => p
  | some trip => s.improveArrival l level (s.alightTime trip position) p

/-- The trips aboard can be left at a stop. -/
def leaveTrips (s : Search) (position : Nat) (l : LocationIndex) (scan : Scan) : Scan :=
  { scan with
    progress := (List.range s.levels).foldl (s.leaveTrip position l scan.aboard) scan.progress }

/-- The trip of a level rides through a via stop that asks for no stay. It then also serves the next
level, if it is better than the trip taken along there. -/
def rideThrough (s : Search) (position : Nat) (l : LocationIndex) (aboard : Aboard) (level : Nat) :
    Aboard :=
  match (s.viaAt? level l).filter (·.stay == .zero), aboard.trip? level with
  | some _, some trip =>
    match aboard.trip? (level + 1) with
    | none => aboard.set (level + 1) (some trip)
    | some other =>
      if s.dir.isBetter (s.alightTime trip position) (s.alightTime other position) then
        aboard.set (level + 1) (some trip)
      else aboard
  | _, _ => aboard

/-- The trip taken along from a stop by someone who is ready there at a time: the one aboard, unless
a better one can be caught. -/
def exchange (s : Search) (r : RouteIndex) (position : Nat) (ready : RelTime)
    (current : Option Trip) : Option Trip :=
  match current with
  | none => (s.firstTrip? r position ready).map Prod.fst
  | some trip =>
    let time := s.boardTime trip position
    if s.dir.isBetter ready time then
      match s.firstTrip? r position ready with
      | some (other, otherTime) => if s.dir.isBetter otherTime time then some other else some trip
      | none => some trip
    else some trip

/-- At a stop where the trip of a level can be boarded. -/
def boardTrip (s : Search) (round : Nat) (r : RouteIndex) (position : Nat) (l : LocationIndex)
    (state : SearchState) (aboard : Aboard) (level : Nat) : Aboard :=
  let ready := state.start (round - 1) l level
  if ready.isFeasible then
    aboard.set level (s.exchange r position ready (aboard.trip? level))
  else aboard

/-- What happens at the stop met in a step of a scan. -/
def scanStop (s : Search) (round : Nat) (r : RouteIndex) (n : Nat) (scan : Scan) (step : Nat) :
    Scan :=
  let position := s.dir.position n step
  match (s.timetable.stops r)[position]? with
  | none => scan
  | some stop =>
    let l := stop.location
    let scan := if step ≠ 0 && stop.canFinish s.dir then s.leaveTrips position l scan else scan
    if step + 1 = n then scan
    else
      let aboard := if step = 0 then scan.aboard
        else (List.range (s.levels - 1)).foldl (s.rideThrough position l) scan.aboard
      if !s.query.canLeave s.timetable r position then
        { scan with aboard := .empty s.levels }
      else if !stop.canStart s.dir then { scan with aboard := aboard }
      else
        { scan with
          aboard := (List.range s.levels).foldl
            (s.boardTrip round r position l scan.progress.state) aboard }

/-- Scans a route in a round. -/
def scanRoute (s : Search) (round : Nat) (p : Progress) (r : RouteIndex) : Progress :=
  let n := (s.timetable.stops r).size
  ((List.range n).foldl (s.scanStop round r n) ⟨p, .empty s.levels⟩).progress

/-- The routes to be scanned: those that are admitted and stop at a marked location, in order. -/
def routesToScan (s : Search) (state : SearchState) : List RouteIndex :=
  let reached := state.marked.foldl (fun set l =>
    (s.timetable.routesAt l).foldl (fun set r => set.insert r.val) set)
    (BitSet.empty s.timetable.nbOfRoutes)
  (reached.toList.map Index.mk).filter fun r => s.query.admits s.timetable r

end Search

end JourneyPlanner
