import JourneyPlanner.Search.Checked.Basic

/-!
Scanning a route, with every look-up checked.
-/

namespace JourneyPlanner

open Checked

namespace Aboard

def tripM (a : Aboard) (level : Nat) : Checked (Option Trip) := item a.toArray level

def setM (a : Aboard) (level : Nat) (trip : Option Trip) : Checked Aboard := do
  require (level < a.length) (.place level a.length)
  return a.set level trip

end Aboard

namespace Search

def catchableM (s : Search) (r : RouteIndex) (position : Nat) (threshold : Int) :
    Checked (List Nat) := do
  let times ← s.timetable.timesAtM r position s.dir.boardEvent
  let passes (test : Int → Bool) (column : Nat) : Checked Bool := do
    let time ← item times.toArray column
    return test time.minutes
  match s.dir with
  | .forward =>
    let first ← partitionPointM times.length (passes fun minutes => decide (minutes < threshold))
    return List.range' first (times.length - first)
  | .backward =>
    let stop ← partitionPointM times.length (passes fun minutes => decide (minutes ≤ threshold))
    return (List.range stop).reverse

def tripOnM? (s : Search) (r : RouteIndex) (position : Nat) (ready offset : Int) :
    Checked (Option (Trip × RelTime)) :=
  match (s.baseDay.shift? offset).filter fun d =>
    decide (d.number < s.timetable.calendar.nbOfDays) with
  | none => return none
  | some day => do
    let transports ← s.timetable.transportsOfM r
    let columns ← s.catchableM r position (ready - offset * 1440)
    let column? ← columns.findM? fun column => s.timetable.isActiveM (transports.nth column) day
    match column? with
    | none => return none
    | some column =>
      let trip : Trip := ⟨transports.nth column, day⟩
      let time ← s.boardTimeM r trip position
      return some (trip, time)

def firstTripM? (s : Search) (r : RouteIndex) (position : Nat) (ready : RelTime) :
    Checked (Option (Trip × RelTime)) :=
  match ready.minutes? with
  | none => return none
  | some minutes => do
    let candidates ← (s.dir.tripDays (minutes / 1440)).filterMapM (s.tripOnM? r position minutes)
    return candidates.foldl s.betterTrip none

def leaveTripM (s : Search) (r : RouteIndex) (position : Nat) (l : LocationIndex) (aboard : Aboard)
    (p : Progress) (level : Nat) : Checked Progress := do
  let trip? ← aboard.tripM level
  match trip? with
  | none => return p
  | some trip =>
    let time ← s.alightTimeM r trip position
    s.improveArrivalM l level time p

def leaveTripsM (s : Search) (r : RouteIndex) (position : Nat) (l : LocationIndex) (scan : Scan) :
    Checked Scan := do
  let progress ← (List.range s.levels).foldlM (s.leaveTripM r position l scan.aboard) scan.progress
  return { scan with progress := progress }

def rideThroughM (s : Search) (r : RouteIndex) (position : Nat) (l : LocationIndex)
    (aboard : Aboard) (level : Nat) : Checked Aboard := do
  let trip? ← aboard.tripM level
  match (s.viaAt? level l).filter (·.stay == .zero), trip? with
  | some _, some trip =>
    let other? ← aboard.tripM (level + 1)
    match other? with
    | none => aboard.setM (level + 1) (some trip)
    | some other =>
      let time ← s.alightTimeM r trip position
      let otherTime ← s.alightTimeM r other position
      if s.dir.isBetter time otherTime then aboard.setM (level + 1) (some trip) else return aboard
  | _, _ => return aboard

def exchangeM (s : Search) (r : RouteIndex) (position : Nat) (ready : RelTime)
    (current : Option Trip) : Checked (Option Trip) :=
  match current with
  | none => do
    let first ← s.firstTripM? r position ready
    return first.map Prod.fst
  | some trip => do
    let time ← s.boardTimeM r trip position
    if s.dir.isBetter ready time then
      let first ← s.firstTripM? r position ready
      return match first with
        | some (other, otherTime) => if s.dir.isBetter otherTime time then some other else some trip
        | none => some trip
    else return some trip

def boardTripM (s : Search) (round : Nat) (r : RouteIndex) (position : Nat) (l : LocationIndex)
    (state : SearchState) (aboard : Aboard) (level : Nat) : Checked Aboard := do
  let before ← difference round 1
  let ready ← state.startM before l level
  if ready.isFeasible then
    let current ← aboard.tripM level
    let trip ← s.exchangeM r position ready current
    aboard.setM level trip
  else return aboard

/-- The trips that ride through the via stops at a stop, which no trip does where it starts. -/
def rideThroughViasM (s : Search) (r : RouteIndex) (position : Nat) (l : LocationIndex) (step : Nat)
    (aboard : Aboard) : Checked Aboard :=
  if step = 0 then return aboard
  else do
    let last ← difference s.levels 1
    (List.range last).foldlM (s.rideThroughM r position l) aboard

/-- What happens to the trips taken along at a stop that is not the last one. -/
def boardTripsM (s : Search) (round : Nat) (r : RouteIndex) (position : Nat) (stop : RouteStop)
    (step : Nat) (scan : Scan) : Checked Scan := do
  let l := stop.location
  let aboard ← s.rideThroughViasM r position l step scan.aboard
  let leaves ← s.query.canLeaveM s.timetable r position
  if !leaves then return { scan with aboard := .empty s.levels }
  else if !stop.canStart s.dir then return { scan with aboard := aboard }
  else
    let aboard ←
      (List.range s.levels).foldlM (s.boardTripM round r position l scan.progress.state) aboard
    return { scan with aboard := aboard }

def scanStopM (s : Search) (round : Nat) (r : RouteIndex) (n : Nat) (scan : Scan) (step : Nat) :
    Checked Scan := do
  let position ← s.dir.positionM n step
  let stops ← s.timetable.stopsM r
  let stop ← item stops position
  let scan ← (if step ≠ 0 && stop.canFinish s.dir then s.leaveTripsM r position stop.location scan
    else return scan)
  if step + 1 = n then return scan else s.boardTripsM round r position stop step scan

def scanRouteM (s : Search) (round : Nat) (p : Progress) (r : RouteIndex) : Checked Progress := do
  let stops ← s.timetable.stopsM r
  let scan ← (List.range stops.size).foldlM (s.scanStopM round r stops.size) ⟨p, .empty s.levels⟩
  return scan.progress

def routesToScanM (s : Search) (state : SearchState) : Checked (List RouteIndex) := do
  let reached ← state.marked.foldlM (fun set l => do
    let routes ← s.timetable.routesAtM l
    routes.foldlM (fun set r => set.insertM r.val) set) (BitSet.empty s.timetable.nbOfRoutes)
  (reached.toList.map Index.mk).filterM (s.query.admitsM s.timetable)

end Search

end JourneyPlanner
