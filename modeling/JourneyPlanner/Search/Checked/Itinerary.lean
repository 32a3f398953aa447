import JourneyPlanner.Search.Checked.Basic
import JourneyPlanner.Search.Itinerary
import JourneyPlanner.Search.Visit

/-!
From round times to journeys, and the stays of a journey at its via stops, with every look-up
checked.
-/

namespace JourneyPlanner

open Checked

namespace Search

def walksToM (s : Search) (l target : LocationIndex) (t : RelTime) : Checked (List Walk) := do
  let footpaths ← s.timetable.footpathsM s.dir l
  let timed ← s.timetable.timedFootpathsM s.dir l
  let run ← TimedFootpath.runToM timed target
  return (footpaths.filter (·.target == target)).map (s.footpathWalk l t) ++
    match s.instant? t with
    | none => []
    | some instant =>
      ((TimedFootpath.walk? s.dir run instant).map (s.timedWalk l t target)).toList

def walkSourcesM (s : Search) (l : LocationIndex) : Checked (List LocationIndex) := do
  let back := s.dir.opposite
  let footpaths ← s.timetable.footpathsM back l
  let timed ← s.timetable.timedFootpathsM back l
  return ((footpaths.map (·.target) ++ timed.map (·.target)).mergeSort
    (fun a b => decide (a ≤ b))).eraseDups

def approachFromStartM? (s : Search) (l : LocationIndex) (level : Nat) (deadline : RelTime) :
    Checked (Option Approach) :=
  match s.stay? l 0 level with
  | none => return none
  | some stay =>
    s.query.start.findSomeM? fun o =>
      if o.location = l ∧ s.onTime deadline (s.dir.add (s.seedTime o) stay) then
        return some (.fromStart o none)
      else do
        let walks ← s.walksToM o.location l (s.seedTime o)
        return (walks.find? fun w => s.onTime deadline (s.dir.add w.finish stay)).map
          fun w => .fromStart o (some w)

def approachByTransferM? (s : Search) (state : SearchState) (round : Nat) (l : LocationIndex)
    (level : Nat) (deadline : RelTime) : Checked (Option Approach) := do
  let transfer ← s.timetable.locations.transferTimeM l
  (downFrom level).findSomeM? fun before => do
    let time ← state.finishM round l before
    return do
      let stay ← s.stay? l before level
      if time.isFeasible && s.onTime deadline (s.dir.add time (stay.longer transfer)) then
        some (.fromVehicle ⟨l, before, time⟩ none)
      else none

def approachByWalkM? (s : Search) (source l : LocationIndex) (level : Nat)
    (deadline time : RelTime) (before between : Nat) : Checked (Option Approach) :=
  match s.stay? source before between, s.stay? l between level with
  | some sourceStay, some stay => do
    let walks ← s.walksToM source l (s.dir.add time sourceStay)
    return (walks.find? fun w => s.onTime deadline (s.dir.add w.finish stay)).map
      fun w => .fromVehicle ⟨source, before, time⟩ (some w)
  | _, _ => return none

def approachOnFootM? (s : Search) (state : SearchState) (round : Nat) (l : LocationIndex)
    (level : Nat) (deadline : RelTime) : Checked (Option Approach) := do
  let sources ← s.walkSourcesM l
  sources.findSomeM? fun source =>
    (downFrom level).findSomeM? fun before => do
      let time ← state.finishM round source before
      if time.isFeasible then
        (List.range' before (level + 1 - before)).findSomeM?
          (s.approachByWalkM? source l level deadline time before)
      else return none

def approachM? (s : Search) (state : SearchState) (round : Nat) (l : LocationIndex) (level : Nat)
    (deadline : RelTime) : Checked (Option Approach) :=
  if round = 0 then s.approachFromStartM? l level deadline
  else do
    let byTransfer ← s.approachByTransferM? state round l level deadline
    match byTransfer with
    | some approach => return some approach
    | none => s.approachOnFootM? state round l level deadline

def ridesThroughM (s : Search) (r : RouteIndex) (boardStep alightStep level target : Nat) :
    Checked Bool := do
  let stops ← s.timetable.stopsM r
  let between := List.range' (boardStep + 1) (alightStep - (boardStep + 1))
  let reached ← between.foldlM (fun level step => do
    let position ← s.dir.positionM stops.size step
    let stop ← item stops position
    return s.passVias stop.location target (target - level) level) level
  return reached == target

def tripArrivingM? (s : Search) (r : RouteIndex) (transport : TransportIndex) (position : Nat)
    (arrival : Arrival) : Checked (Option Trip) := do
  let event ← s.timetable.eventTimeM r transport position s.dir.alightEvent
  match arrival.time.minutes? with
  | none => return none
  | some time =>
    let minutes : Int := event.minutes
    if (time - minutes) % 1440 = 0 then
      match s.baseDay.shift? ((time - minutes) / 1440) with
      | none => return none
      | some day =>
        let active ← s.timetable.isActiveM transport day
        return if active then some ⟨transport, day⟩ else none
    else return none

/-- How someone can be ready to board in a step with one of several via levels. -/
def approachAtM? (s : Search) (state : SearchState) (round : Nat) (arrival : Arrival)
    (r : RouteIndex) (l : LocationIndex) (time : RelTime) (alightStep boardStep : Nat) :
    Checked (Option Approach) := do
  let levels ← (downFrom arrival.level).filterM fun level =>
    s.ridesThroughM r boardStep alightStep level arrival.level
  let before ← difference round 1
  levels.findSomeM? fun level => s.approachM? state before l level time

def rideFromM? (s : Search) (state : SearchState) (round : Nat) (arrival : Arrival)
    (r : RouteIndex) (trip : Trip) (alightStep boardStep : Nat) :
    Checked (Option (SearchLeg × Approach)) := do
  let stops ← s.timetable.stopsM r
  let boarded ← s.dir.positionM stops.size boardStep
  let left ← s.dir.positionM stops.size alightStep
  let stop ← item stops boarded
  if !stop.canStart s.dir then return none
  else
    let time ← s.boardTimeM r trip boarded
    let approach? ← s.approachAtM? state round arrival r stop.location time alightStep boardStep
    let (board, alight) := match s.dir with
      | .forward => (boarded, left)
      | .backward => (left, boarded)
    return approach?.map fun approach =>
      (⟨stop.location, arrival.location, time, arrival.time,
        .ride trip.transport trip.day board alight⟩, approach)

def rideOnM? (s : Search) (state : SearchState) (round : Nat) (arrival : Arrival) (r : RouteIndex)
    (alightStep : Nat) (transport : TransportIndex) : Checked (Option (SearchLeg × Approach)) := do
  let stops ← s.timetable.stopsM r
  let position ← s.dir.positionM stops.size alightStep
  let trip? ← s.tripArrivingM? r transport position arrival
  match trip? with
  | none => return none
  | some trip =>
    let boardSteps ← takeWhile (fun step => do
      let position ← s.dir.positionM stops.size step
      s.query.canLeaveM s.timetable r position) (List.range alightStep).reverse
    boardSteps.findSomeM? (s.rideFromM? state round arrival r trip alightStep)

def alightStepsM (s : Search) (r : RouteIndex) (l : LocationIndex) : Checked (List Nat) := do
  let stops ← s.timetable.stopsM r
  (List.range' 1 (stops.size - 1)).filterM fun step => do
    let position ← s.dir.positionM stops.size step
    let stop ← item stops position
    return stop.location == l && stop.canFinish s.dir

def rideIntoM? (s : Search) (state : SearchState) (round : Nat) (arrival : Arrival) :
    Checked (Option (SearchLeg × Approach)) := do
  let listed ← s.timetable.routesAtM arrival.location
  let routes ← listed.filterM (s.query.admitsM s.timetable)
  routes.findSomeM? fun r => do
    let steps ← s.alightStepsM r arrival.location
    let transports ← s.timetable.transportsOfM r
    steps.findSomeM? fun step =>
      transports.toList.findSomeM? (s.rideOnM? state round arrival r step)

def legsToM? (s : Search) (state : SearchState) :
    Nat → Arrival → Checked (Option (List SearchLeg))
  | 0, _ => return some []
  | round + 1, arrival => do
    let found ← s.rideIntoM? state (round + 1) arrival
    match found with
    | none => return none
    | some (ride, .fromStart o walk) =>
      return some (ride :: Walk.legs walk ++ [s.accessLeg o])
    | some (ride, .fromVehicle before walk) =>
      let legs? ← legsToM? s state round before
      return legs?.map fun legs => ride :: Walk.legs walk ++ legs

def journeyOfM? (s : Search) (state : SearchState) (round : Nat) (h : Hit) :
    Checked (Option Journey) := do
  let nbOfTransfers ← difference round 1
  let before? ← s.legsToM? state round h.arrival
  return do
    let before ← before?
    let legs ← s.travelLegs? (h.egressLeg :: Walk.legs h.walk ++ before)
    let start ← s.instant? s.start
    let finish ← s.instant? h.destinationTime
    let (departure, arrival) := match s.dir with
      | .forward => (start, finish)
      | .backward => (finish, start)
    return { departure, arrival, nbOfTransfers, legs }

end Search

namespace Leg

def passedM (tt : Timetable) (leg : Leg) : Checked (List Visit) :=
  match leg.kind with
  | .ride transport _ board alight => do
    let r ← tt.routeOfM transport
    let stops ← tt.stopsM r
    let passed ← stretch stops.toList (board + 1) alight
    return passed.map fun stop => ⟨stop.location, .zero⟩
  | _ => return []

end Leg

namespace Journey

def visitsOfM (tt : Timetable) : List Leg → Checked (List Visit)
  | [] => return []
  | [leg] => leg.passedM tt
  | leg :: next :: rest => do
    let passed ← leg.passedM tt
    let others ← visitsOfM tt (next :: rest)
    return passed ++ leg.gap next ++ others

end Journey

def Query.allowsStaysM (q : Query) (tt : Timetable) (j : Journey) : Checked Bool :=
  if q.vias.all (·.maxStay.isNone) then return true
  else do
    let visits ← Journey.visitsOfM tt j.legs
    return ViaStop.respected q.vias visits

end JourneyPlanner
