import JourneyPlanner.Journey.Basic
import JourneyPlanner.Search.Progress
import JourneyPlanner.Search.Trip

/-!
From round times to journeys. Only the round times are kept by a search, so the legs of a journey
are found again from its end: the ride that ends at an arrival of round `k`, then the way in which
its traveller got ready in round `k - 1`, and so on down to an offset of the start.
-/

namespace JourneyPlanner

/-- A leg with its ends and times in search order. -/
structure SearchLeg where
  source : LocationIndex
  target : LocationIndex
  start : RelTime
  finish : RelTime
  kind : LegKind
deriving DecidableEq, Repr

/-- How someone got ready for a ride. -/
inductive Approach where
  | fromStart (offset : Offset) (walk : Option Walk)
  | fromVehicle (arrival : Arrival) (walk : Option Walk)
deriving DecidableEq, Repr

namespace Walk

def leg (w : Walk) : SearchLeg := ⟨w.source, w.target, w.start, w.finish, .footpath⟩

/-- The leg of a walk, if there is one. -/
def legs (w : Option Walk) : List SearchLeg := (w.map leg).toList

end Walk

/-- The leg of the egress of a way to the destination. -/
def Hit.egressLeg (h : Hit) : SearchLeg :=
  ⟨h.location, h.location, h.time, h.destinationTime, .offset h.egress.mode⟩

namespace Search

/-- The leg of an offset of the start. -/
def accessLeg (s : Search) (o : Offset) : SearchLeg :=
  ⟨o.location, o.location, s.start, s.seedTime o, .offset o.mode⟩

/-- The numbers from `n` down to 0. -/
def downFrom (n : Nat) : List Nat := (List.range (n + 1)).reverse

/-- Ready no later, in search order, than a deadline. -/
def onTime (s : Search) (deadline ready : RelTime) : Bool := s.dir.isBetterOrEq ready deadline

/-- Getting ready at a location with a via level by an offset of the start. -/
def approachFromStart? (s : Search) (l : LocationIndex) (level : Nat) (deadline : RelTime) :
    Option Approach := do
  let stay ← s.stay? l 0 level
  s.query.start.findSome? fun o =>
    if o.location = l ∧ s.onTime deadline (s.dir.add (s.seedTime o) stay) then
      some (.fromStart o none)
    else
      ((s.walksTo o.location l (s.seedTime o)).find? fun w =>
        s.onTime deadline (s.dir.add w.finish stay)).map fun w => .fromStart o (some w)

/-- Getting ready at a location with a via level by changing vehicles there. -/
def approachByTransfer? (s : Search) (state : SearchState) (round : Nat) (l : LocationIndex)
    (level : Nat) (deadline : RelTime) : Option Approach :=
  let transfer := s.timetable.locations.transferTime l
  (downFrom level).findSome? fun before => do
    let time := state.finish round l before
    let stay ← s.stay? l before level
    if time.isFeasible && s.onTime deadline (s.dir.add time (stay.longer transfer)) then
      some (.fromVehicle ⟨l, before, time⟩ none)
    else none

/-- Getting ready at a location with a via level by a walk from `source`, which is reached by a
vehicle with via level `before` and left with via level `between`. -/
def approachByWalk? (s : Search) (source l : LocationIndex) (level : Nat) (deadline time : RelTime)
    (before between : Nat) : Option Approach := do
  let sourceStay ← s.stay? source before between
  let stay ← s.stay? l between level
  ((s.walksTo source l (s.dir.add time sourceStay)).find? fun w =>
    s.onTime deadline (s.dir.add w.finish stay)).map fun w =>
      .fromVehicle ⟨source, before, time⟩ (some w)

/-- Getting ready at a location with a via level by a walk from where a vehicle was left. -/
def approachOnFoot? (s : Search) (state : SearchState) (round : Nat) (l : LocationIndex)
    (level : Nat) (deadline : RelTime) : Option Approach :=
  (s.walkSources l).findSome? fun source =>
    (downFrom level).findSome? fun before =>
      let time := state.finish round source before
      if time.isFeasible then
        (List.range' before (level + 1 - before)).findSome?
          (s.approachByWalk? source l level deadline time before)
      else none

/-- How someone can be ready at a location with a via level in a round, no later than a deadline. -/
def approach? (s : Search) (state : SearchState) (round : Nat) (l : LocationIndex) (level : Nat)
    (deadline : RelTime) : Option Approach :=
  if round = 0 then s.approachFromStart? l level deadline
  else (s.approachByTransfer? state round l level deadline).or
    (s.approachOnFoot? state round l level deadline)

/-- The via levels passed at a location by someone who rides through it. -/
def passVias (s : Search) (l : LocationIndex) (target : Nat) : Nat → Nat → Nat
  | 0, level => level
  | steps + 1, level =>
    if level < target ∧ ((s.viaAt? level l).filter (·.stay == .zero)).isSome then
      passVias s l target steps (level + 1)
    else level

/-- A trip boarded in a step with a via level has another via level when it is left in a later step,
after the via stops without a stay in between. -/
def ridesThrough (s : Search) (r : RouteIndex) (boardStep alightStep level target : Nat) : Bool :=
  let stops := s.timetable.stops r
  let between := List.range' (boardStep + 1) (alightStep - (boardStep + 1))
  let reached := between.foldl (fun level step =>
    match stops[s.dir.position stops.size step]? with
    | some stop => s.passVias stop.location target (target - level) level
    | none => level) level
  reached == target

/-- The trip of a transport that is left at a position at the time of an arrival. -/
def tripArriving? (s : Search) (transport : TransportIndex) (position : Nat) (arrival : Arrival) :
    Option Trip := do
  let time ← arrival.time.minutes?
  let minutes : Int :=
    (s.timetable.eventTime transport position s.dir.alightEvent).minutes
  if (time - minutes) % 1440 = 0 then
    let day ← s.baseDay.shift? ((time - minutes) / 1440)
    if s.timetable.isActive transport day then some ⟨transport, day⟩ else none
  else none

/-- The ride on a trip from a step to another one, when someone can be ready for it. -/
def rideFrom? (s : Search) (state : SearchState) (round : Nat) (arrival : Arrival) (r : RouteIndex)
    (trip : Trip) (alightStep boardStep : Nat) : Option (SearchLeg × Approach) := do
  let n := (s.timetable.stops r).size
  let position := s.dir.position n boardStep
  let stop ← ((s.timetable.stops r)[position]?).filter (·.canStart s.dir)
  let time := s.boardTime trip position
  let levels := (downFrom arrival.level).filter fun level =>
    s.ridesThrough r boardStep alightStep level arrival.level
  let approach ← levels.findSome? fun level =>
    s.approach? state (round - 1) stop.location level time
  let (board, alight) := match s.dir with
    | .forward => (position, s.dir.position n alightStep)
    | .backward => (s.dir.position n alightStep, position)
  return (⟨stop.location, arrival.location, time, arrival.time,
    .ride trip.transport trip.day board alight⟩, approach)

/-- The ride on a transport that ends at an arrival in a step. -/
def rideOn? (s : Search) (state : SearchState) (round : Nat) (arrival : Arrival) (r : RouteIndex)
    (alightStep : Nat) (transport : TransportIndex) : Option (SearchLeg × Approach) := do
  let n := (s.timetable.stops r).size
  let trip ← s.tripArriving? transport (s.dir.position n alightStep) arrival
  let boardSteps := (List.range alightStep).reverse.takeWhile fun step =>
    s.query.canLeave s.timetable r (s.dir.position n step)
  boardSteps.findSome? (s.rideFrom? state round arrival r trip alightStep)

/-- The steps of a route in which a ride can end at a location. -/
def alightSteps (s : Search) (r : RouteIndex) (l : LocationIndex) : List Nat :=
  let stops := s.timetable.stops r
  (List.range' 1 (stops.size - 1)).filter fun step =>
    ((stops[s.dir.position stops.size step]?).map fun stop =>
      stop.location == l && stop.canFinish s.dir).getD false

/-- The ride that ends at an arrival of a round, and how its traveller got ready for it. -/
def rideInto? (s : Search) (state : SearchState) (round : Nat) (arrival : Arrival) :
    Option (SearchLeg × Approach) :=
  let routes := (s.timetable.routesAt arrival.location).filter fun r =>
    s.query.admits s.timetable r
  routes.findSome? fun r =>
    (s.alightSteps r arrival.location).findSome? fun step =>
      (s.timetable.transportsOf r).toList.findSome? (s.rideOn? state round arrival r step)

/-- The legs that lead to an arrival of a round, the last one first. -/
def legsTo? (s : Search) (state : SearchState) : Nat → Arrival → Option (List SearchLeg)
  | 0, _ => some []
  | round + 1, arrival => do
    let (ride, approach) ← s.rideInto? state (round + 1) arrival
    match approach with
    | .fromStart o walk => return ride :: Walk.legs walk ++ [s.accessLeg o]
    | .fromVehicle before walk =>
      let legs ← legsTo? s state round before
      return ride :: Walk.legs walk ++ legs

/-- A leg in travel order. -/
def travelLeg? (s : Search) (leg : SearchLeg) : Option Leg := do
  let start ← s.instant? leg.start
  let finish ← s.instant? leg.finish
  return match s.dir with
    | .forward => ⟨leg.source, leg.target, start, finish, leg.kind⟩
    | .backward => ⟨leg.target, leg.source, finish, start, leg.kind⟩

/-- The legs of a journey in travel order, from those of a search with the last one first. -/
def travelLegs? (s : Search) (legs : List SearchLeg) : Option (List Leg) :=
  let inTravelOrder := match s.dir with
    | .forward => legs.reverse
    | .backward => legs
  inTravelOrder.mapM s.travelLeg?

/-- The journey of a way to the destination found in a round. -/
def journeyOf? (s : Search) (state : SearchState) (round : Nat) (h : Hit) : Option Journey := do
  let before ← s.legsTo? state round h.arrival
  let legs ← s.travelLegs? (h.egressLeg :: Walk.legs h.walk ++ before)
  let start ← s.instant? s.start
  let finish ← s.instant? h.destinationTime
  let (departure, arrival) := match s.dir with
    | .forward => (start, finish)
    | .backward => (finish, start)
  return { departure, arrival, nbOfTransfers := round - 1, legs }

end Search

end JourneyPlanner
