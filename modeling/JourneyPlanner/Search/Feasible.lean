import JourneyPlanner.Search.Planner

/-!
What a traveller can do. A ride is feasible when the timetable offers it and the query admits it;
legs are feasible one after the other when each begins where and not before the previous one ends; a
journey is feasible when it is such a chain of legs between two offsets of the query. An itinerary
goes from vehicle to vehicle, within the transfer time or by one walk that the timetable knows.
-/

namespace JourneyPlanner

def LegKind.isRide : LegKind → Bool
  | ride _ _ _ _ => true
  | _ => false

namespace Leg

/-- The sections of its route that a leg rides. -/
def sections (leg : Leg) : List Nat :=
  match leg.kind with
  | .ride _ _ board alight => List.range' board (alight - board)
  | _ => []

/-- The instant at which a leg begins, in search order. -/
def begins (leg : Leg) (dir : Direction) : Instant :=
  match dir with
  | .forward => leg.departure
  | .backward => leg.arrival

/-- The instant at which a leg ends, in search order. -/
def ends (leg : Leg) (dir : Direction) : Instant := leg.begins dir.opposite

/-- Both ends of a leg are the location of an offset, and it lasts as long as the offset. -/
structure IsOffset (leg : Leg) (o : Offset) : Prop where
  kind_eq : leg.kind = .offset o.mode
  source_eq : leg.source = o.location
  target_eq : leg.target = o.location
  lasts : leg.arrival.minutes = leg.departure.minutes + o.duration.minutes

/-- A leg is a ride that the timetable offers and the query admits. -/
structure IsRide (leg : Leg) (tt : Timetable) (q : Query) (transport : TransportIndex) (day : Day)
    (board alight : Nat) : Prop where
  kind_eq : leg.kind = .ride transport day board alight
  goes_on : board < alight
  active : tt.isActive transport day = true
  departure_eq : leg.departure = tt.eventInstant transport day board .departure
  arrival_eq : leg.arrival = tt.eventInstant transport day alight .arrival
  boarding : ∃ stop, (tt.stops (tt.routeOf transport))[board]? = some stop ∧
    stop.location = leg.source ∧ stop.boarding = true
  alighting : ∃ stop, (tt.stops (tt.routeOf transport))[alight]? = some stop ∧
    stop.location = leg.target ∧ stop.alighting = true
  class_allowed : ∃ c ∈ tt.mainClass? (tt.routeOf transport), q.allowedClasses.contains c = true
  bikes_allowed : q.requireBikes = true →
    ∀ position ∈ leg.sections, (tt.bikeAccess (tt.routeOf transport)).allows position = true

/-- A leg begins where and not before another one ends. -/
structure Follows (next leg : Leg) : Prop where
  source_eq : next.source = leg.target
  departure_ge : leg.arrival ≤ next.departure

/-- A leg is a walk on a plain footpath, and lasts as long as it. -/
def IsPlainWalk (leg : Leg) (tt : Timetable) : Prop :=
  ∃ f ∈ tt.footpathsFrom.get leg.source, f.target = leg.target ∧
    leg.arrival.minutes = leg.departure.minutes + f.duration.minutes

/-- A leg is a walk that the timetable knows, and lasts as long as it. -/
def IsWalk (leg : Leg) (tt : Timetable) : Prop :=
  leg.IsPlainWalk tt ∨ ∃ f ∈ tt.timedFootpathsFrom.get leg.source, f.target = leg.target ∧
    leg.arrival.minutes = leg.departure.minutes + f.duration.minutes

/-- A leg comes right after another one in an itinerary. -/
structure Continues (tt : Timetable) (leg next : Leg) : Prop where
  follows : next.Follows leg
  transfer : leg.kind.isRide = true → next.kind.isRide = true →
    leg.arrival.minutes + (tt.locations.transferTime leg.target).minutes ≤ next.departure.minutes
  one_walk : leg.kind = .footpath → next.kind ≠ .footpath

end Leg

namespace StartTime

/-- An instant from which a query is searched lies within its start time. -/
def Covers : StartTime → Instant → Prop
  | instant t, u => u = t
  | interval first last, u => first ≤ u ∧ u ≤ last

end StartTime

namespace Timetable

/-- The minutes from the beginning of the calendar to an event of a trip. -/
def eventMinutes (tt : Timetable) (trip : Trip) (position : Nat) (event : StopEvent) : Nat :=
  trip.day.number * 1440 + (tt.eventTime trip.transport position event).minutes

/-- A trip meets every event of its route before another trip does. -/
def IsAhead (tt : Timetable) (trip other : Trip) : Prop :=
  ∀ position, position + 1 < (tt.stops (tt.routeOf trip.transport)).size →
    tt.eventMinutes trip position .departure < tt.eventMinutes other position .departure ∧
      tt.eventMinutes trip (position + 1) .arrival < tt.eventMinutes other (position + 1) .arrival

/-- Two trips of one route never meet: one of them is ahead of the other at all events. -/
def StrictlyOrdered (tt : Timetable) : Prop := ∀ trip other : Trip,
  tt.isActive trip.transport trip.day = true → tt.isActive other.transport other.day = true →
    tt.routeOf trip.transport = tt.routeOf other.transport → trip ≠ other →
      tt.IsAhead trip other ∨ tt.IsAhead other trip

/-- Transports only leave on a day or, in search order, on the next one. -/
def RunsAround (tt : Timetable) (dir : Direction) (base : Day) : Prop :=
  ∀ transport day, tt.isActive transport day = true → day.number = base.number ∨
    match dir with
    | .forward => day.number = base.number + 1
    | .backward => day.number + 1 = base.number

end Timetable

namespace Query

/-- An instant is not after another one, in search order. -/
def NotAfter (q : Query) (t u : Instant) : Prop :=
  match q.direction with
  | .forward => t ≤ u
  | .backward => u ≤ t

instance (q : Query) (t u : Instant) : Decidable (q.NotAfter t u) :=
  match h : q.direction with
  | .forward => decidable_of_iff (t ≤ u) (by unfold NotAfter; rw [h])
  | .backward => decidable_of_iff (u ≤ t) (by unfold NotAfter; rw [h])

/-- The instants from which a query is searched. -/
def searchedInstants (q : Query) (tt : Timetable) : List Instant :=
  match q.startTime with
  | .instant t => [t]
  | .interval first last => q.startInstants tt first last

/-- The end of a journey from which its search began. -/
def givenEnd (q : Query) (j : Journey) : Instant :=
  match q.direction with
  | .forward => j.departure
  | .backward => j.arrival

/-- The end of a journey that its search was looking for. -/
def foundEnd (q : Query) (j : Journey) : Instant :=
  match q.direction with
  | .forward => j.arrival
  | .backward => j.departure

/-- The query in the other direction from an instant, between the same places. -/
def mirrored (q : Query) (t : Instant) : Query :=
  { q with
    startTime := .instant t
    direction := q.direction.opposite
    start := q.destination
    destination := q.start }

end Query

/-- The first vehicle is boarded, in search order, at the instant at which it is reached from an
offset of the start, or by one more walk on a plain footpath. -/
inductive BoardsAtOnce (tt : Timetable) (q : Query) : List Leg → Prop
  | direct {o : Offset} {access ride : Leg} {others : List Leg} : o ∈ q.start → access.IsOffset o →
      ride.kind.isRide = true → ride.begins q.direction = access.ends q.direction →
      BoardsAtOnce tt q (access :: ride :: others)
  | onFoot {o : Offset} {access walk ride : Leg} {others : List Leg} : o ∈ q.start →
      access.IsOffset o → walk.kind = .footpath → walk.IsPlainWalk tt →
      walk.begins q.direction = access.ends q.direction → ride.kind.isRide = true →
      ride.begins q.direction = walk.ends q.direction →
      BoardsAtOnce tt q (access :: walk :: ride :: others)

namespace Journey

/-- The legs of a journey in search order. -/
def searchLegs (j : Journey) (dir : Direction) : List Leg :=
  match dir with
  | .forward => j.legs
  | .backward => j.legs.reverse

/-- The legs of a journey follow each other. -/
def IsChain (j : Journey) : Prop := ∀ i leg next,
  j.legs[i]? = some leg → j.legs[i + 1]? = some next → next.Follows leg

/-- The offsets of a query at the beginning of its journeys. -/
def accessOffsets (q : Query) : List Offset :=
  match q.direction with
  | .forward => q.start
  | .backward => q.destination

/-- The offsets of a query at the end of its journeys. -/
def egressOffsets (q : Query) : List Offset :=
  match q.direction with
  | .forward => q.destination
  | .backward => q.start

/-- A chain of feasible legs between two offsets of a query. -/
structure IsFeasible (j : Journey) (tt : Timetable) (q : Query) : Prop where
  chain : j.IsChain
  access : ∃ leg ∈ j.legs.head?, ∃ o ∈ accessOffsets q,
    leg.IsOffset o ∧ leg.departure = j.departure
  egress : ∃ leg ∈ j.legs.getLast?, ∃ o ∈ egressOffsets q,
    leg.IsOffset o ∧ leg.arrival = j.arrival
  rides : ∀ leg ∈ j.legs, ∀ transport day board alight,
    leg.kind = .ride transport day board alight → leg.IsRide tt q transport day board alight
  nbOfRides : j.transports.length = j.nbOfTransfers + 1
  nbOfTransfers_le : j.nbOfTransfers ≤ q.maxTransfers

/-- A feasible journey that only rides and walks between its offsets. -/
structure IsItinerary (j : Journey) (tt : Timetable) (q : Query) : Prop where
  feasible : j.IsFeasible tt q
  continues : ∀ i leg next, j.legs[i]? = some leg → j.legs[i + 1]? = some next →
    Leg.Continues tt leg next
  between : ∀ leg ∈ j.legs.tail.dropLast, leg.kind.isRide = true ∨ leg.kind = .footpath
  walks : ∀ leg ∈ j.legs, leg.kind = .footpath → leg.IsWalk tt

/-- Every walk of a journey is one on a plain footpath. -/
def WalksPlainly (j : Journey) (tt : Timetable) : Prop :=
  ∀ leg ∈ j.legs, leg.kind = .footpath → leg.IsPlainWalk tt

/-- Every time of a journey can be told from a base day. -/
def IsTold (j : Journey) (tt : Timetable) (base : Day) : Prop := ∀ leg ∈ j.legs,
  (tt.calendar.relative base leg.departure).isFeasible = true ∧
    (tt.calendar.relative base leg.arrival).isFeasible = true

/-- The vehicles of a journey leave on days that are looked at by a search in a direction from a
day. -/
def LeavesNear (j : Journey) (dir : Direction) (base : Day) : Prop :=
  ∀ leg ∈ j.legs, ∀ transport day board alight, leg.kind = .ride transport day board alight →
    match dir with
    | .forward => day.number ≤ base.number + 1
    | .backward => base.number < day.number + maxDaysInTrip

/-- A journey ends, in search order, with a walk to the last via stop. -/
def WalksToVia (j : Journey) (q : Query) : Prop :=
  match q.direction with
  | .forward => ∃ leg ∈ j.legs.dropLast.getLast?, leg.kind = .footpath ∧
      ∃ via ∈ q.vias.getLast?, via.location = leg.target
  | .backward => ∃ leg ∈ j.legs.tail.head?, leg.kind = .footpath ∧
      ∃ via ∈ q.vias.head?, via.location = leg.source

end Journey

end JourneyPlanner
