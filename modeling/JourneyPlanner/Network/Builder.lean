import JourneyPlanner.Network.Timetable
import JourneyPlanner.Network.TimetableError

/-!
Construction of a timetable, piece by piece. Routes come one at a time: a route is opened, its
transports are added in the order of their departures, and it is closed. Every call answers a value
or an error together with the builder that goes on.

A transport whose first departure is `n` days after the midnight that its times count from is kept
with its times `n` days earlier and its service days `n` days later, so that a first departure is
always on its service day.
-/

namespace JourneyPlanner

/-- Arrival and departure at a stop. The arrival at the first stop and the departure from the last
one do not matter. -/
structure StopTime where
  arrival : ServiceTime
  departure : ServiceTime
deriving DecidableEq, Repr

namespace StopTime

def time (s : StopTime) : StopEvent → ServiceTime
  | .arrival => s.arrival
  | .departure => s.departure

def earlierByDays (s : StopTime) (n : Nat) : StopTime :=
  ⟨s.arrival.earlierByDays n, s.departure.earlierByDays n⟩

end StopTime

/-- A transport to be added to a route. -/
structure NewTransport where
  name : String
  serviceDays : ServiceDaysIndex
  stopTimes : List StopTime
  lines : List String
deriving DecidableEq, Repr

namespace NewTransport

/-- The first stop has only a departure, which stands for its arrival too. -/
def withoutFirstArrival : List StopTime → List StopTime
  | [] => []
  | s :: rest => { s with arrival := s.departure } :: rest

/-- The last stop has only an arrival, which stands for its departure too. -/
def withoutLastDeparture : List StopTime → List StopTime
  | [] => []
  | [s] => [{ s with departure := s.arrival }]
  | s :: rest => s :: withoutLastDeparture rest

/-- The times that count. -/
def schedule (t : NewTransport) : List StopTime :=
  withoutLastDeparture (withoutFirstArrival t.stopTimes)

/-- A stop is left before it is reached, or the next one is reached before this one is left. -/
def decreasesAt (s : StopTime) (next : Option StopTime) : Bool :=
  decide (s.departure < s.arrival) ||
    (next.map fun n => decide (n.arrival < s.departure)).getD false

/-- The first stop at which times decrease. -/
def decrease? (schedule : List StopTime) : Option Nat :=
  (List.range schedule.length).find? fun p =>
    (schedule[p]?.map fun s => decreasesAt s schedule[p + 1]?).getD false

/-- The days from the midnight that times count from to the first departure. -/
def dayOffset (schedule : List StopTime) : Nat :=
  (schedule.head?.map fun s => s.departure.days).getD 0

/-- The first stop that is left too many days after the service day. -/
def beyondSpan? (schedule : List StopTime) : Option Nat :=
  schedule.findIdx? fun s => decide (maxDaysInTrip * minutesPerDay ≤ s.departure.minutes)

end NewTransport

/-- The route that is being filled. -/
structure OpenRoute where
  index : RouteIndex
  stops : Array RouteStop
  classes : Sections ServiceClass
  firstTransport : TransportIndex
  schedules : Array (List StopTime)
deriving DecidableEq, Repr

namespace OpenRoute

/-- The times of an event for all transports of the route. -/
def eventTimes (r : OpenRoute) (e : Nat × StopEvent) : List ServiceTime :=
  r.schedules.toList.map fun s => ((s[e.1]?).map (·.time e.2)).getD .midnight

/-- The times of all transports never decrease. -/
def isSorted : List ServiceTime → Bool
  | a :: b :: rest => decide (a ≤ b) && isSorted (b :: rest)
  | _ => true

/-- One row of times per event. -/
def rows (r : OpenRoute) : List (List ServiceTime) :=
  (StopEvent.all r.stops.size).map r.eventTimes

/-- The finished route, unless it has no transport or one transport overtakes another. -/
def close (r : OpenRoute) : Except TimetableError Route :=
  if r.schedules.isEmpty then .error (.emptyRoute r.index)
  else match r.rows.findIdx? fun row => !isSorted row with
    | some event => .error (.overtakingTransports r.index event)
    | none => .ok {
        stops := r.stops
        classes := r.classes
        transports := ⟨r.firstTransport, r.schedules.size⟩
        times := .ofRows r.schedules.size .midnight r.rows }

end OpenRoute

structure Builder where
  calendar : Calendar
  locations : Locations
  serviceDays : ServiceDaysStore
  routes : Array Route
  openRoute : Option OpenRoute
  /-- the first error met while closing a route -/
  routeError : Option TimetableError
  /-- of every route, closed or open -/
  bikes : BikeRegister
  transports : Array Transport
  footpaths : Array (LocationIndex × Footpath)
  timedFootpaths : Array (LocationIndex × TimedFootpath)
deriving DecidableEq, Repr

namespace Builder

def new (c : Calendar) : Builder :=
  { calendar := c
    locations := .empty
    serviceDays := .empty
    routes := #[]
    openRoute := none
    routeError := none
    bikes := .empty
    transports := #[]
    footpaths := #[]
    timedFootpaths := #[] }

/-- Adds a location; the first one of an identifier stays. -/
def registerLocation (b : Builder) (location : Location) : LocationIndex × Builder :=
  let (l, locations) := b.locations.register location
  (l, { b with locations := locations })

/-- Adds a set of service days of this calendar. -/
def registerServiceDays (b : Builder) (days : ServiceDays) :
    Except TimetableError ServiceDaysIndex × Builder :=
  if days.capacity = b.calendar.nbOfDays then
    let (i, store) := b.serviceDays.intern days
    (.ok i, { b with serviceDays := store })
  else (.error (.capacityMismatch days.capacity b.calendar.nbOfDays), b)

def checkLocation (b : Builder) (l : LocationIndex) : Except TimetableError Unit :=
  if l.val < b.locations.size then .ok () else .error (.unknownLocation l)

/-- The route to be opened for a list of stops, and its bike permissions. Classes and bike permissions
are one value for the whole route, or one per section. -/
def newRoute (b : Builder) (stops : List RouteStop) (classes : List ServiceClass)
    (bikes : List Bool) : Except TimetableError (OpenRoute × Sections Bool) := do
  if let some r := b.openRoute then throw (.routeNotFinished r.index)
  if stops.length < 2 then throw (.tooFewStops stops.length)
  stops.forM fun s => b.checkLocation s.location
  let n := stops.length - 1
  match Sections.ofList? n classes, Sections.ofList? n bikes with
  | none, _ => throw (.sectionMismatch .classes n classes.length)
  | _, none => throw (.sectionMismatch .bikePermissions n bikes.length)
  | some cs, some bs =>
    let opened : OpenRoute := {
      index := ⟨b.routes.size⟩
      stops := stops.toArray
      classes := cs
      firstTransport := ⟨b.transports.size⟩
      schedules := #[] }
    return (opened, bs)

/-- Opens a route. -/
def registerRoute (b : Builder) (stops : List RouteStop) (classes : List ServiceClass)
    (bikes : List Bool) : Except TimetableError RouteIndex × Builder :=
  match b.newRoute stops classes bikes with
  | .error e => (.error e, b)
  | .ok (opened, permissions) =>
    (.ok opened.index,
      { b with openRoute := some opened, bikes := b.bikes.register permissions })

/-- The open route and the service days of a transport that fits it. -/
def checkTransport (b : Builder) (r : RouteIndex) (t : NewTransport) :
    Except TimetableError (OpenRoute × ServiceDays) := do
  let some opened := b.openRoute.filter (·.index == r)
    | throw (.transportOutsideOpenRoute t.name r)
  let n := opened.stops.size
  if t.stopTimes.length ≠ n then throw (.stopTimesMismatch t.name t.stopTimes.length n)
  if 1 < t.lines.length ∧ t.lines.length ≠ n - 1 then
    throw (.sectionMismatch .lineNames (n - 1) t.lines.length)
  let some days := b.serviceDays.get? t.serviceDays
    | throw (.unknownServiceDays t.name t.serviceDays)
  if let some position := NewTransport.decrease? t.schedule then
    throw (.nonMonotonicTimes t.name position)
  let shifted := days.shift (NewTransport.dayOffset t.schedule)
  if shifted.isEmpty then throw (.noTrafficDay t.name)
  return (opened, shifted)

/-- Adds a transport to the open route. Its service days are kept even if one of its events turns
out to be too late. -/
def addTransport (b : Builder) (r : RouteIndex) (t : NewTransport) :
    Except TimetableError TransportIndex × Builder :=
  match b.checkTransport r t with
  | .error e => (.error e, b)
  | .ok (opened, days) =>
    let offset := NewTransport.dayOffset t.schedule
    let schedule := t.schedule.map (·.earlierByDays offset)
    let (i, store) := b.serviceDays.intern days
    let b := { b with serviceDays := store }
    match NewTransport.beyondSpan? schedule with
    | some position => (.error (.eventBeyondDaySpan t.name position), b)
    | none =>
      let transport : Transport := {
        name := t.name
        route := r
        serviceDays := i
        dayOffset := offset
        lines := t.lines }
      (.ok ⟨b.transports.size⟩,
        { b with
          transports := b.transports.push transport
          openRoute := some { opened with schedules := opened.schedules.push schedule } })

/-- Closes the open route. When that fails the route stays open, and the timetable can no longer be
built. -/
def finishRoute (b : Builder) : Except TimetableError Unit × Builder :=
  match b.openRoute with
  | none => (.error .noOpenRoute, b)
  | some opened =>
    match opened.close with
    | .error e => (.error e, { b with routeError := b.routeError.or (some e) })
    | .ok r => (.ok (), { b with routes := b.routes.push r, openRoute := none })

def addFootpath (b : Builder) (source target : LocationIndex) (duration : Duration) :
    Except TimetableError Unit × Builder :=
  match (do b.checkLocation source; b.checkLocation target) with
  | .error e => (.error e, b)
  | .ok () => (.ok (), { b with footpaths := b.footpaths.push (source, ⟨target, duration⟩) })

/-- Adds a footpath that holds from an instant on. -/
def addTimedFootpath (b : Builder) (source target : LocationIndex) (validFrom : Instant)
    (duration : Duration) : Except TimetableError Unit × Builder :=
  match (do b.checkLocation source; b.checkLocation target) with
  | .error e => (.error e, b)
  | .ok () =>
    (.ok (),
      { b with timedFootpaths := b.timedFootpaths.push (source, ⟨target, validFrom, duration⟩) })

/-- Every route at every location where it stops, once. -/
def routeEntries (b : Builder) : List (LocationIndex × RouteIndex) :=
  b.routes.toList.zipIdx.flatMap fun (r, i) =>
    (r.stops.toList.map (·.location)).eraseDups.map fun l => (l, ⟨i⟩)

/-- Order by location, then by target. -/
def footpathLe (x y : LocationIndex × Footpath) : Bool :=
  decide (x.1 < y.1) || (x.1 == y.1 && decide (x.2.target ≤ y.2.target))

/-- Order by location, then by target, then by the instant from which the footpath holds. -/
def timedFootpathLe (x y : LocationIndex × TimedFootpath) : Bool :=
  decide (x.1 < y.1) || (x.1 == y.1 && (decide (x.2.target < y.2.target) ||
    (x.2.target == y.2.target && decide (x.2.validFrom ≤ y.2.validFrom))))

/-- A footpath seen from its target. -/
def reversed (x : LocationIndex × Footpath) : LocationIndex × Footpath :=
  (x.2.target, { x.2 with target := x.1 })

/-- A timed footpath seen from its target. -/
def reversedTimed (x : LocationIndex × TimedFootpath) : LocationIndex × TimedFootpath :=
  (x.2.target, { x.2 with target := x.1 })

/-- The timetable of everything that was registered. -/
def freeze (b : Builder) : Timetable :=
  let n := b.locations.size
  let footpaths := b.footpaths.toList.mergeSort footpathLe
  let timed := b.timedFootpaths.toList.mergeSort timedFootpathLe
  { calendar := b.calendar
    locations := b.locations
    children := .ofKeyed n b.locations.parentEntries
    serviceDays := b.serviceDays
    routes := b.routes
    bikes := .ofRegister b.bikes
    transports := b.transports
    routesByLocation := .ofKeyed n b.routeEntries
    footpathsFrom := .ofKeyed n footpaths
    footpathsTo := .ofKeyed n ((footpaths.map reversed).mergeSort footpathLe)
    timedFootpathsFrom := .ofKeyed n timed
    timedFootpathsTo := .ofKeyed n ((timed.map reversedTimed).mergeSort timedFootpathLe) }

/-- The timetable, unless a route could not be closed, a route is open, or a parent is missing. -/
def build (b : Builder) : Except TimetableError Timetable :=
  match b.routeError, b.openRoute, b.locations.danglingParent? with
  | some e, _, _ => .error e
  | none, some r, _ => .error (.unfinishedRoute r.index)
  | none, none, some (l, p) => .error (.danglingParent l p)
  | none, none, none => .ok b.freeze

end Builder

end JourneyPlanner
