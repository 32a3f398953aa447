import JourneyPlanner.Data.Buckets
import JourneyPlanner.Network.BikeTable
import JourneyPlanner.Network.Footpath
import JourneyPlanner.Network.Location
import JourneyPlanner.Network.Route
import JourneyPlanner.Time.ServiceDays

/-!
Timetables as a search reads them. Everything is looked up by index; a look-up beyond the end finds
nothing, an empty list or a neutral value.
-/

namespace JourneyPlanner

/-- A vehicle that serves every stop of its route on each of its service days. -/
structure Transport where
  name : String
  route : RouteIndex
  /-- the days on which it leaves its first stop -/
  serviceDays : ServiceDaysIndex
  /-- the days from its service date to the day on which it leaves its first stop -/
  dayOffset : Nat
  /-- no line, one line, or one line per section -/
  lines : List String
deriving DecidableEq, Repr

structure Timetable where
  calendar : Calendar
  locations : Locations
  children : Buckets .location LocationIndex
  serviceDays : ServiceDaysStore
  routes : Array Route
  bikes : BikeTable
  transports : Array Transport
  routesByLocation : Buckets .location RouteIndex
  footpathsFrom : Buckets .location Footpath
  footpathsTo : Buckets .location Footpath
  timedFootpathsFrom : Buckets .location TimedFootpath
  timedFootpathsTo : Buckets .location TimedFootpath
deriving DecidableEq, Repr

namespace Timetable

def nbOfLocations (tt : Timetable) : Nat := tt.locations.size

def nbOfRoutes (tt : Timetable) : Nat := tt.routes.size

def nbOfTransports (tt : Timetable) : Nat := tt.transports.size

def route? (tt : Timetable) (r : RouteIndex) : Option Route := tt.routes[r.val]?

def transport? (tt : Timetable) (t : TransportIndex) : Option Transport := tt.transports[t.val]?

def stops (tt : Timetable) (r : RouteIndex) : Array RouteStop :=
  ((tt.route? r).map (·.stops)).getD #[]

/-- The transports of a route have consecutive indices. -/
def transportsOf (tt : Timetable) (r : RouteIndex) : IndexRange .transport :=
  ((tt.route? r).map (·.transports)).getD ⟨⟨0⟩, 0⟩

def routeOf (tt : Timetable) (t : TransportIndex) : RouteIndex :=
  ((tt.transport? t).map (·.route)).getD ⟨0⟩

def name (tt : Timetable) (t : TransportIndex) : String :=
  ((tt.transport? t).map (·.name)).getD ""

def dayOffset (tt : Timetable) (t : TransportIndex) : Nat :=
  ((tt.transport? t).map (·.dayOffset)).getD 0

/-- The times of an event for all transports of a route, in their order. -/
def timesAt (tt : Timetable) (r : RouteIndex) (position : Nat) (event : StopEvent) :
    List ServiceTime :=
  ((tt.route? r).map (·.timesAt position event)).getD []

/-- The time of an event for the transport in a column of a route. -/
def columnTime (tt : Timetable) (r : RouteIndex) (column position : Nat) (event : StopEvent) :
    ServiceTime :=
  ((tt.route? r).bind (·.timeAt? column position event)).getD .midnight

/-- The time of an event of a transport, at a stop of its route. -/
def eventTime (tt : Timetable) (t : TransportIndex) (position : Nat) (event : StopEvent) :
    ServiceTime :=
  let r := tt.routeOf t
  tt.columnTime r (t.val - (tt.transportsOf r).start.val) position event

/-- The instant of an event of a transport that runs on a day. -/
def eventInstant (tt : Timetable) (t : TransportIndex) (d : Day) (position : Nat)
    (event : StopEvent) : Instant :=
  tt.calendar.instantOf d (tt.eventTime t position event)

/-- The days on which a transport leaves its first stop. -/
def daysOf? (tt : Timetable) (t : TransportIndex) : Option ServiceDays :=
  (tt.transport? t).bind fun x => tt.serviceDays.get? x.serviceDays

def daysOf (tt : Timetable) (t : TransportIndex) : List Day :=
  ((tt.daysOf? t).map (·.toList)).getD []

/-- The transport leaves its first stop on a day. -/
def isActive (tt : Timetable) (t : TransportIndex) (d : Day) : Bool :=
  ((tt.daysOf? t).map (·.contains d)).getD false

/-- The date under which a feed lists the transport that runs on a day. -/
def serviceDate? (tt : Timetable) (t : TransportIndex) (d : Day) : Option Date :=
  (d.shift? (-(tt.dayOffset t))).map tt.calendar.dateOf

/-- The line of a transport on a section. -/
def lineOf? (tt : Timetable) (t : TransportIndex) (position : Nat) : Option String :=
  match ((tt.transport? t).map (·.lines)).getD [] with
  | [] => none
  | [line] => some line
  | lines => lines[position]?

def sectionClass? (tt : Timetable) (r : RouteIndex) (position : Nat) : Option ServiceClass :=
  (tt.route? r).bind (·.classes.at? position)

/-- The class by which a route is admitted to a search. -/
def mainClass? (tt : Timetable) (r : RouteIndex) : Option ServiceClass :=
  (tt.route? r).map (·.mainClass)

def bikeAccess (tt : Timetable) (r : RouteIndex) : BikeAccess := tt.bikes.access r

/-- The routes that stop at a location. -/
def routesAt (tt : Timetable) (l : LocationIndex) : List RouteIndex := tt.routesByLocation.get l

/-- The footpaths that a search in a direction takes from a location. -/
def footpaths (tt : Timetable) (dir : Direction) (l : LocationIndex) : List Footpath :=
  match dir with
  | .forward => tt.footpathsFrom.get l
  | .backward => tt.footpathsTo.get l

/-- The timed footpaths that a search in a direction takes from a location. -/
def timedFootpaths (tt : Timetable) (dir : Direction) (l : LocationIndex) : List TimedFootpath :=
  match dir with
  | .forward => tt.timedFootpathsFrom.get l
  | .backward => tt.timedFootpathsTo.get l

end Timetable

end JourneyPlanner
