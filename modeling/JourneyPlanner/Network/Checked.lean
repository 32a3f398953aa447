import JourneyPlanner.Data.Checked
import JourneyPlanner.Network.Timetable

/-!
Look-ups in a timetable that tell when they leave it. The rows of a route's table are numbered
without gaps because nothing departs from its last stop and nothing arrives at its first one: the
row of an event checks that the event exists.
-/

namespace JourneyPlanner

open Checked

/-- The row of an event on a route of `n` stops. -/
def StopEvent.rowM (n position : Nat) : StopEvent → Checked Nat
  | departure => do
    require (position + 1 < n) (.place (position + 1) n)
    return 2 * position
  | arrival => do
    require (position < n) (.place position n)
    difference (2 * position) 1

namespace Locations

def transferTimeM (ls : Locations) (l : LocationIndex) : Checked Duration := do
  let location ← item ls.entries l.val
  return location.transferTime

end Locations

namespace BikeTable

/-- A bike can be carried on a section. The sections of a route are looked up only where they
differ. -/
def allowsM (t : BikeTable) (r : RouteIndex) (position : Nat) : Checked Bool :=
  if t.onAll r then return true
  else if t.onSome r then do
    let sections ← t.sections.getM r
    item sections.toArray position
  else return false

end BikeTable

namespace Timetable

def routeM (tt : Timetable) (r : RouteIndex) : Checked Route := item tt.routes r.val

def transportM (tt : Timetable) (t : TransportIndex) : Checked Transport := item tt.transports t.val

def stopsM (tt : Timetable) (r : RouteIndex) : Checked (Array RouteStop) := do
  let route ← tt.routeM r
  return route.stops

def transportsOfM (tt : Timetable) (r : RouteIndex) : Checked (IndexRange .transport) := do
  let route ← tt.routeM r
  return route.transports

def routeOfM (tt : Timetable) (t : TransportIndex) : Checked RouteIndex := do
  let transport ← tt.transportM t
  return transport.route

def mainClassM (tt : Timetable) (r : RouteIndex) : Checked ServiceClass := do
  let route ← tt.routeM r
  return route.mainClass

def timesAtM (tt : Timetable) (r : RouteIndex) (position : Nat) (event : StopEvent) :
    Checked (List ServiceTime) := do
  let route ← tt.routeM r
  let row ← event.rowM route.stops.size position
  require (row < route.times.rows) (.place row route.times.rows)
  -- one column for each transport of the route
  stretch (route.times.row row) 0 route.transports.size

def columnTimeM (tt : Timetable) (r : RouteIndex) (column position : Nat) (event : StopEvent) :
    Checked ServiceTime := do
  let route ← tt.routeM r
  let row ← event.rowM route.stops.size position
  route.times.getM row column

def eventTimeM (tt : Timetable) (r : RouteIndex) (t : TransportIndex) (position : Nat)
    (event : StopEvent) : Checked ServiceTime := do
  let transports ← tt.transportsOfM r
  let column ← difference t.val transports.start.val
  -- a column of another route would be in the table, but not of this transport
  require (column < transports.size) (.place column transports.size)
  tt.columnTimeM r column position event

/-- The days on which a transport leaves its first stop. -/
def daysOfM (tt : Timetable) (t : TransportIndex) : Checked ServiceDays := do
  let transport ← tt.transportM t
  item tt.serviceDays.sets transport.serviceDays.val

def isActiveM (tt : Timetable) (t : TransportIndex) (d : Day) : Checked Bool := do
  let days ← tt.daysOfM t
  return days.contains d

def routesAtM (tt : Timetable) (l : LocationIndex) : Checked (List RouteIndex) :=
  tt.routesByLocation.getM l

def footpathsM (tt : Timetable) (dir : Direction) (l : LocationIndex) : Checked (List Footpath) :=
  match dir with
  | .forward => tt.footpathsFrom.getM l
  | .backward => tt.footpathsTo.getM l

def timedFootpathsM (tt : Timetable) (dir : Direction) (l : LocationIndex) :
    Checked (List TimedFootpath) :=
  match dir with
  | .forward => tt.timedFootpathsFrom.getM l
  | .backward => tt.timedFootpathsTo.getM l

end Timetable

namespace TimedFootpath

def runsFromM (footpaths : List TimedFootpath) (first : Nat) :
    Checked (List (List TimedFootpath)) :=
  if h : first < footpaths.length then
    let stop := runEnd footpaths first footpaths[first].target
    have : first < stop := lt_runEnd h
    do
      let run ← stretch footpaths first stop
      let rest ← runsFromM footpaths stop
      return run :: rest
  else return []
termination_by footpaths.length - first

def walksM (dir : Direction) (footpaths : List TimedFootpath) (t : Instant) :
    Checked (List (LocationIndex × WaitingWalk)) := do
  let runs ← runsFromM footpaths 0
  return runs.filterMap fun run => do
    let f ← run.head?
    let w ← walk? dir run t
    return (f.target, w)

def runToM (footpaths : List TimedFootpath) (target : LocationIndex) :
    Checked (List TimedFootpath) := do
  let fs := footpaths.toArray
  let targetBefore (p : LocationIndex → Bool) : Checked Nat :=
    partitionPointM fs.size fun i => do
      let f ← item fs i
      return p f.target
  let first ← targetBefore fun l => decide (l < target)
  let stop ← targetBefore fun l => decide (l ≤ target)
  stretch footpaths first stop

end TimedFootpath

end JourneyPlanner
