import JourneyPlanner.Search.Query

/-!
A search from one instant, and the rules that its phases share. Times are relative to the midnight
of the base day, which is the day of the instant. A backward search follows the same rules with time
running backward: it begins a ride at an arrival and ends it at a departure, meets the stops of a
route from the last one, and goes through the via stops in reverse order.
-/

namespace JourneyPlanner

namespace Direction

/-- The event at which a ride of the search begins. -/
def boardEvent : Direction → StopEvent
  | forward => .departure
  | backward => .arrival

/-- The event at which a ride of the search ends. -/
def alightEvent (dir : Direction) : StopEvent := dir.opposite.boardEvent

/-- The position of the stop met in a step, on a route of `n` stops. -/
def position (dir : Direction) (n step : Nat) : Nat :=
  match dir with
  | forward => step
  | backward => n - 1 - step

/-- The section ridden from a stop. -/
def sectionFrom (dir : Direction) (position : Nat) : Nat :=
  match dir with
  | forward => position
  | backward => position - 1

end Direction

namespace Query

/-- The class of a route is allowed, and a required bike can be carried on some section. -/
def admits (q : Query) (tt : Timetable) (r : RouteIndex) : Bool :=
  ((tt.mainClass? r).map q.allowedClasses.contains).getD false &&
    (!q.requireBikes || (tt.bikeAccess r).onSome)

/-- The section that begins at a position, in search order, can be ridden. -/
def canLeave (q : Query) (tt : Timetable) (r : RouteIndex) (position : Nat) : Bool :=
  !q.requireBikes || (tt.bikeAccess r).allows (q.direction.sectionFrom position)

/-- The via stops in search order. -/
def searchVias (q : Query) : List ViaStop :=
  match q.direction with
  | .forward => q.vias
  | .backward => q.vias.reverse

/-- The number of via levels. -/
def levels (q : Query) : Nat := q.vias.length + 1

end Query

namespace Offset

/-- The offset of least duration, the first one of several. -/
def shortest? : List Offset → Option Offset
  | [] => none
  | o :: rest => some (rest.foldl (fun a b => if b.duration < a.duration then b else a) o)

end Offset

/-- A search from one instant. -/
structure Search where
  timetable : Timetable
  query : Query
  baseDay : Day
  start : RelTime

namespace Search

def dir (s : Search) : Direction := s.query.direction

def levels (s : Search) : Nat := s.query.levels

/-- The via stop that comes after a level, when it is at a location. -/
def viaAt? (s : Search) (level : Nat) (l : LocationIndex) : Option ViaStop :=
  (s.query.searchVias[level]?).filter (·.location == l)

/-- The levels reached at a location from `level` on, when `vias` are still to come, each with the
stay that it takes. -/
def staysAt (l : LocationIndex) (level : Nat) (stay : Duration) :
    List ViaStop → List (Nat × Duration)
  | [] => [(level, stay)]
  | v :: rest =>
    (level, stay) ::
      if v.location = l then staysAt l (level + 1) (stay.add v.stay) rest else []

/-- The levels reached at a location from a level on, each with the stay that it takes. -/
def stays (s : Search) (l : LocationIndex) (level : Nat) : List (Nat × Duration) :=
  staysAt l level .zero (s.query.searchVias.drop level)

/-- The stay that it takes at a location to come from one level to another. -/
def stay? (s : Search) (l : LocationIndex) (level target : Nat) : Option Duration :=
  (s.stays l level).lookup target

/-- The levels reached at a location from `level` on, when `vias` are still to come, each with the
time at which it is reached: one stay is added after the other. -/
def reachedAt (dir : Direction) (l : LocationIndex) (level : Nat) (t : RelTime) :
    List ViaStop → List (Nat × RelTime)
  | [] => [(level, t)]
  | v :: rest =>
    (level, t) ::
      if v.location = l then reachedAt dir l (level + 1) (dir.add t v.stay) rest else []

/-- The levels reached from a level on by someone who comes to a location at a time. -/
def reached (s : Search) (l : LocationIndex) (level : Nat) (t : RelTime) : List (Nat × RelTime) :=
  reachedAt s.dir l level t (s.query.searchVias.drop level)

/-- The shortest way from a location to the end of the journey. -/
def egress? (s : Search) (l : LocationIndex) : Option Offset :=
  Offset.shortest? (s.query.destination.filter (·.location == l))

/-- The time of an offset of the start. -/
def seedTime (s : Search) (o : Offset) : RelTime := s.dir.add s.start o.duration

/-- The instant of a time of the search. -/
def instant? (s : Search) (t : RelTime) : Option Instant :=
  s.timetable.calendar.absolute? s.baseDay t

end Search

end JourneyPlanner
