import JourneyPlanner.Data.Grid
import JourneyPlanner.Data.Index
import JourneyPlanner.Network.ServiceClass
import JourneyPlanner.Time.Direction
import JourneyPlanner.Time.ServiceTime

/-!
Routes: a sequence of stops served by transports that never overtake each other. The section at
position `p` goes from stop `p` to the next one. The times of a route are a table with one row per
event, in the order in which a transport meets them, and one column per transport.
-/

namespace JourneyPlanner

/-- A location of a route, and whether passengers may board and alight there. -/
structure RouteStop where
  location : LocationIndex
  boarding : Bool
  alighting : Bool
deriving DecidableEq, Repr

namespace RouteStop

/-- A ride of a search in this direction can begin here. -/
def canStart (s : RouteStop) : Direction → Bool
  | .forward => s.boarding
  | .backward => s.alighting

/-- A ride of a search in this direction can end here. -/
def canFinish (s : RouteStop) (dir : Direction) : Bool := s.canStart dir.opposite

end RouteStop

/-- What happens to a transport at a stop. -/
inductive StopEvent where
  | arrival
  | departure
deriving DecidableEq, Repr

/-- The row of an event in the table of times: departure from stop 0, arrival at stop 1, departure
from stop 1, and so on. -/
def StopEvent.row (position : Nat) : StopEvent → Nat
  | departure => 2 * position
  | arrival => 2 * position - 1

/-- The events of a route of `n` stops, in the order of their rows. -/
def StopEvent.all (n : Nat) : List (Nat × StopEvent) :=
  (List.range n).flatMap fun p =>
    (if p = 0 then [] else [(p, arrival)]) ++ (if p + 1 = n then [] else [(p, departure)])

/-- A value for every section of a route: the same one for all, or one each. -/
structure Sections (α : Type) where
  first : α
  others : List α
deriving DecidableEq, Repr

namespace Sections

variable {α : Type}

/-- One value, or as many as there are sections. -/
def ofList? (nbOfSections : Nat) : List α → Option (Sections α)
  | [] => none
  | a :: as => if as.length = 0 ∨ as.length + 1 = nbOfSections then some ⟨a, as⟩ else none

def toList (s : Sections α) : List α := s.first :: s.others

/-- The value of the section at a position. -/
def at? (s : Sections α) (position : Nat) : Option α :=
  if s.others.isEmpty then some s.first else s.toList[position]?

end Sections

structure Route where
  stops : Array RouteStop
  classes : Sections ServiceClass
  transports : IndexRange .transport
  times : Grid ServiceTime
deriving DecidableEq, Repr

namespace Route

/-- The class by which the whole route is admitted to a search. -/
def mainClass (r : Route) : ServiceClass := r.classes.first

/-- The times of an event for all transports of the route. -/
def timesAt (r : Route) (position : Nat) (event : StopEvent) : List ServiceTime :=
  r.times.row (event.row position)

/-- The time of an event for the transport in a column. -/
def timeAt? (r : Route) (column position : Nat) (event : StopEvent) : Option ServiceTime :=
  r.times.get? (event.row position) column

end Route

end JourneyPlanner
