import JourneyPlanner.Journey.Basic
import JourneyPlanner.Search.Basic

/-!
The places where a journey stays, and the longest stays that via stops allow. The via stops are
given to the visits of a journey greedily, in travel order; a visit that is long enough for a via
stop, but longer than it allows, makes the journey useless.
-/

namespace JourneyPlanner

/-- A location passed or visited, and the time spent there. -/
structure Visit where
  location : LocationIndex
  stay : Duration
deriving DecidableEq, Repr

namespace Leg

/-- The stops that a leg passes without the traveller leaving the vehicle. -/
def passed (tt : Timetable) (leg : Leg) : List Visit :=
  match leg.kind with
  | .ride transport _ board alight =>
    ((tt.stops (tt.routeOf transport)).extract (board + 1) alight).toList.map
      fun stop => ⟨stop.location, .zero⟩
  | _ => []

/-- The time between a leg and the next one, at the location where they meet. -/
def gap (leg next : Leg) : List Visit :=
  if next.source = leg.target then
    [⟨leg.target, (next.departure.since leg.arrival).getD .zero⟩]
  else []

end Leg

namespace Journey

/-- The visits of the legs of a journey, in travel order. -/
def visitsOf (tt : Timetable) : List Leg → List Visit
  | [] => []
  | [leg] => leg.passed tt
  | leg :: next :: rest => leg.passed tt ++ leg.gap next ++ visitsOf tt (next :: rest)

def visits (tt : Timetable) (j : Journey) : List Visit := visitsOf tt j.legs

end Journey

namespace ViaStop

/-- Gives a visit as many via stops as it is long enough for, when some already require a stay
there. Answers the via stops left over, or nothing when the visit is longer than one allows. -/
def serve (visit : Visit) (required : Duration) : List ViaStop → Option (List ViaStop)
  | [] => some []
  | via :: rest =>
    if via.location ≠ visit.location ∨ visit.stay < required.add via.stay then some (via :: rest)
    else if (via.maxStay.map fun m => decide (m < visit.stay)).getD false then none
    else serve visit (required.add via.stay) rest

/-- No visit is longer than a via stop that it is given allows. -/
def respected : List ViaStop → List Visit → Bool
  | _, [] => true
  | vias, visit :: rest =>
    match serve visit .zero vias with
    | none => false
    | some left => respected left rest

end ViaStop

/-- A journey stays at no via stop longer than it allows. -/
def Query.allowsStays (q : Query) (tt : Timetable) (j : Journey) : Bool :=
  q.vias.all (·.maxStay.isNone) || ViaStop.respected q.vias (j.visits tt)

end JourneyPlanner
