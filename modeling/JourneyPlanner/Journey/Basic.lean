import JourneyPlanner.Data.Index
import JourneyPlanner.Time.Day
import JourneyPlanner.Time.Instant

/-!
Journeys: legs in travel order, and the order by which journeys are compared.
-/

namespace JourneyPlanner

inductive LegKind where
  /-- between a location and the virtual start or end, by a mode that the query names -/
  | offset (mode : Nat)
  | footpath
  /-- from one stop position to another of a transport that leaves its first stop on `day` -/
  | ride (transport : TransportIndex) (day : Day) (board alight : Nat)
deriving DecidableEq, Repr

/-- The traveller leaves `source` at `departure` and reaches `target` at `arrival`. Both ends of an
offset are the location that is not virtual. -/
structure Leg where
  source : LocationIndex
  target : LocationIndex
  departure : Instant
  arrival : Instant
  kind : LegKind
deriving DecidableEq, Repr

def Leg.transport? (leg : Leg) : Option TransportIndex :=
  match leg.kind with
  | .ride transport _ _ _ => some transport
  | _ => none

structure Journey where
  departure : Instant
  arrival : Instant
  nbOfTransfers : Nat
  legs : List Leg
deriving DecidableEq, Repr

namespace Journey

def duration? (j : Journey) : Option Duration := j.arrival.since j.departure

/-- The transports used, in travel order. -/
def transports (j : Journey) : List TransportIndex := j.legs.filterMap Leg.transport?

/-- At least as good on departure, arrival and transfers, and better on one of them. -/
def dominates (j other : Journey) : Bool :=
  (decide (other.departure ≤ j.departure) && decide (j.arrival ≤ other.arrival) &&
    decide (j.nbOfTransfers ≤ other.nbOfTransfers)) &&
  (decide (other.departure < j.departure) || decide (j.arrival < other.arrival) ||
    decide (j.nbOfTransfers < other.nbOfTransfers))

/-- Order by departure, then by arrival, then by the number of transfers. -/
def keyLe (j other : Journey) : Bool :=
  decide (j.departure < other.departure) || (j.departure == other.departure &&
    (decide (j.arrival < other.arrival) || (j.arrival == other.arrival &&
      decide (j.nbOfTransfers ≤ other.nbOfTransfers))))

/-- The same departure, arrival and number of transfers. -/
def sameKey (j other : Journey) : Bool :=
  j.departure == other.departure && j.arrival == other.arrival &&
    j.nbOfTransfers == other.nbOfTransfers

/-- Journeys sorted by key; those of one key stay in their order. -/
def sortByKey (journeys : List Journey) : List Journey := journeys.mergeSort keyLe

/-- Of neighbours with one key, only the first. -/
def dropRepeats : List Journey → List Journey
  | [] => []
  | j :: rest => j :: dropRepeats (rest.dropWhile j.sameKey)
termination_by js => js.length
decreasing_by exact Nat.lt_succ_of_le (List.dropWhile_suffix _).length_le

/-- The journeys that no other one dominates, one for each key, sorted. -/
def paretoFilter (journeys : List Journey) : List Journey :=
  let distinct := dropRepeats (sortByKey journeys)
  distinct.filter fun j => !distinct.any fun other => other.dominates j

end Journey

end JourneyPlanner
