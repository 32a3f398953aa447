import JourneyPlanner.Search.Visit

/-!
Which via stops a journey serves: the via stops are given in order to the visits in order, several
of them to one visit when it is long enough for all. A via stop that is not exceeded is one whose
visit is no longer than its longest stay.
-/

namespace JourneyPlanner

namespace ViaStop

/-- The least time that several via stops ask for together. -/
def totalStay (vias : List ViaStop) : Nat :=
  vias.foldr (fun via total => via.stay.minutes + total) 0

/-- A visit is no longer than a via stop allows. -/
def Permits (via : ViaStop) (visit : Visit) : Prop := ∀ longest ∈ via.maxStay, visit.stay ≤ longest

/-- Several via stops are served by one visit. -/
structure ServedBy (vias : List ViaStop) (visit : Visit) : Prop where
  at_location : ∀ via ∈ vias, via.location = visit.location
  long_enough : totalStay vias ≤ visit.stay.minutes
  permitted : ∀ via ∈ vias, via.Permits visit

/-- Via stops are given in order to visits in order; a visit may be given none. -/
inductive Assigned : List ViaStop → List Visit → Prop
  | done (visits : List Visit) : Assigned [] visits
  | pass {vias : List ViaStop} {visits : List Visit} (visit : Visit) :
    Assigned vias visits → Assigned vias (visit :: visits)
  | give {vias others : List ViaStop} {visits : List Visit} (visit : Visit) :
    ServedBy vias visit → Assigned others visits → Assigned (vias ++ others) (visit :: visits)

end ViaStop

/-- Every via stop of a query is served by a visit of a journey, in travel order. -/
def Journey.Serves (j : Journey) (tt : Timetable) (q : Query) : Prop :=
  ViaStop.Assigned q.vias (j.visits tt)

end JourneyPlanner
