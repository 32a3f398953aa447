import JourneyPlanner.Search.State
import JourneyPlanner.Search.Walk

/-!
What a search has found so far: the round times, and for each round the last way to the destination
that was better than all before it. A time that is not better than the best way to the destination
is never written.
-/

namespace JourneyPlanner

/-- A location reached by a vehicle, or from the start, at a via level. -/
structure Arrival where
  location : LocationIndex
  level : Nat
  time : RelTime
deriving DecidableEq, Repr

/-- A way to the destination: from an arrival, possibly by a walk, to the location of an egress that
is reached at `time`. -/
structure Hit where
  arrival : Arrival
  walk : Option Walk
  location : LocationIndex
  time : RelTime
  egress : Offset
  destinationTime : RelTime
deriving DecidableEq, Repr

structure Progress where
  state : SearchState
  /-- the way to the destination found in each round -/
  hits : Array (Option Hit)
  bestDestination : RelTime
deriving DecidableEq, Repr

namespace Progress

/-- Nothing is found yet. -/
def start (state : SearchState) : Progress :=
  ⟨state, Array.replicate maxRounds none, .infeasible⟩

def hit? (p : Progress) (round : Nat) : Option Hit := (p.hits[round]?).join

def mapState (p : Progress) (f : SearchState → SearchState) : Progress :=
  { p with state := f p.state }

end Progress

namespace Search

/-- Someone is at a location at a time, having alighted at an arrival and possibly walked. When a
vehicle was used, every via stop is behind and the destination is reached earlier than before, this
is the way to the destination of the round. -/
def reachDestination (s : Search) (round : Nat) (arrival : Arrival) (walk : Option Walk)
    (l : LocationIndex) (level : Nat) (t : RelTime) (p : Progress) : Progress :=
  if round = 0 ∨ level + 1 ≠ s.levels ∨ !p.state.isExit l then p
  else match s.egress? l with
    | none => p
    | some egress =>
      let destinationTime := s.dir.add t egress.duration
      if s.dir.isBetter destinationTime p.bestDestination then
        { p with
          bestDestination := destinationTime
          hits := p.hits.setIfInBounds round
            (some ⟨arrival, walk, l, t, egress, destinationTime⟩) }
      else p

/-- A vehicle reaches a location at a time: kept when it is better than what is known. -/
def improveArrival (s : Search) (l : LocationIndex) (level : Nat) (t : RelTime) (p : Progress) :
    Progress :=
  if s.dir.isBetter t (p.state.tmp.time l level) && s.dir.isBetter t (p.state.best.time l level) &&
      s.dir.isBetter t p.bestDestination then
    p.mapState fun state => (state.setTmp l level t).mark l
  else p

/-- A location can be left at a time: kept when it is better than what is known. -/
def improveStart (s : Search) (round : Nat) (l : LocationIndex) (level : Nat) (t : RelTime)
    (p : Progress) : Progress :=
  if s.dir.isBetter t (p.state.start round l level) &&
      s.dir.isBetter t (p.state.bestStart.time l level) && s.dir.isBetter t p.bestDestination then
    p.mapState fun state => (state.setStart round l level t).mark l
  else p

end Search

end JourneyPlanner
