import JourneyPlanner.Data.BitSet
import JourneyPlanner.Data.Grid
import JourneyPlanner.Search.Query

/-!
What a search knows, round by round. Times are kept by location and by via level: level `v` stands
for partial journeys that already went through the first `v` via stops.

While round `k` runs, the starts of round `k - 1` tell when a vehicle can be boarded, and the
working times `tmp` collect the arrivals by vehicle, which become the ends of round `k` when the
round is finished.
-/

namespace JourneyPlanner

/-- Times by location (rows) and via level (columns). -/
abbrev Labels := Grid RelTime

namespace Labels

def unreached (locations levels : Nat) : Labels := .const locations levels .infeasible

/-- The time of a location at a level; unreachable outside the table. -/
def time (g : Labels) (l : LocationIndex) (level : Nat) : RelTime :=
  (g.get? l.val level).getD .infeasible

def setTime (g : Labels) (l : LocationIndex) (level : Nat) (t : RelTime) : Labels :=
  g.set l.val level t

@[simp] theorem time_unreached (locations levels : Nat) (l : LocationIndex) (level : Nat) :
    (unreached locations levels).time l level = .infeasible := by
  rw [time, unreached, Grid.get?_const]
  split <;> rfl

/-- Only the time that is set changes. -/
theorem time_setTime (g : Labels) (l : LocationIndex) (level : Nat) (t : RelTime)
    (l' : LocationIndex) (level' : Nat) :
    (g.setTime l level t).time l' level' =
      if l.val = l'.val ∧ level = level' ∧ l.val < g.rows ∧ level < g.columns then t
      else g.time l' level' := by
  rw [time, setTime, Grid.get?_set]
  split <;> rfl

end Labels

/-- What a search keeps from one round to the next one, and from one search to another. A set that is
always made anew before it is read is no part of it, since no bit of an earlier round can be seen in
it: the locations that were marked before `rotateMarks`, which the round takes from the state as it
was then, and the routes to be scanned, which begin as the empty set in each round. Transports with
changes in real time are only counted: no search marks one, or asks whether one is marked. -/
structure SearchState where
  /-- number of via levels -/
  levels : Nat
  nbOfLocations : Nat
  nbOfRoutes : Nat
  nbOfRealtimeTransports : Nat
  tmp : Labels
  /-- best arrivals by vehicle in the finished rounds -/
  best : Labels
  /-- best starts in the finished rounds -/
  bestStart : Labels
  /-- by round, when a location can be left by a vehicle -/
  starts : Array Labels
  /-- by round, when a location is reached by a vehicle -/
  ends : Array Labels
  /-- locations improved since the marks were last rotated -/
  marks : BitSet
  /-- locations from which the destination is reached -/
  exits : BitSet
deriving DecidableEq, Repr

namespace SearchState

/-- A state for a number of locations, in which nothing is reached. -/
def sized (levels locations routes realtimeTransports : Nat) : SearchState :=
  let unreached := Labels.unreached locations levels
  { levels := levels
    nbOfLocations := locations
    nbOfRoutes := routes
    nbOfRealtimeTransports := realtimeTransports
    tmp := unreached
    best := unreached
    bestStart := unreached
    starts := Array.replicate maxRounds unreached
    ends := Array.replicate maxRounds unreached
    marks := .empty locations
    exits := .empty locations }

/-- A state that serves queries with `levels - 1` via stops, not yet sized. -/
def new (levels : Nat) : SearchState := sized levels 0 0 0

def resize (s : SearchState) (locations routes realtimeTransports : Nat) : SearchState :=
  sized s.levels locations routes realtimeTransports

/-- Nothing is reached and nothing is marked. -/
def reset (s : SearchState) : SearchState :=
  sized s.levels s.nbOfLocations s.nbOfRoutes s.nbOfRealtimeTransports

/-- Every time of every table is overwritten, and every mark taken away; the tables are those that
were there before. -/
def clear (s : SearchState) : SearchState :=
  { s with
    tmp := s.tmp.fill .infeasible
    best := s.best.fill .infeasible
    bestStart := s.bestStart.fill .infeasible
    starts := s.starts.map fun g => g.fill .infeasible
    ends := s.ends.map fun g => g.fill .infeasible
    marks := s.marks.clear
    exits := s.exits.clear }

def nbOfVias (s : SearchState) : Nat := s.levels - 1

def isSizedFor (s : SearchState) (locations routes : Nat) : Bool :=
  s.nbOfLocations == locations && s.nbOfRoutes == routes

/-- When a location can be left after a number of vehicles. -/
def start (s : SearchState) (round : Nat) (l : LocationIndex) (level : Nat) : RelTime :=
  ((s.starts[round]?).map (·.time l level)).getD .infeasible

/-- When a location is reached by the vehicle of a round. -/
def finish (s : SearchState) (round : Nat) (l : LocationIndex) (level : Nat) : RelTime :=
  ((s.ends[round]?).map (·.time l level)).getD .infeasible

def setStart (s : SearchState) (round : Nat) (l : LocationIndex) (level : Nat) (t : RelTime) :
    SearchState :=
  { s with starts := s.starts.modify round fun g => g.setTime l level t }

def setTmp (s : SearchState) (l : LocationIndex) (level : Nat) (t : RelTime) : SearchState :=
  { s with tmp := s.tmp.setTime l level t }

def mark (s : SearchState) (l : LocationIndex) : SearchState :=
  { s with marks := s.marks.insert l.val }

/-- The marks begin anew. The old ones are read off the state before, and only until the marks are
rotated again. -/
def rotateMarks (s : SearchState) : SearchState := { s with marks := s.marks.clear }

def anyMarked (s : SearchState) : Bool := !s.marks.isEmpty

/-- The marked locations, in order. -/
def marked (s : SearchState) : List LocationIndex := s.marks.toList.map Index.mk

def isExit (s : SearchState) (l : LocationIndex) : Bool := s.exits.contains l.val

def addExit (s : SearchState) (l : LocationIndex) : SearchState :=
  { s with exits := s.exits.insert l.val }

/-- Ends a round: the working times become its ends, and improve the best arrivals; its starts
improve the best starts. -/
def finishRound (s : SearchState) (dir : Direction) (round : Nat) : SearchState :=
  { s with
    best := s.best.zipWith dir.best s.tmp
    bestStart := match s.starts[round]? with
      | some starts => s.bestStart.zipWith dir.best starts
      | none => s.bestStart
    ends := s.ends.setIfInBounds round s.tmp
    tmp := .unreached s.nbOfLocations s.levels }

end SearchState

end JourneyPlanner
