import JourneyPlanner.Network.Checked
import JourneyPlanner.Search.Progress
import JourneyPlanner.Search.Scan

/-!
The tables of a search, and the improvements of what it knows, with every look-up checked: rounds,
locations, via levels, marks, positions of stops, sections and the ways to the destination. What
each checked form is for is told at the function that it checks.
-/

namespace JourneyPlanner

open Checked

namespace Direction

def positionM (dir : Direction) (n step : Nat) : Checked Nat :=
  match dir with
  | forward => return step
  | backward => do
    let last ← difference n 1
    difference last step

def sectionFromM (dir : Direction) (position : Nat) : Checked Nat :=
  match dir with
  | forward => return position
  | backward => difference position 1

end Direction

namespace Labels

def timeM (g : Labels) (l : LocationIndex) (level : Nat) : Checked RelTime := g.getM l.val level

def setTimeM (g : Labels) (l : LocationIndex) (level : Nat) (t : RelTime) : Checked Labels :=
  g.setM l.val level t

end Labels

namespace SearchState

def startM (s : SearchState) (round : Nat) (l : LocationIndex) (level : Nat) : Checked RelTime := do
  let starts ← item s.starts round
  starts.timeM l level

def finishM (s : SearchState) (round : Nat) (l : LocationIndex) (level : Nat) :
    Checked RelTime := do
  let ends ← item s.ends round
  ends.timeM l level

def setStartM (s : SearchState) (round : Nat) (l : LocationIndex) (level : Nat) (t : RelTime) :
    Checked SearchState := do
  let starts ← item s.starts round
  let starts ← starts.setTimeM l level t
  return { s with starts := s.starts.setIfInBounds round starts }

def setTmpM (s : SearchState) (l : LocationIndex) (level : Nat) (t : RelTime) :
    Checked SearchState := do
  let tmp ← s.tmp.setTimeM l level t
  return { s with tmp := tmp }

def markM (s : SearchState) (l : LocationIndex) : Checked SearchState := do
  let marks ← s.marks.insertM l.val
  return { s with marks := marks }

def addExitM (s : SearchState) (l : LocationIndex) : Checked SearchState := do
  let exits ← s.exits.insertM l.val
  return { s with exits := exits }

/-- Ends a round. The working times are copied over the ends of the round, which must be as many. -/
def finishRoundM (s : SearchState) (dir : Direction) (round : Nat) : Checked SearchState := do
  let starts ← item s.starts round
  let ends ← item s.ends round
  require (ends.rows = s.tmp.rows ∧ ends.columns = s.tmp.columns)
    (.entry s.tmp.rows s.tmp.columns ends.rows ends.columns)
  return { s with
    best := s.best.zipWith dir.best s.tmp
    bestStart := s.bestStart.zipWith dir.best starts
    ends := s.ends.setIfInBounds round s.tmp
    tmp := .unreached s.nbOfLocations s.levels }

end SearchState

namespace Progress

def hitM (p : Progress) (round : Nat) : Checked (Option Hit) := item p.hits round

end Progress

namespace Query

def admitsM (q : Query) (tt : Timetable) (r : RouteIndex) : Checked Bool := do
  let mainClass ← tt.mainClassM r
  return q.allowedClasses.contains mainClass && (!q.requireBikes || (tt.bikeAccess r).onSome)

def canLeaveM (q : Query) (tt : Timetable) (r : RouteIndex) (position : Nat) : Checked Bool :=
  if q.requireBikes then do
    let ridden ← q.direction.sectionFromM position
    tt.bikes.allowsM r ridden
  else return true

end Query

namespace Search

def eventTimeM (s : Search) (r : RouteIndex) (trip : Trip) (position : Nat) (event : StopEvent) :
    Checked RelTime := do
  let time ← s.timetable.eventTimeM r trip.transport position event
  return s.timetable.calendar.eventTime s.baseDay trip.day time

def boardTimeM (s : Search) (r : RouteIndex) (trip : Trip) (position : Nat) : Checked RelTime :=
  s.eventTimeM r trip position s.dir.boardEvent

def alightTimeM (s : Search) (r : RouteIndex) (trip : Trip) (position : Nat) : Checked RelTime :=
  s.eventTimeM r trip position s.dir.alightEvent

def reachDestinationM (s : Search) (round : Nat) (arrival : Arrival) (walk : Option Walk)
    (l : LocationIndex) (level : Nat) (t : RelTime) (p : Progress) : Checked Progress :=
  if round = 0 ∨ level + 1 ≠ s.levels ∨ !p.state.isExit l then return p
  else match s.egress? l with
    | none => return p
    | some egress =>
      let destinationTime := s.dir.add t egress.duration
      if s.dir.isBetter destinationTime p.bestDestination then do
        -- one place for each round, as many as a query may ask for
        require (round < p.hits.size) (.place round p.hits.size)
        return { p with
          bestDestination := destinationTime
          hits := p.hits.setIfInBounds round
            (some ⟨arrival, walk, l, t, egress, destinationTime⟩) }
      else return p

def improveArrivalM (s : Search) (l : LocationIndex) (level : Nat) (t : RelTime) (p : Progress) :
    Checked Progress := do
  let tmp ← p.state.tmp.timeM l level
  let best ← p.state.best.timeM l level
  if s.dir.isBetter t tmp && s.dir.isBetter t best && s.dir.isBetter t p.bestDestination then
    let state ← p.state.setTmpM l level t
    let state ← state.markM l
    return p.mapState fun _ => state
  else return p

def improveStartM (s : Search) (round : Nat) (l : LocationIndex) (level : Nat) (t : RelTime)
    (p : Progress) : Checked Progress := do
  let start ← p.state.startM round l level
  let bestStart ← p.state.bestStart.timeM l level
  if s.dir.isBetter t start && s.dir.isBetter t bestStart && s.dir.isBetter t p.bestDestination then
    let state ← p.state.setStartM round l level t
    let state ← state.markM l
    return p.mapState fun _ => state
  else return p

end Search

end JourneyPlanner
