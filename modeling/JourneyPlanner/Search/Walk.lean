import JourneyPlanner.Search.Basic

/-!
Walks of a search: plain footpaths, and timed footpaths resolved at the instant at which they can
first be left.
-/

namespace JourneyPlanner

/-- A walk, its ends and times in search order. -/
structure Walk where
  source : LocationIndex
  target : LocationIndex
  start : RelTime
  finish : RelTime
deriving DecidableEq, Repr

namespace Search

/-- The walk of a plain footpath. -/
def footpathWalk (s : Search) (l : LocationIndex) (t : RelTime) (f : Footpath) : Walk :=
  ⟨l, f.target, t, s.dir.add t f.duration⟩

/-- The walk of a timed footpath, which begins when the waiting is over. -/
def timedWalk (s : Search) (l : LocationIndex) (t : RelTime) (target : LocationIndex)
    (w : WaitingWalk) : Walk :=
  ⟨l, target, s.dir.add t w.waiting, s.dir.add t w.total⟩

/-- The walks that someone can take who is at a location at a time. -/
def walks (s : Search) (l : LocationIndex) (t : RelTime) : List Walk :=
  (s.timetable.footpaths s.dir l).map (s.footpathWalk l t) ++
    match s.instant? t with
    | none => []
    | some instant =>
      (TimedFootpath.walks s.dir (s.timetable.timedFootpaths s.dir l) instant).map
        fun (target, w) => s.timedWalk l t target w

/-- The walks to one target that someone can take who is at a location at a time. -/
def walksTo (s : Search) (l target : LocationIndex) (t : RelTime) : List Walk :=
  ((s.timetable.footpaths s.dir l).filter (·.target == target)).map (s.footpathWalk l t) ++
    match s.instant? t with
    | none => []
    | some instant =>
      let run := TimedFootpath.runTo (s.timetable.timedFootpaths s.dir l) target
      ((TimedFootpath.walk? s.dir run instant).map (s.timedWalk l t target)).toList

/-- The locations from which there is a footpath to a location, in order. -/
def walkSources (s : Search) (l : LocationIndex) : List LocationIndex :=
  let back := s.dir.opposite
  ((s.timetable.footpaths back l).map (·.target) ++
    (s.timetable.timedFootpaths back l).map (·.target)).mergeSort (fun a b => decide (a ≤ b))
    |>.eraseDups

end Search

end JourneyPlanner
