import JourneyPlanner.Search.Progress

/-!
Leaving a vehicle, or the start: staying at the via stops of a location, walking on, and getting
ready for the next vehicle.
-/

namespace JourneyPlanner

namespace Search

/-- Someone comes to a location on foot, or from the start, at a time: this may be the end of the
journey, and is a start for the next vehicle, here and after each stay at a via stop. -/
def reachOnFoot (s : Search) (round : Nat) (arrival : Arrival) (walk : Option Walk)
    (l : LocationIndex) (level : Nat) (t : RelTime) (p : Progress) : Progress :=
  (s.reached l level t).foldl (fun p (level, time) =>
    s.improveStart round l level time (s.reachDestination round arrival walk l level time p)) p

/-- Someone who is at a location at a time walks to other locations. -/
def walkOn (s : Search) (round : Nat) (arrival : Arrival) (level : Nat) (t : RelTime)
    (p : Progress) : Progress :=
  (s.walks arrival.location t).foldl
    (fun p w => s.reachOnFoot round arrival (some w) w.target level w.finish p) p

/-- Someone leaves a vehicle: this may be the end of the journey, a start for the next vehicle once
the transfer time is over, and the beginning of a walk, here and after each stay at a via stop. -/
def alight (s : Search) (round : Nat) (arrival : Arrival) (p : Progress) : Progress :=
  let l := arrival.location
  let transfer := s.timetable.locations.transferTime l
  (s.stays l arrival.level).foldl (fun p (level, stay) =>
    let time := s.dir.add arrival.time stay
    let ready := s.dir.add arrival.time (stay.longer transfer)
    s.walkOn round arrival level time (s.improveStart round l level ready
      (s.reachDestination round arrival none l level time p))) p

/-- The arrivals by vehicle at a location, level by level, are left. -/
def alightAt (s : Search) (round : Nat) (p : Progress) (l : LocationIndex) : Progress :=
  (List.range s.levels).foldl (fun p level =>
    let time := p.state.tmp.time l level
    if time.isFeasible then s.alight round ⟨l, level, time⟩ p else p) p

/-- All marked arrivals by vehicle are left; the marks then tell where a vehicle can be boarded. -/
def transferAll (s : Search) (round : Nat) (p : Progress) : Progress :=
  p.state.marked.foldl (s.alightAt round) (p.mapState (·.rotateMarks))

/-- An offset of the start is taken. -/
def seedOffset (s : Search) (p : Progress) (o : Offset) : Progress :=
  let time := s.seedTime o
  let arrival : Arrival := ⟨o.location, 0, time⟩
  s.walkOn 0 arrival 0 time (s.reachOnFoot 0 arrival none o.location 0 time p)

/-- Round 0: all offsets of the start are taken. -/
def seed (s : Search) (p : Progress) : Progress :=
  (s.query.start.foldl s.seedOffset p).mapState (·.finishRound s.dir 0)

end Search

end JourneyPlanner
