import JourneyPlanner.Search.Checked.Basic
import JourneyPlanner.Search.Transfer

/-!
Leaving a vehicle, or the start, with every look-up checked.
-/

namespace JourneyPlanner

open Checked

namespace Search

def walksM (s : Search) (l : LocationIndex) (t : RelTime) : Checked (List Walk) := do
  let plain ← s.timetable.footpathsM s.dir l
  let timed ← s.timetable.timedFootpathsM s.dir l
  match s.instant? t with
  | none => return plain.map (s.footpathWalk l t)
  | some instant =>
    let open_ ← TimedFootpath.walksM s.dir timed instant
    return plain.map (s.footpathWalk l t) ++ open_.map fun (target, w) => s.timedWalk l t target w

def reachOnFootM (s : Search) (round : Nat) (arrival : Arrival) (walk : Option Walk)
    (l : LocationIndex) (level : Nat) (t : RelTime) (p : Progress) : Checked Progress :=
  (s.reached l level t).foldlM (fun p (level, time) => do
    let p ← s.reachDestinationM round arrival walk l level time p
    s.improveStartM round l level time p) p

def walkOnM (s : Search) (round : Nat) (arrival : Arrival) (level : Nat) (t : RelTime)
    (p : Progress) : Checked Progress := do
  let walks ← s.walksM arrival.location t
  walks.foldlM (fun p w => s.reachOnFootM round arrival (some w) w.target level w.finish p) p

def alightM (s : Search) (round : Nat) (arrival : Arrival) (p : Progress) : Checked Progress := do
  let l := arrival.location
  let transfer ← s.timetable.locations.transferTimeM l
  (s.stays l arrival.level).foldlM (fun p (level, stay) => do
    let time := s.dir.add arrival.time stay
    let ready := s.dir.add arrival.time (stay.longer transfer)
    let p ← s.reachDestinationM round arrival none l level time p
    let p ← s.improveStartM round l level ready p
    s.walkOnM round arrival level time p) p

def alightAtM (s : Search) (round : Nat) (p : Progress) (l : LocationIndex) : Checked Progress :=
  (List.range s.levels).foldlM (fun p level => do
    let time ← p.state.tmp.timeM l level
    if time.isFeasible then s.alightM round ⟨l, level, time⟩ p else return p) p

def transferAllM (s : Search) (round : Nat) (p : Progress) : Checked Progress :=
  p.state.marked.foldlM (s.alightAtM round) (p.mapState (·.rotateMarks))

def seedOffsetM (s : Search) (p : Progress) (o : Offset) : Checked Progress := do
  let time := s.seedTime o
  let arrival : Arrival := ⟨o.location, 0, time⟩
  let p ← s.reachOnFootM 0 arrival none o.location 0 time p
  s.walkOnM 0 arrival 0 time p

def seedM (s : Search) (p : Progress) : Checked Progress := do
  let p ← s.query.start.foldlM s.seedOffsetM p
  let state ← p.state.finishRoundM s.dir 0
  return p.mapState fun _ => state

end Search

end JourneyPlanner
