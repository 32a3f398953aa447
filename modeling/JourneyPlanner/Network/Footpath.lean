import JourneyPlanner.Data.Bisect
import JourneyPlanner.Data.Index
import JourneyPlanner.Time.Direction

/-!
Walks between locations. A timed footpath holds from an instant on, until the next one between the
same two locations holds; one of unusable duration closes the way for that time.

The timed footpaths from one location to another, sorted by the instant from which they hold, are a
run. A run is resolved at an instant: forward, the walk leaves no earlier and should end early;
backward, it ends no later and should leave late.
-/

namespace JourneyPlanner

structure Footpath where
  target : LocationIndex
  duration : Duration
deriving DecidableEq, Repr

structure TimedFootpath where
  target : LocationIndex
  validFrom : Instant
  duration : Duration
deriving DecidableEq, Repr

/-- Time spent walking, and time spent waiting for the walk. -/
structure WaitingWalk where
  walking : Duration
  waiting : Duration
deriving DecidableEq, Repr

def WaitingWalk.total (w : WaitingWalk) : Duration := w.walking.add w.waiting

namespace TimedFootpath

/-- The entry of a run that is taken, and the minutes of waiting before or after it. -/
structure Choice where
  footpath : TimedFootpath
  waiting : Int
deriving DecidableEq, Repr

/-- The minute from which the footpath holds. -/
def opens (f : TimedFootpath) : Int := f.validFrom.minutes

/-- The minutes of walking. -/
def length (f : TimedFootpath) : Int := f.duration.minutes

/-- When one arrives who is ready at `t` and waits for the footpath to hold. -/
def arrival (f : TimedFootpath) (t : Int) : Int := max t f.opens + f.length

/-- Forward resolution: the entry still open, and the one with the earliest arrival so far. -/
structure ForwardScan where
  current : Option TimedFootpath
  best : Option TimedFootpath
deriving DecidableEq, Repr

namespace ForwardScan

def start : ForwardScan := ⟨none, none⟩

/-- An entry is final: it becomes the best one if it arrives strictly earlier. -/
def close (t : Int) (best : Option TimedFootpath) (f : TimedFootpath) : Option TimedFootpath :=
  match best with
  | none => some f
  | some b => if f.arrival t < b.arrival t then some f else some b

/-- The next entry `f` of the run. It replaces the open one, unless that one is usable and would
have been walked before `f` holds: then that one is closed, and none is open. -/
def step (t : Int) (s : ForwardScan) (f : TimedFootpath) : ForwardScan :=
  match s.current with
  | some c =>
    if c.duration.isFeasible && decide (t + c.length ≤ f.opens) then
      ⟨none, close t s.best c⟩
    else { s with current := some f }
  | none => { s with current := some f }

/-- The best entry at the end of the run. -/
def result (t : Int) (s : ForwardScan) : Option TimedFootpath :=
  match s.current with
  | some c => close t s.best c
  | none => s.best

end ForwardScan

/-- The usable entry by which one arrives earliest who leaves at `t` or later. -/
def resolveForward (run : List TimedFootpath) (t : Int) : Option Choice :=
  (((run.foldl (ForwardScan.step t) .start).result t).filter (·.duration.isFeasible)).map
    fun f => ⟨f, max t f.opens - t⟩

/-- Backward resolution: the latest departure so far, and the entry that gives it. -/
structure BackwardScan where
  departure : Int
  best : Option TimedFootpath
deriving DecidableEq, Repr

namespace BackwardScan

/-- The last entry of the run holds for ever. A departure must be later than the epoch, or be that
of the last entry. -/
def start (t : Int) (last : TimedFootpath) : BackwardScan :=
  if last.duration.isFeasible && decide (last.opens ≤ t - last.length) then
    ⟨t - last.length, some last⟩
  else ⟨0, none⟩

/-- The entry `f`, which holds until `next` does. -/
def step (t : Int) (s : BackwardScan) (f next : TimedFootpath) : BackwardScan :=
  if !f.duration.isFeasible then s
  else if t < max f.opens s.departure + f.length then s
  else if !(decide (f.opens < t + 1) && decide (s.departure + 1 < next.opens + 1)) then s
  else
    let departure := min next.opens t - f.length
    if s.departure < departure then ⟨departure, some f⟩ else s

end BackwardScan

/-- Scans a run from its last entry to its first one. -/
def scanBackward (t : Int) : List TimedFootpath → Option BackwardScan
  | [] => none
  | [last] => some (BackwardScan.start t last)
  | f :: next :: rest => (scanBackward t (next :: rest)).map fun s => s.step t f next

/-- The usable entry by which one leaves latest who arrives at `t` or earlier. -/
def resolveBackward (run : List TimedFootpath) (t : Int) : Option Choice := do
  let s ← scanBackward t run
  let f ← s.best
  return ⟨f, max (t - (s.departure + f.length)) 0⟩

/-- The entry taken from a run at an instant, unless walking and waiting are too long together. -/
def resolve (dir : Direction) (run : List TimedFootpath) (t : Instant) : Option Choice :=
  let choice := match dir with
    | .forward => resolveForward run t.minutes
    | .backward => resolveBackward run t.minutes
  choice.filter fun c => decide (c.footpath.length + c.waiting < 65535)

/-- The walking and the waiting of a choice. -/
def Choice.split (c : Choice) : WaitingWalk := ⟨c.footpath.duration, .clamp c.waiting.toNat⟩

/-- The walking and the waiting of a choice, together. -/
def Choice.total (c : Choice) : Duration := .clamp (c.footpath.length + c.waiting).toNat

/-- How a run is walked at an instant. -/
def walk? (dir : Direction) (run : List TimedFootpath) (t : Instant) : Option WaitingWalk :=
  (resolve dir run t).map Choice.split

/-- How long a run takes at an instant, waiting included. -/
def duration? (dir : Direction) (run : List TimedFootpath) (t : Instant) : Option Duration :=
  (walk? dir run t).map WaitingWalk.total

/-- How long a run takes at an instant, and the entry taken. -/
def taken? (dir : Direction) (run : List TimedFootpath) (t : Instant) :
    Option (Duration × TimedFootpath) :=
  (resolve dir run t).map fun c => (c.total, c.footpath)

/-- Where the run that begins at a place with a target ends: at the next footpath with another
target, or at the end of the list. -/
def runEnd (footpaths : List TimedFootpath) (first : Nat) (target : LocationIndex) : Nat :=
  match (footpaths.drop first).findIdx? fun f => f.target != target with
  | some n => first + n
  | none => footpaths.length

theorem lt_runEnd {footpaths : List TimedFootpath} {first : Nat} (h : first < footpaths.length) :
    first < runEnd footpaths first footpaths[first].target := by
  unfold runEnd
  split
  · rename_i n hn
    rw [List.drop_eq_getElem_cons h, List.findIdx?_cons, bne_self_eq_false,
      if_neg (by decide)] at hn
    obtain ⟨m, _, rfl⟩ := Option.map_eq_some_iff.1 hn
    omega
  · exact h

/-- Cuts what begins at a place of a list into runs. -/
def runsFrom (footpaths : List TimedFootpath) (first : Nat) : List (List TimedFootpath) :=
  if h : first < footpaths.length then
    let stop := runEnd footpaths first footpaths[first].target
    have : first < stop := lt_runEnd h
    footpaths.extract first stop :: runsFrom footpaths stop
  else []
termination_by footpaths.length - first

/-- Cuts a list into runs: the longest stretches with one target. -/
def runs (footpaths : List TimedFootpath) : List (List TimedFootpath) := runsFrom footpaths 0

/-- Every target that can be walked to at an instant, for footpaths sorted by target. -/
def walks (dir : Direction) (footpaths : List TimedFootpath) (t : Instant) :
    List (LocationIndex × WaitingWalk) :=
  (runs footpaths).filterMap fun run => do
    let f ← run.head?
    let w ← walk? dir run t
    return (f.target, w)

/-- Every target that can be walked to at an instant, as a footpath whose duration includes the
waiting. -/
def footpathsAt (dir : Direction) (footpaths : List TimedFootpath) (t : Instant) : List Footpath :=
  (walks dir footpaths t).map fun (target, w) => ⟨target, w.total⟩

/-- The run to one target, found by bisection in footpaths sorted by target. -/
def runTo (footpaths : List TimedFootpath) (target : LocationIndex) : List TimedFootpath :=
  let fs := footpaths.toArray
  let targetBefore (p : LocationIndex → Bool) : Nat :=
    partitionPoint fs.size fun i => (fs[i]?.map fun f => p f.target).getD false
  let first := targetBefore fun l => decide (l < target)
  let stop := targetBefore fun l => decide (l ≤ target)
  (fs.extract first stop).toList

end TimedFootpath

end JourneyPlanner
