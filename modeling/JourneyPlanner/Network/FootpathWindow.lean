import JourneyPlanner.Network.Footpath

/-!
Windows of timed footpaths. An entry of a run can be walked from the instant from which it holds
until the next entry holds; a walk fits when it begins and ends in that time, both ends included.
-/

namespace JourneyPlanner

/-- An entry of a run, and the instant from which the next one holds, if there is one. -/
structure FootpathWindow where
  footpath : TimedFootpath
  closes : Option Instant
deriving DecidableEq, Repr

namespace FootpathWindow

/-- The windows of the entries of a run, in order. -/
def ofRun : List TimedFootpath → List FootpathWindow
  | [] => []
  | [f] => [⟨f, none⟩]
  | f :: next :: rest => ⟨f, some next.validFrom⟩ :: ofRun (next :: rest)

/-- The window is not closed for its whole length. -/
def isUsable (w : FootpathWindow) : Bool := w.footpath.duration.isFeasible

/-- A minute is not after the window. -/
def Contains (w : FootpathWindow) (finish : Int) : Prop := ∀ t ∈ w.closes, finish ≤ t.minutes

/-- The minute at which one leaves forward who is ready at `t`. -/
def earliestStart (w : FootpathWindow) (t : Int) : Int := max t w.footpath.opens

/-- The last minute at which one can leave backward who arrives at `t` or earlier. -/
def latestStart (w : FootpathWindow) (t : Int) : Int :=
  (match w.closes with
    | some c => min t c.minutes
    | none => t) - w.footpath.length

end FootpathWindow

namespace TimedFootpath

/-- A run: timed footpaths to one target, in the order of the instants from which they hold. -/
structure IsRun (run : List TimedFootpath) : Prop where
  one_target : run.Pairwise fun f g => f.target = g.target
  in_order : run.Pairwise fun f g => f.validFrom ≤ g.validFrom

end TimedFootpath

end JourneyPlanner
