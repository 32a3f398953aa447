import JourneyPlanner.Proofs.Network.EarliestArrival
import JourneyPlanner.Proofs.Network.LatestDeparture
import JourneyPlanner.Proofs.Time.Costs

/-!
# Walks keep the order of travellers

Whoever has to be there earlier does not leave later. Whoever is ready earlier does not arrive later
either, unless the entry that the other one takes is overlooked.
-/

namespace JourneyPlanner

namespace TimedFootpath

variable {run : List TimedFootpath} {f : TimedFootpath} {t t' : Int} {c c' : Choice}

/-- Who is ready earlier can take what can be taken later. -/
lemma IsCandidate.earlier (h : IsCandidate run t' f) (hle : t ≤ t') : IsCandidate run t f := by
  refine h.imp_left fun hcloses => ?_
  obtain ⟨before, next, after, hrun, hfeasible, hcloses⟩ := hcloses
  exact ⟨before, next, after, hrun, hfeasible, by omega⟩

lemma arrival_mono (f : TimedFootpath) (hle : t ≤ t') : f.arrival t ≤ f.arrival t' := by
  unfold arrival
  omega

/-- Whoever is ready earlier arrives no later, unless the entry taken later is overlooked. -/
lemma resolveForward_mono (hrun : IsRun run) (hle : t ≤ t') (h : resolveForward run t = some c)
    (h' : resolveForward run t' = some c') (hseen : ¬Overlooks run t c'.footpath) :
    t + (c.footpath.length + c.waiting) ≤ t' + (c'.footpath.length + c'.waiting) := by
  obtain ⟨hfeasible, hwaiting, hcandidate⟩ := isCandidate_of_resolveForward h'
  obtain ⟨b, hb, harrives⟩ :=
    exists_resolveForward_le hrun hfeasible (hcandidate.earlier hle) hseen
  cases h.symm.trans hb
  have hmono := arrival_mono c'.footpath hle
  have harrival : c'.footpath.arrival t' = max t' c'.footpath.opens + c'.footpath.length := rfl
  omega

lemma latestStart_mono (w : FootpathWindow) (hle : t ≤ t') : w.latestStart t ≤ w.latestStart t' := by
  unfold FootpathWindow.latestStart
  split <;> omega

/-- Whoever has to be there earlier leaves no later. -/
lemma resolveBackward_mono (hle : t ≤ t') (h : resolveBackward run t = some c)
    (h' : resolveBackward run t' = some c') :
    t - (c.footpath.length + c.waiting) ≤ t' - (c'.footpath.length + c'.waiting) := by
  obtain ⟨w, hw, _, ⟨husable, hreach⟩, _, hstart, _⟩ := exists_window_of_resolveBackward h
  obtain ⟨w', _, _, _, _, hstart', hlatest⟩ := exists_window_of_resolveBackward h'
  have hlater := hlatest w hw ⟨husable, by omega⟩
  have hmono := latestStart_mono w hle
  omega

lemma waiting_nonneg {dir : Direction} {t : Instant} (h : resolve dir run t = some c) :
    0 ≤ c.waiting := by
  cases dir with
  | forward =>
    obtain ⟨_, hwaiting, _⟩ := isCandidate_of_resolveForward (resolve_forward_eq_some_iff.1 h).1
    omega
  | backward =>
    obtain ⟨_, _, _, _, hwaiting, _⟩ :=
      exists_window_of_resolveBackward (resolve_backward_eq_some_iff.1 h).1
    exact hwaiting

/-- Neither the waiting nor the whole time of what is resolved is cut short. -/
lemma minutes_split_of_resolve {dir : Direction} {t : Instant} (h : resolve dir run t = some c) :
    (c.split.waiting.minutes : Int) = c.waiting ∧
      (c.split.total.minutes : Int) = c.footpath.length + c.waiting :=
  ⟨Choice.minutes_waiting_split (waiting_nonneg h) (length_add_waiting_lt h),
    Choice.minutes_total_split (waiting_nonneg h) (length_add_waiting_lt h)⟩

/-- A walk takes the walking and the waiting of what is resolved. -/
lemma exists_choice_of_walk? {dir : Direction} {t : Instant} {x : WaitingWalk}
    (h : walk? dir run t = some x) : ∃ c, resolve dir run t = some c ∧
      (x.total.minutes : Int) = c.footpath.length + c.waiting := by
  obtain ⟨c, hc, rfl⟩ := Option.map_eq_some_iff.1 h
  exact ⟨c, hc, (minutes_split_of_resolve hc).2⟩

/-- In both directions, walks that are asked for at two instants begin or end in the order of these
instants; forward, unless the entry that is taken later is overlooked at the earlier instant. -/
theorem total_walk?_mono (hrun : IsRun run) {dir : Direction} {t t' : Instant} (hle : t ≤ t')
    {x x' : WaitingWalk} (h : walk? dir run t = some x) (h' : walk? dir run t' = some x')
    (hseen : dir = .forward → ∀ y ∈ taken? dir run t', ¬Overlooks run t.minutes y.2) :
    t.minutes + dir.sign x.total.minutes ≤ t'.minutes + dir.sign x'.total.minutes := by
  obtain ⟨c, hc, htotal⟩ := exists_choice_of_walk? h
  obtain ⟨c', hc', htotal'⟩ := exists_choice_of_walk? h'
  cases dir with
  | forward =>
    obtain ⟨hchoice, _⟩ := resolve_forward_eq_some_iff.1 hc
    obtain ⟨hchoice', _⟩ := resolve_forward_eq_some_iff.1 hc'
    have hentry : (c'.total, c'.footpath) ∈ taken? .forward run t' := by
      unfold taken?
      rw [hc']
      rfl
    have := resolveForward_mono hrun hle hchoice hchoice' (hseen rfl _ hentry)
    rw [Direction.sign_forward, Direction.sign_forward]
    omega
  | backward =>
    obtain ⟨hchoice, _⟩ := resolve_backward_eq_some_iff.1 hc
    obtain ⟨hchoice', _⟩ := resolve_backward_eq_some_iff.1 hc'
    have := resolveBackward_mono hle hchoice hchoice'
    rw [Direction.sign_backward, Direction.sign_backward]
    omega

namespace ShortCut

/-- One minute on the short cut, after a wait for it. -/
def shortWalk (waiting : Nat) : WaitingWalk := ⟨.clamp 1, .clamp waiting⟩

/-- Two travellers who both wait for the short cut arrive together. -/
theorem total_walk?_together : 61 + ((shortWalk 49).total.minutes : Int) ≤
    105 + ((shortWalk 5).total.minutes : Int) := by
  have hfirst : walk? .forward footpaths (.clamp 61) = some (shortWalk 49) := by decide
  have hsecond : walk? .forward footpaths (.clamp 105) = some (shortWalk 5) := by decide
  have htaken : taken? .forward footpaths (.clamp 105) =
    some (.clamp 6, ⟨⟨0⟩, .clamp 110, .clamp 1⟩) := by decide
  refine total_walk?_mono isRun (by decide) hfirst hsecond fun _ y hy => ?_
  cases htaken.symm.trans hy
  decide

/-- Someone who is ready twenty minutes earlier arrives later. -/
theorem total_walk?_overtaken : IsRun footpaths ∧
    walk? .forward footpaths (.clamp 40) = some slowWalk ∧
      walk? .forward footpaths (.clamp 61) = some (shortWalk 49) ∧
        61 + ((shortWalk 49).total.minutes : Int) < 40 + (slowWalk.total.minutes : Int) :=
  ⟨isRun, by decide, by decide, by decide⟩

end ShortCut

end TimedFootpath

end JourneyPlanner
