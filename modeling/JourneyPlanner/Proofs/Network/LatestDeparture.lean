import JourneyPlanner.Network.FootpathWindow
import JourneyPlanner.Proofs.Network.WalkingBack

/-!
# The latest departure on timed footpaths

Backward resolution looks at the windows in which a walk could end in time if they never closed, and
takes the one that can be left last. A walk along it is over when the window closes; it may have
begun before the window opened, when the window is shorter than the walk.
-/

namespace JourneyPlanner

namespace FootpathWindow

/-- A walk that begins when the window opens is over by `t`. -/
def InReach (w : FootpathWindow) (t : Int) : Prop :=
  w.isUsable = true ∧ w.footpath.opens + w.footpath.length ≤ t

/-- A walk that begins when the window opens is not over when it closes. -/
def IsTooShort (w : FootpathWindow) : Prop :=
  ∃ u ∈ w.closes, u.minutes < w.footpath.opens + w.footpath.length

end FootpathWindow

namespace TimedFootpath

open FootpathWindow (ofRun)

variable {run : List TimedFootpath} {f next : TimedFootpath} {t : Int}

namespace BackwardScan

/-- What a backward scan knows: a window that can be left last, as late as it can be left. -/
structure Chooses (s : BackwardScan) (run : List TimedFootpath) (t : Int) : Prop where
  of_some : ∀ f, s.best = some f →
    ∃ w ∈ ofRun run, w.footpath = f ∧ w.InReach t ∧ s.departure = w.latestStart t
  latest : ∀ w ∈ ofRun run, w.InReach t → w.latestStart t ≤ s.departure

lemma chooses_start (t : Int) (last : TimedFootpath) : (start t last).Chooses [last] t := by
  unfold start
  split
  · rename_i hopen
    rw [Bool.and_eq_true, decide_eq_true_eq] at hopen
    refine ⟨fun f hf => ⟨⟨last, none⟩, List.mem_singleton.2 rfl, Option.some.inj hf, ?_, rfl⟩, ?_⟩
    · exact ⟨hopen.1, by dsimp only; omega⟩
    · intro w hw _
      rw [List.mem_singleton.1 hw]
      exact Int.le_refl _
  · rename_i hclosed
    refine ⟨fun f hf => (nomatch hf), fun w hw hreach => absurd ?_ hclosed⟩
    rw [List.mem_singleton.1 hw] at hreach
    obtain ⟨husable, hle⟩ := hreach
    rw [Bool.and_eq_true, decide_eq_true_eq]
    exact ⟨husable, by dsimp only at hle; omega⟩

lemma Chooses.step {s : BackwardScan} {rest : List TimedFootpath} (h : s.Chooses (next :: rest) t)
    (f : TimedFootpath) : (s.step t f next).Chooses (f :: next :: rest) t := by
  have hstart : (⟨f, some next.validFrom⟩ : FootpathWindow).latestStart t =
      min next.opens t - f.length := by
    show min t next.opens - f.length = _
    rw [Int.min_comm]
  rcases s.step_cases t f next with ⟨hstep, hlate⟩ | ⟨hfeasible, hle, hlt, hstep⟩ <;> rw [hstep]
  · refine ⟨fun g hg => ?_, fun w hw hreach => ?_⟩
    · obtain ⟨w, hw, hchosen⟩ := h.of_some g hg
      exact ⟨w, List.mem_cons_of_mem _ hw, hchosen⟩
    · rcases List.mem_cons.1 hw with rfl | hw
      · rw [hstart]
        exact hlate hreach.1 hreach.2
      · exact h.latest w hw hreach
  · refine ⟨fun g hg => ?_, fun w hw hreach => ?_⟩
    · exact ⟨_, List.mem_cons_self, Option.some.inj hg, ⟨hfeasible, hle⟩, hstart.symm⟩
    · rcases List.mem_cons.1 hw with rfl | hw
      · exact Int.le_of_eq hstart
      · have := h.latest w hw hreach
        dsimp only
        omega

end BackwardScan

/-- A backward scan takes a window that can be left last among those in reach. -/
theorem chooses_scanBackward {s : BackwardScan} (h : scanBackward t run = some s) :
    s.Chooses run t := by
  induction run using scanBackward.induct generalizing s with
  | case1 => cases h
  | case2 last =>
    rw [scanBackward] at h
    cases h
    exact BackwardScan.chooses_start t last
  | case3 f next rest ih =>
    rw [scanBackward] at h
    obtain ⟨s', hs', rfl⟩ := Option.map_eq_some_iff.1 h
    exact (ih hs').step f

lemma latestStart_le (w : FootpathWindow) (t : Int) : w.latestStart t ≤ t - w.footpath.length := by
  unfold FootpathWindow.latestStart
  split <;> omega

/-- Backward resolution takes a window that can be left last among those in reach, and leaves it as
late as possible. -/
theorem exists_window_of_resolveBackward {c : Choice} (h : resolveBackward run t = some c) :
    ∃ w ∈ ofRun run, w.footpath = c.footpath ∧ w.InReach t ∧ 0 ≤ c.waiting ∧
      t - c.waiting - c.footpath.length = w.latestStart t ∧
        ∀ w' ∈ ofRun run, w'.InReach t → w'.latestStart t ≤ w.latestStart t := by
  unfold resolveBackward at h
  obtain ⟨s, hs, h⟩ := Option.bind_eq_some_iff.1 h
  obtain ⟨f, hf, h⟩ := Option.bind_eq_some_iff.1 h
  cases h
  have hchooses := chooses_scanBackward hs
  obtain ⟨w, hw, rfl, hreach, hdeparture⟩ := hchooses.of_some f hf
  have hle := latestStart_le w t
  refine ⟨w, hw, rfl, hreach, Int.le_max_right _ _, ?_, fun w' hw' hreach' => ?_⟩
  · dsimp only
    omega
  · rw [← hdeparture]
    exact hchooses.latest w' hw' hreach'

/-- A walk that is left as late as possible is over in time and when the window closes. It begins
while the window is open unless the window is too short for it. -/
lemma latestStart_spec {w : FootpathWindow} {finish : Int} (hreach : w.InReach t)
    (hfinish : finish - w.footpath.length = w.latestStart t) :
    finish ≤ t ∧ w.Contains finish ∧
      (¬w.IsTooShort → w.footpath.opens ≤ finish - w.footpath.length) ∧
        (w.IsTooShort → ∃ u ∈ w.closes, finish = u.minutes) := by
  obtain ⟨_, hle⟩ := hreach
  unfold FootpathWindow.latestStart at hfinish
  cases hcloses : w.closes with
  | none =>
    rw [hcloses] at hfinish
    dsimp only at hfinish
    refine ⟨by omega, fun u hu => ?_, fun _ => by omega, fun ⟨u, hu, _⟩ => ?_⟩
    · exact nomatch hcloses.symm.trans hu
    · exact nomatch hcloses.symm.trans hu
  | some v =>
    rw [hcloses] at hfinish
    dsimp only at hfinish
    refine ⟨by omega, fun u hu => ?_, fun hlong => ?_, fun ⟨u, hu, hshort⟩ => ⟨v, rfl, ?_⟩⟩
    · cases hcloses.symm.trans hu
      omega
    · have : ¬v.minutes < w.footpath.opens + w.footpath.length :=
        fun hshort => hlong ⟨v, hcloses, hshort⟩
      omega
    · cases hcloses.symm.trans hu
      omega

/-- The walk along the entry that is taken backward is over by the instant asked for, and when the
next entry holds. It begins when its entry holds, unless the next entry holds too soon for the walk:
then it is over just when that one holds. -/
theorem exists_window_of_resolve {t : Instant} {c : Choice}
    (h : resolve .backward run t = some c) :
    ∃ w ∈ ofRun run, w.footpath = c.footpath ∧
      t.minutes - c.waiting ≤ t.minutes ∧ w.Contains (t.minutes - c.waiting) ∧
        (¬w.IsTooShort → w.footpath.opens ≤ t.minutes - c.waiting - c.footpath.length) ∧
          (w.IsTooShort → ∃ u ∈ w.closes, t.minutes - c.waiting = u.minutes) := by
  obtain ⟨hchoice, _⟩ := resolve_backward_eq_some_iff.1 h
  obtain ⟨w, hw, heq, hreach, _, hstart, _⟩ := exists_window_of_resolveBackward hchoice
  refine ⟨w, hw, heq, ?_⟩
  rw [← heq] at hstart ⊢
  exact latestStart_spec hreach hstart

/-- After the epoch, whoever can leave in some window in reach leaves no earlier than that. -/
lemma exists_resolveBackward_of_inReach {w : FootpathWindow} (hw : w ∈ ofRun run)
    (hreach : w.InReach t) (hpos : 0 < w.latestStart t) :
    ∃ c, resolveBackward run t = some c ∧ 0 ≤ c.waiting ∧
      w.latestStart t ≤ t - (c.footpath.length + c.waiting) := by
  cases run with
  | nil => cases hw
  | cons f rest =>
    obtain ⟨s, hs, hdeparts⟩ := exists_scanBackward t f rest
    have hlatest := (chooses_scanBackward hs).latest w hw hreach
    cases hbest : s.best with
    | none =>
      -- a scan that finds nothing departs at the epoch
      have := hdeparts.of_none hbest
      omega
    | some g =>
      have hends := hdeparts.of_some g hbest
      refine ⟨⟨g, max (t - (s.departure + g.length)) 0⟩, ?_, Int.le_max_right _ _, ?_⟩
      · unfold resolveBackward
        rw [hs, Option.bind_eq_bind, Option.bind_some, hbest]
        rfl
      · dsimp only
        omega

/-- Whoever could leave while the window of some entry is open, and arrive by the instant asked
for before that window closes, is sent off no earlier than that. -/
theorem exists_walk?_latestStart_le {t : Instant} {w : FootpathWindow} (hw : w ∈ ofRun run)
    (husable : w.isUsable = true) (hopen : w.footpath.opens ≤ w.latestStart t.minutes)
    (hpos : 0 < w.latestStart t.minutes) (hshort : t.minutes - w.latestStart t.minutes < 65535) :
    ∃ x, walk? .backward run t = some x ∧
      w.latestStart t.minutes ≤ t.minutes - x.total.minutes := by
  have hlatest := latestStart_le w t.minutes
  have hreach : w.InReach t.minutes := ⟨husable, by omega⟩
  obtain ⟨c, hc, hwaiting, hle⟩ := exists_resolveBackward_of_inReach hw hreach hpos
  obtain ⟨x, hx, htotal⟩ :=
    exists_walk?_of_resolve (resolve_backward_eq_some_iff.2 ⟨hc, by omega⟩) hwaiting
  exact ⟨x, hx, by omega⟩

namespace ShortWindow

/-- A walk of twenty minutes that is open for a quarter of an hour. -/
def second : TimedFootpath := ⟨⟨0⟩, .clamp 585, .clamp 20⟩

/-- Before it, a walk of five minutes. -/
def footpaths : List TimedFootpath :=
  [⟨⟨0⟩, .clamp 540, .clamp 5⟩, second, ⟨⟨0⟩, .clamp 600, .unusable⟩]

/-- Half an hour later, both walks could have been left at the same minute. The walk that is taken
is over just when its window closes. -/
theorem exists_window_second : ∃ w ∈ ofRun footpaths, w.footpath = second ∧
    w.Contains 600 ∧ (w.IsTooShort → ∃ u ∈ w.closes, 600 = u.minutes) := by
  have hchoice : resolve .backward footpaths (.clamp 630) = some ⟨second, 30⟩ := by decide
  obtain ⟨w, hw, heq, _, hcontains, _, hshort⟩ := exists_window_of_resolve hchoice
  exact ⟨w, hw, heq, hcontains, hshort⟩

/-- The walk of five minutes could have been left at that minute, too, and nobody leaves earlier. -/
theorem exists_walk?_after_first : ∃ x, walk? .backward footpaths (.clamp 630) = some x ∧
    580 ≤ 630 - (x.total.minutes : Int) :=
  exists_walk?_latestStart_le (w := ⟨⟨⟨0⟩, .clamp 540, .clamp 5⟩, some (.clamp 585)⟩)
    (by decide) (by decide) (by decide) (by decide) (by decide)

/-- That walk began five minutes before its window opened. -/
theorem begins_before_second : IsRun footpaths ∧
    resolve .backward footpaths (.clamp 630) = some ⟨second, 30⟩ ∧
      630 - 30 - second.length < second.opens :=
  ⟨⟨by decide, by decide⟩, by decide, by decide⟩

end ShortWindow

end TimedFootpath

end JourneyPlanner
