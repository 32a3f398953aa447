import JourneyPlanner.Proofs.Network.WalksInOrder

/-!
# Walks on open footpaths

A run can be asked for its walk, for the time that it takes, and for the entry that is taken. The
answers agree, and are about an entry that can be used. Forward, its walk begins as soon as the
entry holds, and not after the next one does.
-/

namespace JourneyPlanner

namespace TimedFootpath

open FootpathWindow (ofRun)

variable {run : List TimedFootpath} {f : TimedFootpath} {t : Int} {c : Choice}
  {dir : Direction} {w : FootpathWindow}

/-- Every entry of a run has its window. -/
lemma mem_ofRun_append (before : List TimedFootpath) (f : TimedFootpath)
    (after : List TimedFootpath) :
    ⟨f, after.head?.map (·.validFrom)⟩ ∈ ofRun (before ++ f :: after) := by
  induction before with
  | nil =>
    cases after with
    | nil => exact List.mem_singleton.2 rfl
    | cons next after => exact List.mem_cons_self
  | cons first before ih =>
    cases before with
    | nil => exact List.mem_cons_of_mem _ ih
    | cons second before => exact List.mem_cons_of_mem _ ih

lemma contains_opens (hrun : IsRun run) (hw : w ∈ ofRun run) : w.Contains w.footpath.opens := by
  obtain ⟨before, after, rfl, hcloses⟩ := exists_append_of_mem_ofRun hw
  intro u hu
  rw [hcloses] at hu
  obtain ⟨next, hnext, rfl⟩ := Option.map_eq_some_iff.1 hu
  have hafter := (List.pairwise_append.1 hrun.in_order).2.1
  exact (List.pairwise_cons.1 hafter).1 next (List.mem_of_mem_head? hnext)

/-- A candidate could be walked before its window is over, by someone who finds it open. -/
lemma IsCandidate.exists_window (h : IsCandidate run t f) :
    ∃ w ∈ ofRun run, w.footpath = f ∧ w.Contains (t + f.length) := by
  rcases h with ⟨before, next, after, rfl, _, hle⟩ | ⟨before, rfl⟩
  · refine ⟨_, mem_ofRun_append before f (next :: after), rfl, fun u hu => ?_⟩
    cases hu
    exact hle
  · exact ⟨_, mem_ofRun_append before f [], rfl, fun u hu => nomatch hu⟩

/-- Forward, one leaves while the window of what is taken is open. When it was open from the
beginning, one arrives before it closes, too. -/
lemma exists_window_of_resolveForward (hrun : IsRun run) (h : resolveForward run t = some c) :
    ∃ w ∈ ofRun run, w.footpath = c.footpath ∧ w.isUsable = true ∧
      t + c.waiting = w.earliestStart t ∧ w.Contains (w.earliestStart t) ∧
        (w.footpath.opens ≤ t → w.Contains (t + (c.footpath.length + c.waiting))) := by
  obtain ⟨hfeasible, hwaiting, hcandidate⟩ := isCandidate_of_resolveForward h
  obtain ⟨w, hw, hfootpath, hcontains⟩ := hcandidate.exists_window
  have hlength := c.footpath.length_nonneg
  have hopens := contains_opens hrun hw
  refine ⟨w, hw, hfootpath, ?_⟩
  unfold FootpathWindow.isUsable FootpathWindow.earliestStart
  rw [hfootpath] at hopens ⊢
  refine ⟨hfeasible, by omega, fun u hu => ?_, fun hheld u hu => ?_⟩
  · have := hopens u hu
    have := hcontains u hu
    omega
  · have := hcontains u hu
    omega

/-- All that is answered about a run at an instant is about one window, and a walk along it. -/
structure Answers (dir : Direction) (run : List TimedFootpath) (t : Instant) (w : FootpathWindow)
    (x : WaitingWalk) : Prop where
  mem : w ∈ ofRun run
  usable : w.isUsable = true
  /-- no minute of the waiting is lost -/
  resolved : resolve dir run t = some ⟨w.footpath, x.waiting.minutes⟩
  walking_eq : x.walking = w.footpath.duration
  total_eq : x.total.minutes = x.walking.minutes + x.waiting.minutes
  total_lt : x.total.minutes < 65535
  walk : walk? dir run t = some x
  duration : duration? dir run t = some x.total
  taken : taken? dir run t = some (x.total, w.footpath)

/-- A choice that is not too long is told in full by its walk. -/
lemma answers_of_resolve {t : Instant} (h : resolve dir run t = some c) (hw : w ∈ ofRun run)
    (hfootpath : w.footpath = c.footpath) (husable : w.isUsable = true) :
    Answers dir run t w c.split := by
  obtain ⟨hminutes, htotal⟩ := minutes_split_of_resolve h
  have hshort := length_add_waiting_lt h
  have hlength : c.footpath.length = c.footpath.duration.minutes := rfl
  have hsame : c.split.total = c.total := by
    apply Duration.ext
    unfold Choice.total
    rw [Duration.minutes_clamp]
    omega
  have hwalk : walk? dir run t = some c.split := by rw [walk?, h, Option.map_some]
  have hwalking : c.split.walking.minutes = c.footpath.duration.minutes := rfl
  refine ⟨hw, husable, ?_, ?_, by omega, by omega, hwalk, ?_, ?_⟩
  · rw [h, hminutes, hfootpath]
  · rw [hfootpath]
    rfl
  · rw [duration?, hwalk, Option.map_some]
  · rw [taken?, h, Option.map_some, hsame, hfootpath]

/-- Nothing is answered about a run at an instant, or every answer is about the same entry, which
can be used. Forward, its walk is left as soon as the entry holds, and not after the next one does;
it ends by then, too, when the entry held from the beginning. -/
theorem answers_or_none (hrun : IsRun run) (dir : Direction) (t : Instant) :
    (walk? dir run t = none ∧ duration? dir run t = none ∧ taken? dir run t = none) ∨
      ∃ w x, Answers dir run t w x ∧ (dir = .forward →
        t.minutes + x.waiting.minutes = w.earliestStart t.minutes ∧
          w.Contains (w.earliestStart t.minutes) ∧
            (w.footpath.opens ≤ t.minutes → w.Contains (t.minutes + x.total.minutes))) := by
  cases h : resolve dir run t with
  | none =>
    left
    unfold duration? walk? taken?
    rw [h]
    exact ⟨rfl, rfl, rfl⟩
  | some c =>
    right
    obtain ⟨hwaiting, htotal⟩ := minutes_split_of_resolve h
    cases dir with
    | forward =>
      obtain ⟨w, hw, hfootpath, husable, hstart, hopen, hends⟩ :=
        exists_window_of_resolveForward hrun (resolve_forward_eq_some_iff.1 h).1
      refine ⟨w, c.split, answers_of_resolve h hw hfootpath husable, fun _ => ?_⟩
      rw [hwaiting, htotal]
      exact ⟨hstart, hopen, hends⟩
    | backward =>
      obtain ⟨w, hw, hfootpath, ⟨husable, _⟩, _⟩ :=
        exists_window_of_resolveBackward (resolve_backward_eq_some_iff.1 h).1
      refine ⟨w, c.split, answers_of_resolve h hw hfootpath husable, ?_⟩
      rintro ⟨⟩

namespace ShortCut

/-- Whoever comes while the short cut is open walks it at once, before it is closed. -/
theorem answers_at_once : ∃ w x, Answers .forward footpaths (.clamp 150) w x ∧
    w.footpath = window.footpath ∧ w.Contains (150 + x.total.minutes) := by
  have hresolve : resolve .forward footpaths (.clamp 150) = some ⟨window.footpath, 0⟩ := by decide
  rcases answers_or_none isRun .forward (.clamp 150) with ⟨hnone, _⟩ | ⟨w, x, hanswers, hforward⟩
  · exact absurd hnone (by decide)
  · have hfootpath := congrArg Choice.footpath
      (Option.some.inj (hanswers.resolved.symm.trans hresolve))
    dsimp only at hfootpath
    refine ⟨w, x, hanswers, hfootpath, (hforward rfl).2.2 ?_⟩
    rw [hfootpath]
    decide

end ShortCut

end TimedFootpath

end JourneyPlanner
