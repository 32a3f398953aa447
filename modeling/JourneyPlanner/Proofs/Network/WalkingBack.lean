import JourneyPlanner.Proofs.Network.WellFormed

/-!
# Walking back along timed footpaths

Forward resolution takes an entry that is the last one of its run, or could have been walked
before the next one holds. Whoever asks backward to arrive no earlier than that walk does is sent off
no earlier than the walk was asked for.
-/

namespace JourneyPlanner

namespace TimedFootpath

variable {run : List TimedFootpath} {f next : TimedFootpath} {t t' : Int}

/-- An entry could have been walked before the next one holds by someone who is ready at `t`. -/
def Closes (run : List TimedFootpath) (t : Int) (f : TimedFootpath) : Prop :=
  ∃ before next after, run = before ++ f :: next :: after ∧ f.duration.isFeasible = true ∧
    t + f.length ≤ next.opens

/-- Forward resolution takes an entry that is closed, or the last one of its run. -/
def IsCandidate (run : List TimedFootpath) (t : Int) (f : TimedFootpath) : Prop :=
  Closes run t f ∨ ∃ before, run = before ++ [f]

lemma IsCandidate.mem (h : IsCandidate run t f) : f ∈ run := by
  rcases h with ⟨before, next, after, rfl, _⟩ | ⟨before, rfl⟩
  · exact List.mem_append_right _ List.mem_cons_self
  · exact List.mem_append_right _ (List.mem_singleton.2 rfl)

lemma IsCandidate.map_to (h : IsCandidate run t f) (l : LocationIndex) :
    IsCandidate (run.map (TimedFootpath.to l)) t (f.to l) := by
  rcases h with ⟨before, next, after, rfl, hcloses⟩ | ⟨before, rfl⟩
  · exact Or.inl ⟨before.map _, next.to l, after.map _, by rw [List.map_append]; rfl, hcloses⟩
  · exact Or.inr ⟨before.map _, by rw [List.map_append]; rfl⟩

/-- The best entry of a forward scan is closed, and the open one is the last one read. -/
structure ForwardScan.Tracks (s : ForwardScan) (run : List TimedFootpath) (t : Int) : Prop where
  best_closes : ∀ f, s.best = some f → Closes run t f
  current_last : ∀ f, s.current = some f → ∃ before, run = before ++ [f]

lemma Closes.concat (h : Closes run t f) (last : TimedFootpath) : Closes (run ++ [last]) t f := by
  obtain ⟨before, next, after, rfl, hfeasible, hle⟩ := h
  refine ⟨before, next, after ++ [last], ?_, hfeasible, hle⟩
  rw [List.append_assoc, List.cons_append, List.cons_append]

lemma ForwardScan.Tracks.step {s : ForwardScan} (h : s.Tracks run t) (f : TimedFootpath) :
    (s.step t f).Tracks (run ++ [f]) t := by
  rcases s.step_cases t f with ⟨c, hc, hfeasible, hle, hstep⟩ | ⟨hstep, _⟩ <;> rw [hstep]
  · obtain ⟨before, hbefore⟩ := h.current_last c hc
    refine ⟨fun g hg => ?_, fun g hg => nomatch hg⟩
    rcases mem_of_close hg with hg | rfl
    · exact (h.best_closes g hg).concat f
    · refine ⟨before, f, [], ?_, hfeasible, hle⟩
      rw [hbefore, List.append_assoc]
      rfl
  · exact ⟨fun g hg => (h.best_closes g hg).concat f, fun g hg => ⟨run, by cases hg; rfl⟩⟩

lemma ForwardScan.tracks_foldl (run : List TimedFootpath) (t : Int) :
    (run.foldl (ForwardScan.step t) .start).Tracks run t := by
  induction run using List.reverseRecOn with
  | nil => exact ⟨fun f hf => (nomatch hf), fun f hf => nomatch hf⟩
  | append_singleton run f ih =>
    rw [List.foldl_append]
    exact ih.step f

/-- The best entry at the end of a run is the last one, or is closed. -/
lemma ForwardScan.isCandidate_of_result
    (h : (run.foldl (ForwardScan.step t) .start).result t = some f) : IsCandidate run t f := by
  have htracks := ForwardScan.tracks_foldl run t
  unfold ForwardScan.result at h
  split at h
  · rename_i c hc
    rcases ForwardScan.mem_of_close h with hbest | rfl
    · exact Or.inl (htracks.best_closes f hbest)
    · exact Or.inr (htracks.current_last _ hc)
  · exact Or.inl (htracks.best_closes f h)

/-- The entry taken forward is the last one, or is closed. -/
lemma isCandidate_of_resolveForward {c : Choice} (h : resolveForward run t = some c) :
    c.footpath.duration.isFeasible = true ∧ c.waiting = max t c.footpath.opens - t ∧
      IsCandidate run t c.footpath := by
  unfold resolveForward at h
  obtain ⟨f, hf, rfl⟩ := Option.map_eq_some_iff.1 h
  obtain ⟨hresult, hfeasible⟩ := Option.filter_eq_some_iff.1 hf
  exact ⟨hfeasible, rfl, ForwardScan.isCandidate_of_result hresult⟩

/-- The departure of a backward scan is that of its best entry, or the epoch. -/
structure BackwardScan.Departs (s : BackwardScan) (t : Int) : Prop where
  of_none : s.best = none → s.departure = 0
  of_some : ∀ f, s.best = some f → s.departure + f.length ≤ t

/-- A backward scan leaves at `t` or later, by some entry. -/
def BackwardScan.Leaves (s : BackwardScan) (t : Int) : Prop :=
  t ≤ s.departure ∧ s.best.isSome = true

lemma BackwardScan.Departs.step {s : BackwardScan} (h : s.Departs t) (f next : TimedFootpath) :
    (s.step t f next).Departs t := by
  rcases s.step_cases t f next with ⟨hstep, _⟩ | ⟨_, _, _, hstep⟩ <;> rw [hstep]
  · exact h
  · refine ⟨fun hnone => (nomatch hnone), fun g hg => ?_⟩
    cases hg
    dsimp only
    omega

lemma BackwardScan.Leaves.step {s : BackwardScan} (h : s.Leaves t) (f next : TimedFootpath) :
    (s.step t' f next).Leaves t := by
  rcases s.step_cases t' f next with ⟨hstep, _⟩ | ⟨_, _, hlt, hstep⟩ <;> rw [hstep]
  · exact h
  · exact ⟨Int.le_trans h.1 (Int.le_of_lt hlt), rfl⟩

/-- After the epoch, a scan that leaves late enough leaves by some entry. -/
lemma BackwardScan.Departs.leaves {s : BackwardScan} (h : s.Departs t') (ht : 0 < t)
    (hle : t ≤ s.departure) : s.Leaves t := by
  refine ⟨hle, Option.isSome_iff_ne_none.2 fun hnone => ?_⟩
  have := h.of_none hnone
  omega

/-- An entry that could have been walked before the next one holds leaves late enough, unless a later
one does. -/
lemma BackwardScan.Departs.leaves_step {s : BackwardScan} (h : s.Departs t') (ht : 0 < t)
    (hfeasible : f.duration.isFeasible = true) (hcloses : t + f.length ≤ next.opens)
    (harrives : max t f.opens + f.length ≤ t') : (s.step t' f next).Leaves t := by
  rcases s.step_cases t' f next with ⟨hstep, hlate⟩ | ⟨_, _, _, hstep⟩ <;> rw [hstep]
  · have := hlate hfeasible (by omega)
    exact h.leaves ht (by omega)
  · exact ⟨by dsimp only; omega, rfl⟩

lemma exists_scanBackward (t : Int) (f : TimedFootpath) (rest : List TimedFootpath) :
    ∃ s, scanBackward t (f :: rest) = some s ∧ s.Departs t := by
  induction rest generalizing f with
  | nil =>
    refine ⟨_, rfl, ?_⟩
    unfold BackwardScan.start
    split
    · refine ⟨fun hnone => (nomatch hnone), fun g hg => ?_⟩
      cases hg
      dsimp only
      omega
    · exact ⟨fun _ => rfl, fun g hg => nomatch hg⟩
  | cons next rest ih =>
    obtain ⟨s, hs, hdeparts⟩ := ih next
    refine ⟨s.step t f next, ?_, hdeparts.step f next⟩
    rw [scanBackward, hs, Option.map_some]

/-- What leaves late enough still does after the entries before it are read. -/
lemma leaves_scanBackward_append {rest : List TimedFootpath} (before : List TimedFootpath)
    (h : ∃ s, scanBackward t' (f :: rest) = some s ∧ s.Leaves t) :
    ∃ s, scanBackward t' (before ++ f :: rest) = some s ∧ s.Leaves t := by
  induction before with
  | nil => exact h
  | cons first before ih =>
    obtain ⟨s, hs, hleaves⟩ := ih
    cases before with
    | nil =>
      refine ⟨s.step t' first f, ?_, hleaves.step first f⟩
      show (scanBackward t' (f :: rest)).map _ = _
      rw [List.nil_append] at hs
      rw [hs, Option.map_some]
    | cons second before =>
      refine ⟨s.step t' first second, ?_, hleaves.step first second⟩
      show (scanBackward t' (second :: before ++ f :: rest)).map _ = _
      rw [hs, Option.map_some]

/-- Backward from when an entry taken forward arrives, one leaves no earlier than one was ready. -/
lemma exists_scanBackward_leaves (ht : 0 < t) (hfeasible : f.duration.isFeasible = true)
    (harrives : max t f.opens + f.length ≤ t') (hf : IsCandidate run t f) :
    ∃ s, scanBackward t' run = some s ∧ s.Leaves t := by
  rcases hf with ⟨before, next, after, rfl, _, hcloses⟩ | ⟨before, rfl⟩
  · refine leaves_scanBackward_append before ?_
    obtain ⟨s, hs, hdeparts⟩ := exists_scanBackward t' next after
    refine ⟨s.step t' f next, ?_, hdeparts.leaves_step ht hfeasible hcloses harrives⟩
    rw [scanBackward, hs, Option.map_some]
  · refine leaves_scanBackward_append before ⟨_, rfl, ?_⟩
    have hlast : f.opens ≤ t' - f.length := by omega
    unfold BackwardScan.start
    rw [hfeasible, decide_eq_true hlast, if_pos (by rfl)]
    exact ⟨by dsimp only; omega, rfl⟩

lemma departs_scanBackward {s : BackwardScan} (h : scanBackward t run = some s) : s.Departs t := by
  cases run with
  | nil => cases h
  | cons f rest =>
    obtain ⟨s', hs', hdeparts⟩ := exists_scanBackward t f rest
    rw [Option.some.inj (h.symm.trans hs')]
    exact hdeparts

/-- The minutes of a walk are those of its choice. -/
lemma Choice.minutes_total_split {c : Choice} (hwaiting : 0 ≤ c.waiting)
    (hlong : c.footpath.length + c.waiting < 65535) :
    (c.split.total.minutes : Int) = c.footpath.length + c.waiting := by
  have hlength : c.footpath.length = c.footpath.duration.minutes := rfl
  unfold split WaitingWalk.total
  rw [Duration.minutes_add, Duration.minutes_clamp]
  dsimp only
  omega

lemma Choice.minutes_waiting_split {c : Choice} (hwaiting : 0 ≤ c.waiting)
    (hlong : c.footpath.length + c.waiting < 65535) :
    (c.split.waiting.minutes : Int) = c.waiting := by
  have hlength : c.footpath.length = c.footpath.duration.minutes := rfl
  unfold split
  rw [Duration.minutes_clamp]
  omega

/-- The walk of what is resolved takes its walking and its waiting. -/
lemma exists_walk?_of_resolve {dir : Direction} {t : Instant} {c : Choice}
    (h : resolve dir run t = some c) (hwaiting : 0 ≤ c.waiting) :
    ∃ x, walk? dir run t = some x ∧ (x.total.minutes : Int) = c.footpath.length + c.waiting := by
  refine ⟨c.split, ?_, Choice.minutes_total_split hwaiting (length_add_waiting_lt h)⟩
  rw [walk?, h, Option.map_some]

/-- The same run, seen from its target, lets one leave no earlier than one was ready for it. -/
theorem exists_walk?_backward {t t' : Instant} {w : WaitingWalk} (l : LocationIndex)
    (h : walk? .forward run t = some w) (ht : 0 < t.minutes)
    (hle : t.minutes + w.total.minutes ≤ t'.minutes) (hlong : t'.minutes < t.minutes + 65535) :
    ∃ back, walk? .backward (run.map (TimedFootpath.to l)) t' = some back ∧
      t.minutes + back.total.minutes ≤ t'.minutes := by
  obtain ⟨c, hc, rfl⟩ := Option.map_eq_some_iff.1 h
  obtain ⟨hresolve, hshort⟩ := resolve_forward_eq_some_iff.1 hc
  obtain ⟨hfeasible, hwaiting, hcandidate⟩ := isCandidate_of_resolveForward hresolve
  rw [Choice.minutes_total_split (by omega) hshort] at hle
  have harrives : max t.minutes c.footpath.opens + c.footpath.length ≤ t'.minutes := by omega
  -- the entry taken is there at the other end of the run, too
  obtain ⟨s, hs, hleaves, hsome⟩ := exists_scanBackward_leaves (f := c.footpath.to l) ht hfeasible
    harrives (hcandidate.map_to l)
  obtain ⟨f, hf⟩ := Option.isSome_iff_exists.1 hsome
  have hends := (departs_scanBackward hs).of_some f hf
  have hchoice : resolveBackward (run.map (TimedFootpath.to l)) t'.minutes =
      some ⟨f, t'.minutes - (s.departure + f.length)⟩ := by
    unfold resolveBackward
    rw [hs, Option.bind_eq_bind, Option.bind_some, hf, Option.bind_eq_bind, Option.bind_some,
      Int.max_eq_left (by omega)]
    rfl
  obtain ⟨back, hback, htotal⟩ := exists_walk?_of_resolve
    (resolve_backward_eq_some_iff.2 ⟨hchoice, by dsimp only; omega⟩) (by dsimp only; omega)
  dsimp only at htotal
  exact ⟨back, hback, by omega⟩

end TimedFootpath

end JourneyPlanner
