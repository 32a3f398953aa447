import JourneyPlanner.Network.FootpathWindow
import JourneyPlanner.Proofs.Network.WalkingBack

/-!
# The earliest arrival on timed footpaths

Forward resolution closes an entry that could be walked before the next one holds, and arrives no
later than any entry that it has closed. Closing an entry leaves out the one after it: that one is
overlooked when it would have arrived earlier. Every other entry that can be walked while its
window is open is matched.
-/

namespace JourneyPlanner

namespace TimedFootpath

variable {run before : List TimedFootpath} {f c : TimedFootpath} {t a : Int}

lemma length_nonneg (f : TimedFootpath) : 0 ≤ f.length := Int.natCast_nonneg _

/-- The entry just before `f` does not hold yet at `t` and arrives later than `f`, but could have been
walked before `f` holds if it held at `t`. -/
def Overlooks (run : List TimedFootpath) (t : Int) (f : TimedFootpath) : Prop :=
  ∃ c ∈ run, [c, f] <:+: run ∧ c.duration.isFeasible = true ∧ t < c.opens ∧
    t + c.length ≤ f.opens ∧ f.arrival t < c.arrival t

instance (run : List TimedFootpath) (t : Int) (f : TimedFootpath) : Decidable (Overlooks run t f) :=
  inferInstanceAs (Decidable (∃ c ∈ run, _))

namespace ForwardScan

/-- The best entry of a forward scan arrives at `a` or earlier. -/
def Reaches (s : ForwardScan) (t a : Int) : Prop := ∃ b, s.best = some b ∧ b.arrival t ≤ a

/-- Closing an entry keeps the earlier of two arrivals. -/
lemma exists_close (t : Int) (best : Option TimedFootpath) (f : TimedFootpath) :
    ∃ b, close t best f = some b ∧ b.arrival t ≤ f.arrival t ∧
      ∀ b', best = some b' → b.arrival t ≤ b'.arrival t := by
  unfold close
  cases best with
  | none => exact ⟨f, rfl, Int.le_refl _, fun _ h => nomatch h⟩
  | some b =>
    dsimp only
    split
    · rename_i hlt
      refine ⟨f, rfl, Int.le_refl _, fun b' h => ?_⟩
      cases h
      exact Int.le_of_lt hlt
    · rename_i hle
      refine ⟨b, rfl, Int.not_lt.1 hle, fun b' h => ?_⟩
      cases h
      exact Int.le_refl _

lemma Reaches.step {s : ForwardScan} (h : s.Reaches t a) (f : TimedFootpath) :
    (s.step t f).Reaches t a := by
  obtain ⟨b, hb, hle⟩ := h
  rcases s.step_cases t f with ⟨c, _, _, _, hstep⟩ | ⟨hstep, _⟩ <;> rw [hstep]
  · obtain ⟨b', hb', _, hbest⟩ := exists_close t s.best c
    exact ⟨b', hb', Int.le_trans (hbest b hb) hle⟩
  · exact ⟨b, hb, hle⟩

lemma Reaches.foldl {s : ForwardScan} (h : s.Reaches t a) (after : List TimedFootpath) :
    (after.foldl (ForwardScan.step t) s).Reaches t a :=
  List.foldlRecOn (motive := fun s : ForwardScan => s.Reaches t a) after _ h
    fun _ hs f _ => hs.step f

lemma Reaches.exists_result {s : ForwardScan} (h : s.Reaches t a) :
    ∃ b, s.result t = some b ∧ b.arrival t ≤ a := by
  obtain ⟨b, hb, hle⟩ := h
  unfold result
  split
  · rename_i c _
    obtain ⟨b', hb', _, hbest⟩ := exists_close t s.best c
    exact ⟨b', hb', Int.le_trans (hbest b hb) hle⟩
  · exact ⟨b, hb, hle⟩

/-- The open entry is closed by the next one when it could have been walked before that one holds. -/
lemma reaches_step {s : ForwardScan} (hc : s.current = some c)
    (hfeasible : c.duration.isFeasible = true) (hle : t + c.length ≤ f.opens) :
    (s.step t f).Reaches t (c.arrival t) := by
  rcases s.step_cases t f with ⟨c', hc', _, _, hstep⟩ | ⟨_, hopen⟩
  · cases hc.symm.trans hc'
    obtain ⟨b, hb, harrives, _⟩ := exists_close t s.best c
    rw [hstep]
    exact ⟨b, hb, harrives⟩
  · exact absurd ⟨hfeasible, hle⟩ (hopen c hc)

/-- After an entry is read it is open, or it has closed the one before it. -/
lemma current_or_reaches (before : List TimedFootpath) (f : TimedFootpath) (t : Int) :
    ((before ++ [f]).foldl (ForwardScan.step t) .start).current = some f ∨
      ∃ first c, before = first ++ [c] ∧ c.duration.isFeasible = true ∧ t + c.length ≤ f.opens ∧
        ((before ++ [f]).foldl (ForwardScan.step t) .start).Reaches t (c.arrival t) := by
  have htracks := tracks_foldl before t
  rw [List.foldl_append, List.foldl_cons, List.foldl_nil]
  rcases step_cases (before.foldl (ForwardScan.step t) .start) t f with
    ⟨c, hc, hfeasible, hle, _⟩ | ⟨hstep, _⟩
  · obtain ⟨first, hfirst⟩ := htracks.current_last c hc
    exact Or.inr ⟨first, c, hfirst, hfeasible, hle, reaches_step hc hfeasible hle⟩
  · rw [hstep]
    exact Or.inl rfl

/-- What follows a candidate in its run begins when the candidate could have been walked. -/
lemma exists_append_of_isCandidate (h : IsCandidate run t f) :
    ∃ before after, run = before ++ f :: after ∧ ∀ next rest, after = next :: rest →
      f.duration.isFeasible = true ∧ t + f.length ≤ next.opens := by
  rcases h with ⟨before, next, after, rfl, hfeasible, hle⟩ | ⟨before, rfl⟩
  · refine ⟨before, next :: after, rfl, fun _ _ h => ?_⟩
    cases h
    exact ⟨hfeasible, hle⟩
  · exact ⟨before, [], rfl, fun _ _ h => nomatch h⟩

/-- A candidate is matched unless it is overlooked. -/
theorem exists_result_le (hf : IsCandidate run t f) (hseen : ¬Overlooks run t f) :
    ∃ b, (run.foldl (ForwardScan.step t) .start).result t = some b ∧ b.arrival t ≤ f.arrival t := by
  obtain ⟨before, after, rfl, hnext⟩ := exists_append_of_isCandidate hf
  have hscan : (before ++ f :: after).foldl (ForwardScan.step t) .start =
      after.foldl (ForwardScan.step t) ((before ++ [f]).foldl (ForwardScan.step t) .start) := by
    rw [← List.foldl_append, List.append_assoc, List.singleton_append]
  rw [hscan]
  rcases current_or_reaches before f t with hcurrent | ⟨first, c, rfl, hfeasible, hle, hreaches⟩
  · cases after with
    | nil =>
      obtain ⟨b, hb, hbest, _⟩ :=
        exists_close t ((before ++ [f]).foldl (ForwardScan.step t) .start).best f
      refine ⟨b, ?_, hbest⟩
      rw [List.foldl_nil, result, hcurrent]
      exact hb
    | cons next rest =>
      obtain ⟨hfeasible, hle⟩ := hnext next rest rfl
      exact ((reaches_step hcurrent hfeasible hle).foldl rest).exists_result
  · obtain ⟨b, hb, hbest⟩ := (hreaches.foldl after).exists_result
    refine ⟨b, hb, Int.le_trans hbest ?_⟩
    by_contra hlate
    have hlength := f.length_nonneg
    have harrival : f.arrival t = max t f.opens + f.length := rfl
    have harrival' : c.arrival t = max t c.opens + c.length := rfl
    have hnext : [c, f] <:+: first ++ [c] ++ f :: after := ⟨first, after, by simp⟩
    exact hseen ⟨c, by simp, hnext, hfeasible, by omega, hle, by omega⟩

end ForwardScan

/-- An entry that cannot be used arrives later than any usable one that holds no later. -/
lemma arrival_lt_of_not_isFeasible (hf : f.duration.isFeasible = true)
    (hc : ¬c.duration.isFeasible = true) (hopens : f.opens ≤ c.opens) :
    f.arrival t < c.arrival t := by
  rw [Duration.isFeasible_iff] at hf hc
  have hlength : f.length = f.duration.minutes := rfl
  have hlength' : c.length = c.duration.minutes := rfl
  unfold arrival
  omega

lemma opens_le_of_concat (hrun : IsRun (before ++ [c])) (hf : f ∈ before ++ [c]) :
    f.opens ≤ c.opens := by
  rcases List.mem_append.1 hf with hf | hf
  · exact (List.pairwise_append.1 hrun.in_order).2.2 f hf c (List.mem_singleton.2 rfl)
  · cases List.mem_singleton.1 hf
    exact Int.le_refl _

/-- Forward resolution takes an entry that arrives no later than any usable candidate that is not
overlooked. -/
theorem exists_resolveForward_le (hrun : IsRun run) (hfeasible : f.duration.isFeasible = true)
    (hf : IsCandidate run t f) (hseen : ¬Overlooks run t f) :
    ∃ c, resolveForward run t = some c ∧
      t + (c.footpath.length + c.waiting) ≤ f.arrival t := by
  obtain ⟨b, hb, hle⟩ := ForwardScan.exists_result_le hf hseen
  have husable : b.duration.isFeasible = true := by
    by_contra hunusable
    rcases ForwardScan.isCandidate_of_result hb with ⟨_, _, _, _, hclosed, _⟩ | ⟨before, rfl⟩
    · exact hunusable hclosed
    · have := arrival_lt_of_not_isFeasible (t := t) hfeasible hunusable
        (opens_le_of_concat hrun hf.mem)
      omega
  refine ⟨⟨b, max t b.opens - t⟩, ?_, ?_⟩
  · unfold resolveForward
    rw [hb, Option.filter_some, if_pos husable, Option.map_some]
  · have harrival : b.arrival t = max t b.opens + b.length := rfl
    dsimp only
    omega

/-- What is taken from a run takes the walking and the waiting of an entry. -/
lemma exists_walk?_of_resolveForward {t : Instant} {c : Choice}
    (h : resolveForward run t.minutes = some c) (hwaiting : 0 ≤ c.waiting)
    (hshort : c.footpath.length + c.waiting < 65535) :
    ∃ x, walk? .forward run t = some x ∧
      (x.total.minutes : Int) = c.footpath.length + c.waiting :=
  exists_walk?_of_resolve (resolve_forward_eq_some_iff.2 ⟨h, hshort⟩) hwaiting

/-- A window is that of an entry, until the entry after it holds. -/
lemma exists_append_of_mem_ofRun {w : FootpathWindow} (h : w ∈ FootpathWindow.ofRun run) :
    ∃ before after, run = before ++ w.footpath :: after ∧
      w.closes = after.head?.map (·.validFrom) := by
  induction run using FootpathWindow.ofRun.induct with
  | case1 => exact absurd h List.not_mem_nil
  | case2 f =>
    rw [List.mem_singleton.1 h]
    exact ⟨[], [], rfl, rfl⟩
  | case3 f next rest ih =>
    rcases List.mem_cons.1 h with rfl | h
    · exact ⟨[], next :: rest, rfl, rfl⟩
    · obtain ⟨before, after, hrun, hcloses⟩ := ih h
      exact ⟨f :: before, after, by rw [hrun, List.cons_append], hcloses⟩

/-- A usable entry that could have been walked before its window is over is a candidate. -/
lemma isCandidate_of_contains {w : FootpathWindow} (h : w ∈ FootpathWindow.ofRun run)
    (husable : w.isUsable = true) (hle : w.Contains (t + w.footpath.length)) :
    IsCandidate run t w.footpath := by
  obtain ⟨before, after, hrun, hcloses⟩ := exists_append_of_mem_ofRun h
  cases after with
  | nil => exact Or.inr ⟨before, hrun⟩
  | cons next after =>
    exact Or.inl ⟨before, next, after, hrun, husable, hle next.validFrom hcloses⟩

/-- Whoever could walk an entry while its window is open arrives no later than that, unless the
entry is overlooked. -/
theorem exists_walk?_le_arrival (hrun : IsRun run) {t : Instant} {w : FootpathWindow}
    (hw : w ∈ FootpathWindow.ofRun run) (husable : w.isUsable = true)
    (hfits : w.Contains (w.footpath.arrival t.minutes))
    (hshort : w.footpath.arrival t.minutes - t.minutes < 65535)
    (hseen : ¬Overlooks run t.minutes w.footpath) :
    ∃ x, walk? .forward run t = some x ∧
      t.minutes + x.total.minutes ≤ w.footpath.arrival t.minutes := by
  have harrival : w.footpath.arrival t.minutes =
    max t.minutes w.footpath.opens + w.footpath.length := rfl
  have hcandidate := isCandidate_of_contains (t := t.minutes) hw husable fun u hu => by
    have := hfits u hu
    omega
  obtain ⟨c, hc, hle⟩ := exists_resolveForward_le hrun husable hcandidate hseen
  have hwaiting := (isCandidate_of_resolveForward hc).2.1
  obtain ⟨x, hx, htotal⟩ := exists_walk?_of_resolveForward hc (by omega) (by omega)
  exact ⟨x, hx, by omega⟩

namespace ShortCut

/-- A slow way holds from the hundredth minute on, a short cut from ten minutes later, and nothing
after the two hundredth minute. -/
def footpaths : List TimedFootpath :=
  [⟨⟨0⟩, .clamp 100, .clamp 50⟩, ⟨⟨0⟩, .clamp 110, .clamp 1⟩, ⟨⟨0⟩, .clamp 200, .unusable⟩]

def window : FootpathWindow := ⟨⟨⟨0⟩, .clamp 110, .clamp 1⟩, some (.clamp 200)⟩

/-- Fifty minutes on the slow way, after an hour of waiting for it. -/
def slowWalk : WaitingWalk := ⟨.clamp 50, .clamp 60⟩

lemma isRun : IsRun footpaths := ⟨by decide, by decide⟩

lemma contains_window : window.Contains 111 := by
  intro t ht
  cases ht
  decide

/-- Someone who could not be over the slow way in time takes the short cut. -/
theorem exists_walk?_late : ¬Overlooks footpaths 61 window.footpath ∧
    ∃ x, walk? .forward footpaths (.clamp 61) = some x ∧ 61 + (x.total.minutes : Int) ≤ 111 := by
  have hseen : ¬Overlooks footpaths 61 window.footpath := by decide
  exact ⟨hseen, exists_walk?_le_arrival isRun (t := .clamp 61) (w := window) (by decide) (by decide)
    contains_window (by decide) hseen⟩

/-- Someone who is ready earlier takes the slow way, and arrives later than by the short cut. -/
theorem walk?_early : IsRun footpaths ∧ window ∈ FootpathWindow.ofRun footpaths ∧
    window.isUsable = true ∧ window.Contains (window.footpath.arrival 40) ∧
      window.footpath.arrival 40 - 40 < 65535 ∧
        walk? .forward footpaths (.clamp 40) = some slowWalk ∧
          window.footpath.arrival 40 < 40 + (slowWalk.total.minutes : Int) :=
  ⟨isRun, by decide, by decide, contains_window, by decide, by decide, by decide⟩

end ShortCut

end TimedFootpath

end JourneyPlanner
