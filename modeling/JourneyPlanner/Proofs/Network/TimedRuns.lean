import Mathlib.Data.List.SplitBy
import Mathlib.Tactic.Common
import JourneyPlanner.Network.Footpath

/-!
# Runs of timed footpaths

Footpaths sorted by target are cut into runs in two ways: by one pass over the whole
list, and by bisection for one target. Both find the same runs, so both see the same walks.
-/

namespace JourneyPlanner
namespace TimedFootpath

/-- Footpaths in the order of their targets. -/
def SortedByTarget (fs : List TimedFootpath) : Prop :=
  fs.Pairwise fun f g => f.target.val ≤ g.target.val

/-- The entries to one target. -/
def entriesTo (fs : List TimedFootpath) (l : LocationIndex) : List TimedFootpath :=
  fs.filter fun f => f.target == l

def entriesBefore (fs : List TimedFootpath) (l : LocationIndex) : List TimedFootpath :=
  fs.filter fun f => decide (f.target < l)

def entriesAfter (fs : List TimedFootpath) (l : LocationIndex) : List TimedFootpath :=
  fs.filter fun f => decide (l < f.target)

lemma mem_entriesTo {fs : List TimedFootpath} {l : LocationIndex} {f : TimedFootpath} :
    f ∈ entriesTo fs l ↔ f ∈ fs ∧ f.target = l := by
  simp only [entriesTo, List.mem_filter, beq_iff_eq]

lemma target_lt_of_mem {fs : List TimedFootpath} {l : LocationIndex} {f : TimedFootpath}
    (h : f ∈ entriesBefore fs l) : f.target.val < l.val :=
  of_decide_eq_true (List.mem_filter.1 h).2

lemma lt_target_of_mem {fs : List TimedFootpath} {l : LocationIndex} {f : TimedFootpath}
    (h : f ∈ entriesAfter fs l) : l.val < f.target.val :=
  of_decide_eq_true (List.mem_filter.1 h).2

/-- In a sorted list, the targets that pass a test that every lower target passes too come first. -/
lemma eq_filter_append_filter {fs : List TimedFootpath} (hs : SortedByTarget fs)
    {p : LocationIndex → Bool}
    (hp : ∀ l m : LocationIndex, l.val ≤ m.val → p m = true → p l = true) :
    fs = (fs.filter fun f => p f.target) ++ fs.filter fun f => !p f.target := by
  induction fs with
  | nil => rfl
  | cons f rest ih =>
    have hle := (List.pairwise_cons.1 hs).1
    have hrest := ih (List.pairwise_cons.1 hs).2
    by_cases hf : p f.target = true
    · rw [List.filter_cons_of_pos (by exact hf), List.filter_cons_of_neg (by simp [hf]),
        List.cons_append, ← hrest]
    · have hnone : ∀ g ∈ f :: rest, ¬p g.target = true := by
        intro g hg hpg
        rcases List.mem_cons.1 hg with rfl | hg
        · exact hf hpg
        · exact hf (hp _ _ (hle g hg) hpg)
      rw [List.filter_eq_nil_iff.2 hnone, List.nil_append]
      exact (List.filter_eq_self.2 fun g hg => by simpa using hnone g hg).symm

lemma filter_le_eq_append {fs : List TimedFootpath} (hs : SortedByTarget fs) (l : LocationIndex) :
    (fs.filter fun f => decide (f.target ≤ l)) = entriesBefore fs l ++ entriesTo fs l := by
  have hcut := eq_filter_append_filter (hs.sublist List.filter_sublist :
    SortedByTarget (fs.filter fun f => decide (f.target ≤ l))) (p := fun m => decide (m < l))
    fun x y hxy hy => decide_eq_true (Nat.lt_of_le_of_lt hxy (of_decide_eq_true hy))
  rw [List.filter_filter, List.filter_filter] at hcut
  rw [hcut, entriesBefore, entriesTo]
  congr 1
  · apply List.filter_congr
    intro f _
    rw [Bool.eq_iff_iff, Bool.and_eq_true, decide_eq_true_eq, decide_eq_true_eq]
    exact and_iff_left_of_imp fun hlt => Nat.le_of_lt hlt
  · apply List.filter_congr
    intro f _
    rw [Bool.eq_iff_iff, Bool.and_eq_true, Bool.not_eq_true', decide_eq_false_iff_not,
      decide_eq_true_eq, beq_iff_eq]
    refine ⟨fun h => Index.ext (Nat.le_antisymm h.2 (Nat.le_of_not_lt h.1)), fun h => ?_⟩
    rw [h]
    exact ⟨Nat.lt_irrefl _, Nat.le_refl _⟩

/-- A sorted list is cut in three by a target. -/
lemma eq_append_of_sorted {fs : List TimedFootpath} (hs : SortedByTarget fs) (l : LocationIndex) :
    fs = entriesBefore fs l ++ (entriesTo fs l ++ entriesAfter fs l) := by
  have hcut := eq_filter_append_filter hs (p := fun m => decide (m ≤ l))
    fun x y hxy hy => decide_eq_true (Nat.le_trans hxy (of_decide_eq_true hy))
  have hafter : (fs.filter fun f => !decide (f.target ≤ l)) = entriesAfter fs l := by
    apply List.filter_congr
    intro f _
    rw [Bool.eq_iff_iff, Bool.not_eq_true', decide_eq_false_iff_not, decide_eq_true_eq]
    exact Nat.not_le
  rw [hafter, filter_le_eq_append hs, List.append_assoc] at hcut
  exact hcut

/-- Bisection of a sorted list finds how many of its entries pass. -/
lemma partitionPoint_eq_length {fs : List TimedFootpath} (hs : SortedByTarget fs)
    {p : LocationIndex → Bool}
    (hp : ∀ l m : LocationIndex, l.val ≤ m.val → p m = true → p l = true) :
    (partitionPoint fs.toArray.size fun i =>
      (fs.toArray[i]?.map fun f => p f.target).getD false) =
        (fs.filter fun f => p f.target).length := by
  rw [List.size_toArray]
  refine partitionPoint_eq (List.length_filter_le _ _) fun i hi => ?_
  have hcut := congrArg (fun gs : List TimedFootpath => gs[i]?) (eq_filter_append_filter hs hp)
  simp only [List.getElem?_append] at hcut
  rw [List.getElem?_toArray]
  by_cases hlt : i < (fs.filter fun f => p f.target).length
  · rw [if_pos hlt, List.getElem?_eq_getElem hlt] at hcut
    have hpass := (List.mem_filter.1 (List.getElem_mem hlt)).2
    rw [hcut]
    exact iff_of_true hpass hlt
  · rw [if_neg hlt, List.getElem?_eq_getElem hi] at hcut
    have hfail := (List.mem_filter.1 (List.mem_of_getElem? hcut.symm)).2
    rw [List.getElem?_eq_getElem hi]
    refine iff_of_false (fun hpass : p fs[i].target = true => ?_) hlt
    rw [hpass] at hfail
    cases hfail

lemma partitionPoint_lt {fs : List TimedFootpath} (hs : SortedByTarget fs) (l : LocationIndex) :
    (partitionPoint fs.toArray.size fun i =>
      (fs.toArray[i]?.map fun f => decide (f.target < l)).getD false) =
        (entriesBefore fs l).length :=
  partitionPoint_eq_length hs (p := fun m => decide (m < l))
    fun _ _ hxy hy => decide_eq_true (Nat.lt_of_le_of_lt hxy (of_decide_eq_true hy))

lemma partitionPoint_le_target {fs : List TimedFootpath} (hs : SortedByTarget fs)
    (l : LocationIndex) :
    (partitionPoint fs.toArray.size fun i =>
      (fs.toArray[i]?.map fun f => decide (f.target ≤ l)).getD false) =
        (entriesBefore fs l).length + (entriesTo fs l).length := by
  rw [← List.length_append, ← filter_le_eq_append hs]
  exact partitionPoint_eq_length hs (p := fun m => decide (m ≤ l))
    fun _ _ hxy hy => decide_eq_true (Nat.le_trans hxy (of_decide_eq_true hy))

/-- The run found by bisection is all the entries to the target. -/
theorem runTo_eq_entriesTo {fs : List TimedFootpath} (hs : SortedByTarget fs) (l : LocationIndex) :
    runTo fs l = entriesTo fs l := by
  have hdrop : fs.drop (entriesBefore fs l).length = entriesTo fs l ++ entriesAfter fs l := by
    have h := congrArg (List.drop (entriesBefore fs l).length) (eq_append_of_sorted hs l)
    rw [List.drop_left] at h
    exact h
  unfold runTo
  simp only [partitionPoint_lt hs, partitionPoint_le_target hs, Array.toList_extract]
  rw [List.extract_eq_take_drop, hdrop, Nat.add_sub_cancel_left, List.take_left]

/-! ### One pass -/

/-- A run ends at the first entry with another target. -/
lemma runEnd_eq {fs : List TimedFootpath} {first : Nat} (l : LocationIndex)
    (h : first ≤ fs.length) :
    runEnd fs first l = first + (fs.drop first).findIdx fun f => f.target != l := by
  unfold runEnd
  split
  · rename_i n hn
    rw [(List.findIdx?_eq_some_iff_findIdx_eq.1 hn).2]
  · rename_i hnone
    rw [List.findIdx?_eq_none_iff_findIdx_eq.1 hnone, List.length_drop]
    omega

lemma extract_runEnd {fs : List TimedFootpath} {first : Nat} (l : LocationIndex)
    (h : first ≤ fs.length) : fs.extract first (runEnd fs first l) =
      (fs.drop first).takeWhile fun f => f.target == l := by
  rw [List.takeWhile_eq_take_findIdx_not, List.extract_eq_take_drop, runEnd_eq l h,
    Nat.add_sub_cancel_left]
  rfl

lemma drop_runEnd {fs : List TimedFootpath} {first : Nat} (l : LocationIndex)
    (h : first ≤ fs.length) : fs.drop (runEnd fs first l) =
      (fs.drop first).dropWhile fun f => f.target == l := by
  rw [List.dropWhile_eq_drop_findIdx_not, runEnd_eq l h, List.drop_drop]
  rfl

lemma target_of_mem_takeWhile {fs : List TimedFootpath} {l : LocationIndex} {f : TimedFootpath}
    (h : f ∈ fs.takeWhile fun f => f.target == l) : f.target = l :=
  beq_iff_eq.1 (List.all_eq_true.1 List.all_takeWhile f h)

/-- What a pass cuts out are the longest stretches with one target. -/
lemma runsFrom_eq_splitBy (fs : List TimedFootpath) (first : Nat) :
    runsFrom fs first = (fs.drop first).splitBy fun f g => f.target == g.target := by
  fun_induction runsFrom fs first with
  | case1 first h stop _ ih =>
    have hstop : stop = runEnd fs first fs[first].target := rfl
    have hfirst : (fs.drop first).takeWhile (fun f => f.target == fs[first].target) ≠ [] := by
      rw [List.drop_eq_getElem_cons h, List.takeWhile_cons, if_pos (beq_self_eq_true _)]
      exact List.cons_ne_nil _ _
    rw [ih, hstop, extract_runEnd _ (Nat.le_of_lt h), drop_runEnd _ (Nat.le_of_lt h)]
    conv_rhs => rw [← List.takeWhile_append_dropWhile (p := fun f => f.target == fs[first].target)
      (l := fs.drop first)]
    rw [List.splitBy_append, List.splitBy_of_isChain hfirst]
    · rfl
    · apply List.Pairwise.isChain
      apply List.pairwise_of_forall_mem_list
      intro f hf g hg
      exact beq_iff_eq.2 ((target_of_mem_takeWhile hf).trans (target_of_mem_takeWhile hg).symm)
    · intro f hf g hg
      have hother := List.head?_dropWhile_not (fun f => f.target == fs[first].target) (fs.drop first)
      rw [Option.mem_def.1 hg] at hother
      rw [target_of_mem_takeWhile (List.mem_of_mem_getLast? hf), beq_eq_false_iff_ne]
      exact fun heq => absurd (beq_iff_eq.2 heq.symm) (by simpa using hother)
  | case2 first h => rw [List.drop_eq_nil_of_le (Nat.le_of_not_lt h), List.splitBy_nil]

lemma runs_eq_splitBy (fs : List TimedFootpath) :
    runs fs = fs.splitBy fun f g => f.target == g.target := runsFrom_eq_splitBy fs 0

lemma walk?_nil (dir : Direction) (t : Instant) : walk? dir [] t = none := by
  cases dir <;> rfl

lemma walks_nil (dir : Direction) (t : Instant) : walks dir [] t = [] := by
  rw [walks, runs_eq_splitBy, List.splitBy_nil, List.filterMap_nil]

lemma walks_append {fs gs : List TimedFootpath} (dir : Direction) (t : Instant)
    (h : ∀ f ∈ fs, ∀ g ∈ gs, f.target ≠ g.target) :
    walks dir (fs ++ gs) t = walks dir fs t ++ walks dir gs t := by
  have hsplit : runs (fs ++ gs) = runs fs ++ runs gs := by
    rw [runs_eq_splitBy, runs_eq_splitBy, runs_eq_splitBy]
    apply List.splitBy_append
    intro f hf g hg
    exact beq_false_of_ne (h f (List.mem_of_mem_getLast? hf) g (List.mem_of_mem_head? hg))
  rw [walks, hsplit, List.filterMap_append]
  rfl

lemma exists_mem_of_mem_walks {fs : List TimedFootpath} {dir : Direction} {t : Instant}
    {l : LocationIndex} {w : WaitingWalk} (h : (l, w) ∈ walks dir fs t) :
    ∃ f ∈ fs, f.target = l := by
  obtain ⟨run, hrun, hsome⟩ := List.mem_filterMap.1 h
  cases hhead : run.head? with
  | none => simp [hhead] at hsome
  | some f =>
    have hf : f ∈ run := List.mem_of_mem_head? hhead
    have hmem : f ∈ fs := by
      rw [← List.flatten_splitBy (fun f g : TimedFootpath => f.target == g.target) fs,
        ← runs_eq_splitBy]
      exact List.mem_flatten.2 ⟨run, hrun, hf⟩
    simp only [hhead, Option.bind_eq_bind, Option.bind_some, Option.bind_eq_some_iff,
      Option.pure_def, Option.some.injEq, Prod.mk.injEq] at hsome
    obtain ⟨_, _, htarget, _⟩ := hsome
    exact ⟨f, hmem, htarget⟩

/-- Footpaths that all lead to one target are one run. -/
lemma runs_eq_singleton {fs : List TimedFootpath} {l : LocationIndex} (hne : fs ≠ [])
    (h : ∀ f ∈ fs, f.target = l) : runs fs = [fs] := by
  rw [runs_eq_splitBy]
  apply List.splitBy_of_isChain hne
  apply List.Pairwise.isChain
  apply List.pairwise_of_forall_mem_list
  intro f hf g hg
  exact beq_iff_eq.2 ((h f hf).trans (h g hg).symm)

lemma mem_walks_of_target {fs : List TimedFootpath} {dir : Direction} {t : Instant}
    {l : LocationIndex} {w : WaitingWalk} (h : ∀ f ∈ fs, f.target = l) :
    (l, w) ∈ walks dir fs t ↔ walk? dir fs t = some w := by
  cases fs with
  | nil =>
    rw [walk?_nil, walks_nil]
    exact iff_of_false List.not_mem_nil fun h => nomatch h
  | cons f rest =>
    rw [walks, runs_eq_singleton (List.cons_ne_nil f rest) h]
    simp only [List.filterMap_cons, List.filterMap_nil, List.head?_cons, Option.bind_eq_bind,
      Option.bind_some, h f List.mem_cons_self, Option.pure_def]
    cases walk? dir (f :: rest) t with
    | none => simp
    | some w' => simp [eq_comm]

/-- The walks of a sorted list are those to lower targets, to the target and to higher ones. -/
lemma walks_eq_append {fs : List TimedFootpath} (hs : SortedByTarget fs) (dir : Direction)
    (t : Instant) (l : LocationIndex) :
    walks dir fs t = walks dir (entriesBefore fs l) t ++
      (walks dir (entriesTo fs l) t ++ walks dir (entriesAfter fs l) t) := by
  conv => lhs; rw [eq_append_of_sorted hs l]
  rw [walks_append, walks_append]
  · intro f hf g hg heq
    have := lt_target_of_mem hg
    rw [← heq, (mem_entriesTo.1 hf).2] at this
    omega
  · intro f hf g hg heq
    have hfl := target_lt_of_mem hf
    rcases List.mem_append.1 hg with hg | hg
    · rw [heq, (mem_entriesTo.1 hg).2] at hfl
      omega
    · have := lt_target_of_mem hg
      rw [heq] at hfl
      omega

/-- One pass over sorted footpaths finds for a target the walk of its run, and no other. -/
theorem mem_walks_iff {fs : List TimedFootpath} (hs : SortedByTarget fs) {dir : Direction}
    {t : Instant} {l : LocationIndex} {w : WaitingWalk} :
    (l, w) ∈ walks dir fs t ↔ walk? dir (runTo fs l) t = some w := by
  have hbefore : (l, w) ∉ walks dir (entriesBefore fs l) t := by
    intro h
    obtain ⟨f, hf, heq⟩ := exists_mem_of_mem_walks h
    have := target_lt_of_mem hf
    rw [heq] at this
    omega
  have hafter : (l, w) ∉ walks dir (entriesAfter fs l) t := by
    intro h
    obtain ⟨f, hf, heq⟩ := exists_mem_of_mem_walks h
    have := lt_target_of_mem hf
    rw [heq] at this
    omega
  rw [runTo_eq_entriesTo hs, walks_eq_append hs dir t l, List.mem_append, List.mem_append,
    or_iff_right hbefore, or_iff_left hafter]
  exact mem_walks_of_target fun f hf => (mem_entriesTo.1 hf).2

lemma ForwardScan.mem_of_close {t : Int} {best : Option TimedFootpath} {f g : TimedFootpath}
    (h : close t best f = some g) : best = some g ∨ g = f := by
  unfold close at h
  cases best with
  | none => exact Or.inr (Option.some.inj h).symm
  | some b =>
    dsimp only at h
    split at h
    · exact Or.inr (Option.some.inj h).symm
    · exact Or.inl h

/-- The next entry closes the open one, or is open itself. -/
lemma ForwardScan.step_cases (s : ForwardScan) (t : Int) (f : TimedFootpath) :
    (∃ c, s.current = some c ∧ c.duration.isFeasible = true ∧ t + c.length ≤ f.opens ∧
        s.step t f = ⟨none, close t s.best c⟩) ∨
      s.step t f = ⟨some f, s.best⟩ ∧
        ∀ c, s.current = some c → ¬(c.duration.isFeasible = true ∧ t + c.length ≤ f.opens) := by
  unfold ForwardScan.step
  split
  · rename_i c hc
    split
    · rename_i hcloses
      rw [Bool.and_eq_true, decide_eq_true_eq] at hcloses
      exact Or.inl ⟨c, hc, hcloses.1, hcloses.2, rfl⟩
    · rename_i hopen
      rw [Bool.and_eq_true, decide_eq_true_eq] at hopen
      refine Or.inr ⟨rfl, fun c' hc' => ?_⟩
      rw [← Option.some.inj (hc.symm.trans hc')]
      exact hopen
  · rename_i hnone
    exact Or.inr ⟨rfl, fun c hc => nomatch hnone.symm.trans hc⟩

lemma ForwardScan.mem_of_foldl {run : List TimedFootpath} {t : Int} {f : TimedFootpath}
    (h : (run.foldl (ForwardScan.step t) .start).result t = some f) : f ∈ run := by
  have hscan : ∀ g, (run.foldl (ForwardScan.step t) .start).current = some g ∨
      (run.foldl (ForwardScan.step t) .start).best = some g → g ∈ run := by
    refine List.foldlRecOn
      (motive := fun s : ForwardScan => ∀ g, s.current = some g ∨ s.best = some g → g ∈ run)
      run (ForwardScan.step t) ?_ ?_
    · rintro g (hg | hg) <;> cases hg
    · intro s hs f hf g hg
      rcases s.step_cases t f with ⟨c, hc, _, _, hstep⟩ | ⟨hstep, _⟩ <;> rw [hstep] at hg
      · rcases hg with hg | hg
        · cases hg
        · rcases ForwardScan.mem_of_close hg with hbest | rfl
          · exact hs g (Or.inr hbest)
          · exact hs g (Or.inl hc)
      · rcases hg with hg | hg
        · cases hg
          exact hf
        · exact hs g (Or.inr hg)
  unfold ForwardScan.result at h
  split at h
  · rename_i c hc
    rcases ForwardScan.mem_of_close h with hbest | rfl
    · exact hscan f (Or.inr hbest)
    · exact hscan f (Or.inl hc)
  · exact hscan f (Or.inr h)

/-- An earlier entry becomes the best one when it can be left later than what is known. -/
lemma BackwardScan.step_cases (s : BackwardScan) (t : Int) (f next : TimedFootpath) :
    (s.step t f next = s ∧ (f.duration.isFeasible = true → f.opens + f.length ≤ t →
        min next.opens t - f.length ≤ s.departure)) ∨
      (f.duration.isFeasible = true ∧ f.opens + f.length ≤ t ∧
        s.departure < min next.opens t - f.length ∧
          s.step t f next = ⟨min next.opens t - f.length, some f⟩) := by
  have hlength : 0 ≤ f.length := Int.natCast_nonneg _
  unfold BackwardScan.step
  cases hfeasible : f.duration.isFeasible with
  | false =>
    rw [if_pos (by decide)]
    exact Or.inl ⟨rfl, fun h => nomatch h⟩
  | true =>
    rw [if_neg (by decide)]
    split
    · exact Or.inl ⟨rfl, fun _ _ => by omega⟩
    · split
      · rename_i hlate
        rw [Bool.not_eq_true', Bool.and_eq_false_iff, decide_eq_false_iff_not,
          decide_eq_false_iff_not] at hlate
        exact Or.inl ⟨rfl, fun _ _ => by omega⟩
      · dsimp only
        split
        · rename_i hlt
          exact Or.inr ⟨rfl, by omega, hlt, rfl⟩
        · exact Or.inl ⟨rfl, fun _ _ => by omega⟩

lemma mem_of_scanBackward {run : List TimedFootpath} {t : Int} {s : BackwardScan}
    {f : TimedFootpath} (h : scanBackward t run = some s) (hf : s.best = some f) : f ∈ run := by
  induction run using scanBackward.induct generalizing s with
  | case1 => cases h
  | case2 last =>
    rw [scanBackward] at h
    cases h
    unfold BackwardScan.start at hf
    split at hf
    · exact List.mem_singleton.2 (Option.some.inj hf).symm
    · cases hf
  | case3 g next rest ih =>
    rw [scanBackward] at h
    obtain ⟨s', hs', rfl⟩ := Option.map_eq_some_iff.1 h
    rcases s'.step_cases t g next with ⟨hstep, _⟩ | ⟨_, _, _, hstep⟩ <;> rw [hstep] at hf
    · exact List.mem_cons_of_mem _ (ih hs' hf)
    · rw [← Option.some.inj hf]
      exact List.mem_cons_self

lemma resolve_forward_eq_some_iff {run : List TimedFootpath} {t : Instant} {c : Choice} :
    resolve .forward run t = some c ↔
      resolveForward run t.minutes = some c ∧ c.footpath.length + c.waiting < 65535 :=
  Option.filter_eq_some_iff.trans (and_congr_right' decide_eq_true_iff)

lemma resolve_backward_eq_some_iff {run : List TimedFootpath} {t : Instant} {c : Choice} :
    resolve .backward run t = some c ↔
      resolveBackward run t.minutes = some c ∧ c.footpath.length + c.waiting < 65535 :=
  Option.filter_eq_some_iff.trans (and_congr_right' decide_eq_true_iff)

lemma length_add_waiting_lt {dir : Direction} {run : List TimedFootpath} {t : Instant}
    {c : Choice} (h : resolve dir run t = some c) : c.footpath.length + c.waiting < 65535 :=
  of_decide_eq_true (Option.filter_eq_some_iff.1 h).2

lemma mem_of_resolve {dir : Direction} {run : List TimedFootpath} {t : Instant} {c : Choice}
    (h : resolve dir run t = some c) : c.footpath ∈ run := by
  cases dir with
  | forward =>
    obtain ⟨h, _⟩ := resolve_forward_eq_some_iff.1 h
    unfold resolveForward at h
    obtain ⟨f, hf, rfl⟩ := Option.map_eq_some_iff.1 h
    exact ForwardScan.mem_of_foldl (Option.filter_eq_some_iff.1 hf).1
  | backward =>
    obtain ⟨h, _⟩ := resolve_backward_eq_some_iff.1 h
    unfold resolveBackward at h
    obtain ⟨s, hs, h⟩ := Option.bind_eq_some_iff.1 h
    obtain ⟨f, hf, h⟩ := Option.bind_eq_some_iff.1 h
    cases h
    exact mem_of_scanBackward hs hf

lemma exists_entry_of_mem_walks {fs : List TimedFootpath} (hs : SortedByTarget fs)
    {dir : Direction} {t : Instant} {l : LocationIndex} {w : WaitingWalk}
    (h : (l, w) ∈ walks dir fs t) : ∃ f ∈ fs, f.target = l ∧ f.duration = w.walking := by
  rw [mem_walks_iff hs, runTo_eq_entriesTo hs] at h
  obtain ⟨c, hc, rfl⟩ := Option.map_eq_some_iff.1 h
  obtain ⟨hmem, htarget⟩ := mem_entriesTo.1 (mem_of_resolve hc)
  exact ⟨c.footpath, hmem, htarget, rfl⟩

end TimedFootpath

end JourneyPlanner
