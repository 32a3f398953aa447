import JourneyPlanner.Proofs.Network.TimedRuns

/-!
# Each target once

One pass over sorted footpaths cuts out the run to each target in its turn. Whoever asks for one
target alone finds the same run by bisection, so the same walks are seen both ways.
-/

namespace JourneyPlanner

namespace TimedFootpath

variable {fs run : List TimedFootpath} {f g : TimedFootpath} {first : Nat} {l : LocationIndex}

/-- After the entries to the first target of sorted footpaths come those to later ones. -/
lemma lt_target_of_mem_dropWhile (hs : SortedByTarget fs) (hle : ∀ f ∈ fs, l.val ≤ f.target.val)
    (hg : g ∈ fs.dropWhile fun f => f.target == l) : l < g.target := by
  induction fs with
  | nil => cases hg
  | cons f rest ih =>
    obtain ⟨hfirst, hrest⟩ := List.pairwise_cons.1 hs
    rw [List.dropWhile_cons] at hg
    split at hg
    · exact ih hrest (fun f hf => hle f (List.mem_cons_of_mem _ hf)) hg
    · rename_i hother
      have hne : f.target.val ≠ l.val := fun heq => hother (beq_iff_eq.2 (Index.ext heq))
      have hlt := hle f List.mem_cons_self
      show l.val < g.target.val
      rcases List.mem_cons.1 hg with rfl | hg
      · omega
      · have := hfirst g hg
        omega

lemma lt_target_of_mem_drop_runEnd (hs : SortedByTarget fs) (h : first < fs.length)
    (hg : g ∈ fs.drop (runEnd fs first fs[first].target)) : fs[first].target < g.target := by
  have hsorted : SortedByTarget (fs.drop first) := hs.sublist (List.drop_sublist first fs)
  rw [drop_runEnd _ (Nat.le_of_lt h)] at hg
  refine lt_target_of_mem_dropWhile hsorted (fun f hf => ?_) hg
  rw [SortedByTarget, List.drop_eq_getElem_cons h] at hsorted
  rw [List.drop_eq_getElem_cons h] at hf
  rcases List.mem_cons.1 hf with rfl | hf
  · exact Nat.le_refl _
  · exact (List.pairwise_cons.1 hsorted).1 f hf

lemma target_of_mem_extract_runEnd (h : first < fs.length)
    (hf : f ∈ fs.extract first (runEnd fs first l)) : f.target = l := by
  rw [extract_runEnd _ (Nat.le_of_lt h)] at hf
  exact target_of_mem_takeWhile hf

lemma mem_drop_of_mem_runsFrom (hrun : run ∈ runsFrom fs first) (hf : f ∈ run) :
    f ∈ fs.drop first := by
  rw [runsFrom_eq_splitBy] at hrun
  rw [← List.flatten_splitBy (fun f g : TimedFootpath => f.target == g.target) (fs.drop first)]
  exact List.mem_flatten.2 ⟨run, hrun, hf⟩

/-- The runs of sorted footpaths come in the order of their targets. -/
lemma pairwise_runsFrom (hs : SortedByTarget fs) (first : Nat) :
    (runsFrom fs first).Pairwise fun run later =>
      ∀ f ∈ run, ∀ g ∈ later, f.target < g.target := by
  fun_induction runsFrom fs first with
  | case1 first h stop _ ih =>
    refine List.pairwise_cons.2 ⟨fun later hlater f hf g hg => ?_, ih⟩
    rw [target_of_mem_extract_runEnd h hf]
    exact lt_target_of_mem_drop_runEnd hs h (mem_drop_of_mem_runsFrom hlater hg)
  | case2 => exact List.Pairwise.nil

/-- Each target is called back at most once, in ascending order. -/
lemma pairwise_walks (hs : SortedByTarget fs) (dir : Direction) (t : Instant) :
    ((walks dir fs t).map Prod.fst).Pairwise (· < ·) := by
  rw [List.pairwise_map]
  refine (pairwise_runsFrom hs 0).filterMap _ fun run later hbefore x hx y hy => ?_
  obtain ⟨f, hf, hx⟩ := Option.bind_eq_some_iff.1 hx
  obtain ⟨g, hg, hy⟩ := Option.bind_eq_some_iff.1 hy
  obtain ⟨_, _, hx⟩ := Option.bind_eq_some_iff.1 hx
  obtain ⟨_, _, hy⟩ := Option.bind_eq_some_iff.1 hy
  cases hx
  cases hy
  exact hbefore f (List.mem_of_mem_head? hf) g (List.mem_of_mem_head? hg)

lemma mem_footpathsAt_iff (hs : SortedByTarget fs) {dir : Direction} {t : Instant} {d : Duration} :
    ⟨l, d⟩ ∈ footpathsAt dir fs t ↔ duration? dir (runTo fs l) t = some d := by
  unfold footpathsAt duration?
  rw [List.mem_map, Option.map_eq_some_iff]
  constructor
  · rintro ⟨⟨target, w⟩, hw, heq⟩
    cases heq
    exact ⟨w, (mem_walks_iff hs).1 hw, rfl⟩
  · rintro ⟨w, hw, rfl⟩
    exact ⟨(l, w), (mem_walks_iff hs).2 hw, rfl⟩

/-- One pass over footpaths that are sorted by target calls back the targets in ascending order,
each of them once: those whose run, cut out by bisection, can be walked, with its walk. The
footpaths that it gives are those of the same targets, with the same times. -/
theorem walks_runTo (hs : SortedByTarget fs) (dir : Direction) (t : Instant) :
    ((walks dir fs t).map Prod.fst).Pairwise (· < ·) ∧
      (∀ l w, (l, w) ∈ walks dir fs t ↔ walk? dir (runTo fs l) t = some w) ∧
        (footpathsAt dir fs t).map (·.target) = (walks dir fs t).map Prod.fst ∧
          ∀ l d, ⟨l, d⟩ ∈ footpathsAt dir fs t ↔ duration? dir (runTo fs l) t = some d := by
  refine ⟨pairwise_walks hs dir t, fun _ _ => mem_walks_iff hs, ?_,
    fun _ _ => mem_footpathsAt_iff hs⟩
  unfold footpathsAt
  rw [List.map_map]
  rfl

namespace Fan

/-- A way to the first place that is closed from the sixtieth minute on, a closed way to the second
place, and ways to the third and to the fifth one. -/
def footpaths : List TimedFootpath :=
  [⟨⟨1⟩, .clamp 0, .clamp 5⟩, ⟨⟨1⟩, .clamp 60, .unusable⟩, ⟨⟨2⟩, .clamp 0, .unusable⟩,
    ⟨⟨3⟩, .clamp 50, .clamp 20⟩, ⟨⟨5⟩, .clamp 0, .clamp 7⟩]

/-- Shortly before the first way is closed, three places are called back in ascending order, the
third place after a wait of ten minutes. Nothing is known of the second and of the fourth one. -/
theorem walks_fan : SortedByTarget footpaths ∧
    ((walks .forward footpaths (.clamp 40)).map Prod.fst).Pairwise (· < ·) ∧
      (⟨1⟩, ⟨.clamp 5, .zero⟩) ∈ walks .forward footpaths (.clamp 40) ∧
        (⟨3⟩, ⟨.clamp 20, .clamp 10⟩) ∈ walks .forward footpaths (.clamp 40) ∧
          ⟨⟨3⟩, .clamp 30⟩ ∈ footpathsAt .forward footpaths (.clamp 40) ∧
            walk? .forward (runTo footpaths ⟨2⟩) (.clamp 40) = none ∧
              walk? .forward (runTo footpaths ⟨4⟩) (.clamp 40) = none := by
  have hsorted : SortedByTarget footpaths := by
    unfold SortedByTarget
    decide
  obtain ⟨hascending, hwalks, _, hfootpaths⟩ := walks_runTo hsorted .forward (.clamp 40)
  refine ⟨hsorted, hascending, (hwalks _ _).2 ?_, (hwalks _ _).2 ?_, (hfootpaths _ _).2 ?_, ?_, ?_⟩
  all_goals decide +kernel

end Fan

end TimedFootpath

end JourneyPlanner
