import JourneyPlanner.Proofs.Search.Completeness
import JourneyPlanner.Proofs.Search.Fronts

/-!
# Round times in step

A search keeps what it finds in several tables at once: the times of each round, the best ones of
all rounds, and the marks of the locations that were improved. After each round they tell the same
story, and a time that a round adds is better than those of all rounds before it.
-/

namespace JourneyPlanner

namespace Direction

variable {dir : Direction} {times : List RelTime} {t : RelTime}

/-- The best of several times, unreachable when there is none. -/
def bestOf (dir : Direction) (times : List RelTime) : RelTime := times.foldl dir.best .infeasible

lemma bestOf_concat (dir : Direction) (times : List RelTime) (t : RelTime) :
    dir.bestOf (times ++ [t]) = dir.best (dir.bestOf times) t :=
  List.foldl_concat _ _ _ _

lemma cost_bestOf_le (h : t ∈ times) : dir.cost (dir.bestOf times) ≤ dir.cost t := by
  induction times using List.reverseRecOn with
  | nil => exact absurd h List.not_mem_nil
  | append_singleton times u ih =>
    rw [bestOf_concat, cost_best]
    rcases List.mem_append.1 h with h | h
    · exact Int.le_trans (Int.min_le_left _ _) (ih h)
    · rw [List.mem_singleton.1 h]
      exact Int.min_le_right _ _

end Direction

namespace Search

variable {s : Search} {p q : Progress} {k n : Nat} {l : LocationIndex} {v : Nat} {t : RelTime}
  {routes : List RouteIndex} {st : SearchState} {locations levels : Nat}

/-- Every working time is better than the best arrival of the rounds before. -/
def BeatsBest (s : Search) (p : Progress) : Prop := ∀ l v,
  (p.state.tmp.time l v).isFeasible = true →
    s.dir.cost (p.state.tmp.time l v) < s.dir.cost (p.state.best.time l v)

lemma BeatsBest.improveArrival (h : s.BeatsBest p) (l : LocationIndex) (v : Nat) (t : RelTime) :
    s.BeatsBest (s.improveArrival l v t p) := by
  intro l' v' hf
  rcases improveArrival_cases s l v t p with ⟨heq, _⟩ | ⟨heq, hnew⟩
  · rw [heq] at hf ⊢
    exact h l' v' hf
  · have hlt : s.dir.cost t < s.dir.cost (p.state.best.time l v) := by
      unfold Progress.KnowsArrival at hnew
      omega
    rw [heq] at hf ⊢
    rcases p.state.tmp.time_setTime_cases l v t l' v' with hold | ⟨rfl, rfl, hset⟩
    · have hbefore : (p.state.tmp.time l' v').isFeasible = true := by
        rw [← hold]
        exact hf
      exact Int.lt_of_le_of_lt (Int.le_of_eq (congrArg s.dir.cost hold)) (h l' v' hbefore)
    · exact Int.lt_of_le_of_lt (Int.le_of_eq (congrArg s.dir.cost hset)) hlt

/-- Every start of a round is better than the best one of the rounds before. -/
def BeatsBestStart (s : Search) (k : Nat) (p : Progress) : Prop := ∀ l v,
  (p.state.start k l v).isFeasible = true →
    s.dir.cost (p.state.start k l v) < s.dir.cost (p.state.bestStart.time l v)

lemma BeatsBestStart.improveStart (h : s.BeatsBestStart k p) (l : LocationIndex) (v : Nat)
    (t : RelTime) : s.BeatsBestStart k (s.improveStart k l v t p) := by
  intro l' v' hf
  rcases improveStart_cases s k l v t p with ⟨heq, _⟩ | ⟨heq, hnew⟩
  · rw [heq] at hf ⊢
    exact h l' v' hf
  · have hlt : s.dir.cost t < s.dir.cost (p.state.bestStart.time l v) := by
      unfold Progress.KnowsStart at hnew
      omega
    rw [heq] at hf ⊢
    rcases p.state.start_setStart_cases k l v t k l' v' with hold | ⟨_, rfl, rfl, hset⟩
    · have hbefore : (p.state.start k l' v').isFeasible = true := by
        rw [← hold]
        exact hf
      exact Int.lt_of_le_of_lt (Int.le_of_eq (congrArg s.dir.cost hold)) (h l' v' hbefore)
    · exact Int.lt_of_le_of_lt (Int.le_of_eq (congrArg s.dir.cost hset)) hlt

/-- A marked location can be left in a round, with some via level. -/
def MarksOnlyStarts (k : Nat) (p : Progress) : Prop := ∀ l : LocationIndex,
  p.state.marks.contains l.val = true → ∃ v, (p.state.start k l v).isFeasible = true

lemma MarksOnlyStarts.improveStart (hp : p.Fits locations levels) (hk : k < maxRounds)
    (hl : l.val < locations) (hv : v < levels) (h : MarksOnlyStarts k p) :
    MarksOnlyStarts k (s.improveStart k l v t p) := by
  intro l' hmark
  have hle := (leaves_improveStart s k l v t p).start_le
  rcases improveStart_cases s k l v t p with ⟨heq, _⟩ | ⟨heq, hnew⟩
  · rw [heq] at hmark ⊢
    exact h l' hmark
  · by_cases hsame : l' = l
    · -- the time that was written is there to be read, since it has a place in the tables
      subst hsame
      have hset : (s.improveStart k l' v t p).state.start k l' v = t := by
        rw [heq]
        exact hp.state.start_setStart_self hk hl hv
      refine ⟨v, (Direction.isFeasible_iff s.dir).2 ?_⟩
      have hbound := Direction.cost_le s.dir (p.state.start k l' v)
      unfold Progress.KnowsStart at hnew
      rw [hset]
      omega
    · have hbefore : p.state.marks.contains l'.val = true := by
        have hcontains : (p.state.marks.insert l.val).contains l'.val = true := by
          rw [heq] at hmark
          exact hmark
        rw [BitSet.contains_insert, decide_eq_false fun h => hsame (Index.ext h)] at hcontains
        simpa using hcontains
      obtain ⟨v', hf⟩ := h l' hbefore
      exact ⟨v', Direction.isFeasible_of_le (hle l' v') hf⟩

lemma beatsBest_afterScans (hunreached : ∀ l v, p.state.tmp.time l v = .infeasible)
    (routes : List RouteIndex) (k : Nat) : s.BeatsBest (s.afterScans routes k p) := by
  refine scanRoutes_keeps (M := s.BeatsBest) (fun q l v t h => h.improveArrival l v t) k routes ?_
  intro l v hf
  have hf' : (p.state.tmp.time l v).isFeasible = true := hf
  rw [hunreached] at hf'
  cases hf'

lemma beatsBestStart_transferAll (hq : q.Fits locations levels)
    (hunreached : ∀ l v, q.state.start k l v = .infeasible) :
    s.BeatsBestStart k (s.transferAll k q) := by
  refine transferAll_keeps hq ?_ ?_ ?_
  · intro q a w l v t _ _ _ _ h
    unfold BeatsBestStart
    rw [state_reachDestination]
    exact h
  · intro q a w l v t _ _ _ _ h
    exact h.improveStart l v t
  · intro l v hf
    have hf' : (q.state.start k l v).isFeasible = true := hf
    rw [hunreached] at hf'
    cases hf'

lemma marksOnlyStarts_transferAll (hw : s.timetable.WellFormed)
    (hq : q.Fits s.timetable.nbOfLocations s.levels) (hk : k < maxRounds) :
    MarksOnlyStarts k (s.transferAll k q) := by
  refine transferAll_keeps hq ?_ ?_ ?_
  · intro q a w l v t _ _ _ _ h
    unfold MarksOnlyStarts
    rw [state_reachDestination]
    exact h
  · intro q' a w l v t hq' ha hf hready h
    rw [ha] at hf
    obtain ⟨hlocation, hlevel⟩ := hq.state.tmp.lt_of_isFeasible hf
    obtain ⟨hl, hv⟩ := hready.known hw hlocation hlevel
    exact h.improveStart hq' hk hl hv
  · intro l hmark
    have hcleared : q.state.marks.clear.contains l.val = true := hmark
    unfold BitSet.clear at hcleared
    rw [BitSet.contains_empty] at hcleared
    cases hcleared

/-- After round `k`, the best times are the best of the round times, each round has improved on
those before it, and the marks tell which locations can be left. -/
structure Tallied (s : Search) (k : Nat) (p : Progress) : Prop where
  tmp_unreached : ∀ l v, p.state.tmp.time l v = .infeasible
  best_eq : ∀ l v, p.state.best.time l v =
    s.dir.bestOf ((List.range' 1 k).map fun j => p.state.finish j l v)
  bestStart_eq : ∀ l v, p.state.bestStart.time l v =
    s.dir.bestOf ((List.range (k + 1)).map fun j => p.state.start j l v)
  finish_better : ∀ i j l v, i < j → (p.state.finish j l v).isFeasible = true →
    s.dir.isBetter (p.state.finish j l v) (p.state.finish i l v) = true
  start_better : ∀ i j l v, i < j → (p.state.start j l v).isFeasible = true →
    s.dir.isBetter (p.state.start j l v) (p.state.start i l v) = true
  finish_unreached : ∀ j l v, j = 0 ∨ k < j → p.state.finish j l v = .infeasible
  start_unreached : ∀ j l v, k < j → p.state.start j l v = .infeasible
  marks_iff : ∀ l : LocationIndex, p.state.marks.contains l.val = true ↔
    ∃ v, (p.state.start k l v).isFeasible = true

lemma Tallied.best_le (h : s.Tallied k p) {j : Nat} (hj : j ≤ k) (l : LocationIndex) (v : Nat) :
    s.dir.cost (p.state.best.time l v) ≤ s.dir.cost (p.state.finish j l v) := by
  by_cases hzero : j = 0
  · rw [h.finish_unreached j l v (Or.inl hzero), Direction.cost_infeasible]
    exact Direction.cost_le _ _
  · rw [h.best_eq]
    exact Direction.cost_bestOf_le
      (List.mem_map.2 ⟨j, List.mem_range'_1.2 ⟨by omega, by omega⟩, rfl⟩)

lemma Tallied.bestStart_le (h : s.Tallied k p) {j : Nat} (hj : j ≤ k) (l : LocationIndex)
    (v : Nat) : s.dir.cost (p.state.bestStart.time l v) ≤ s.dir.cost (p.state.start j l v) := by
  rw [h.bestStart_eq]
  exact Direction.cost_bestOf_le (List.mem_map.2 ⟨j, List.mem_range.2 (by omega), rfl⟩)

lemma Tallied.finish_better_roundOver (h : s.Tallied k p) (hp : p.Fits locations levels)
    (hk : k + 1 < maxRounds) (routes : List RouteIndex) {i j : Nat} (hij : i < j)
    (hf : ((s.roundOver routes (k + 1) p).state.finish j l v).isFeasible = true) :
    s.dir.isBetter ((s.roundOver routes (k + 1) p).state.finish j l v)
      ((s.roundOver routes (k + 1) p).state.finish i l v) = true := by
  have hfinish := finish_roundOver hp hk s routes
  have hscans := scans_scanRoutes s (k + 1) routes (p.mapState (·.rotateMarks))
  rw [hfinish] at hf
  rw [hfinish, hfinish]
  by_cases hj : j = k + 1
  · rw [if_pos hj] at hf ⊢
    rw [if_neg (by omega)]
    have hbest : (s.afterScans routes (k + 1) p).state.best = p.state.best := hscans.best_eq
    have hlt := beatsBest_afterScans (s := s) h.tmp_unreached routes (k + 1) l v hf
    rw [hbest] at hlt
    exact Direction.isBetter_iff.2 (Int.lt_of_lt_of_le hlt (h.best_le (by omega) l v))
  · rw [if_neg hj] at hf ⊢
    have hle : j ≤ k := by
      by_contra hlt
      rw [h.finish_unreached j l v (Or.inr (by omega))] at hf
      cases hf
    rw [if_neg (by omega)]
    exact h.finish_better i j l v hij hf

lemma Tallied.start_better_roundOver (h : s.Tallied k p) (hp : p.Fits locations levels)
    (routes : List RouteIndex) {i j : Nat} (hij : i < j)
    (hf : ((s.roundOver routes (k + 1) p).state.start j l v).isFeasible = true) :
    s.dir.isBetter ((s.roundOver routes (k + 1) p).state.start j l v)
      ((s.roundOver routes (k + 1) p).state.start i l v) = true := by
  have hold : ∀ {i}, i ≠ k + 1 →
      (s.roundOver routes (k + 1) p).state.start i l v = p.state.start i l v :=
    fun hi => start_roundOver hi s routes p l v
  by_cases hj : j = k + 1
  · subst hj
    have hbest : (s.transferAll (k + 1) (s.afterScans routes (k + 1) p)).state.bestStart =
        p.state.bestStart :=
      (leaves_transferAll s (k + 1) (s.afterScans routes (k + 1) p)).bestStart_eq.trans
        (scans_scanRoutes s (k + 1) routes (p.mapState (·.rotateMarks))).bestStart_eq
    have hlt := beatsBestStart_transferAll (s := s) (fits_afterScans hp s routes (k + 1))
      (fun l v => (start_afterScans s routes (k + 1) p (k + 1) l v).trans
        (h.start_unreached _ l v (Nat.lt_succ_self k))) l v hf
    rw [hbest] at hlt
    rw [hold (i := i) (by omega)]
    exact Direction.isBetter_iff.2 (Int.lt_of_lt_of_le hlt (h.bestStart_le (by omega) l v))
  · rw [hold hj] at hf ⊢
    have hle : j ≤ k := by
      by_contra hlt
      rw [h.start_unreached j l v (by omega)] at hf
      cases hf
    rw [hold (i := i) (by omega)]
    exact h.start_better i j l v hij hf

lemma Tallied.roundOver (hw : s.timetable.WellFormed)
    (hp : p.Fits s.timetable.nbOfLocations s.levels) (h : s.Tallied k p) (hk : k + 1 < maxRounds)
    (routes : List RouteIndex) : s.Tallied (k + 1) (s.roundOver routes (k + 1) p) := by
  have hfits := fits_afterScans hp s routes (k + 1)
  have hfinish := finish_roundOver hp hk s routes
  have hstart : ∀ j l v, j ≠ k + 1 →
      (s.roundOver routes (k + 1) p).state.start j l v = p.state.start j l v :=
    fun j l v hj => start_roundOver hj s routes p l v
  refine ⟨fun _ _ => SearchState.tmp_finishRound _, ?_, ?_,
    fun _ _ _ _ => h.finish_better_roundOver hp hk routes,
    fun _ _ _ _ => h.start_better_roundOver hp routes, ?_, ?_, ?_⟩
  -- each list of times grows by the one of this round, and the others are as before
  · intro l v
    rw [best_roundOver hp, List.range'_1_concat, List.map_append, List.map_singleton,
      Direction.bestOf_concat, Nat.add_comm 1 k, hfinish, if_pos rfl, h.best_eq]
    refine congrArg (s.dir.best · _) (congrArg s.dir.bestOf (List.map_congr_left fun j hj => ?_))
    rw [hfinish, if_neg (by have := List.mem_range'_1.1 hj; omega)]
  · intro l v
    rw [bestStart_roundOver hp hk, List.range_succ, List.map_append, List.map_singleton,
      Direction.bestOf_concat, h.bestStart_eq]
    refine congrArg (s.dir.best · _) (congrArg s.dir.bestOf (List.map_congr_left fun j hj => ?_))
    rw [hstart j l v (by have := List.mem_range.1 hj; omega)]
  · intro j l v hj
    rw [hfinish, if_neg (by omega)]
    exact h.finish_unreached j l v (by omega)
  · intro j l v hj
    rw [hstart j l v (by omega)]
    exact h.start_unreached j l v (by omega)
  · intro l
    constructor
    · exact marksOnlyStarts_transferAll hw hfits hk l
    · rintro ⟨v, hf⟩
      exact marksStarts_roundOver hp (fun l v => h.start_unreached _ l v (Nat.lt_succ_self k)) routes
        l v hf

lemma marksOnlyStarts_seed (hw : s.timetable.WellFormed) (h : s.Suits st) :
    MarksOnlyStarts 0 (s.seed (s.prepare st)) := by
  have hfits := fits_prepare s st
  rw [h.locations_eq, h.levels_eq] at hfits
  have hboth := seeds_keeps (s := s) (M := fun q =>
    q.Fits s.timetable.nbOfLocations s.levels ∧ MarksOnlyStarts 0 q) ?_ ⟨hfits, ?_⟩
  · exact hboth.2
  · rintro q o w l v t hready ⟨hq, hmarks⟩
    obtain ⟨hl, hv⟩ := h.known_start hw hready
    exact ⟨(leaves_improveStart _ _ _ _ _ _).fits_of hq, hmarks.improveStart hq (by decide) hl hv⟩
  · intro l hmark
    rw [prepare_eq] at hmark
    have hempty : (BitSet.empty st.nbOfLocations).contains l.val = true := hmark
    rw [BitSet.contains_empty] at hempty
    cases hempty

lemma tallied_seed (hw : s.timetable.WellFormed) (h : s.Suits st) :
    s.Tallied 0 (s.seed (s.prepare st)) := by
  have htraced := traced_seed s st
  refine ⟨htraced.tmp_unreached, best_seed s st, bestStart_seed s st, ?_, ?_,
    fun j l v _ => finish_seed s st j l v, htraced.start_unreached, fun l => ?_⟩
  · intro i j l v _ hf
    rw [finish_seed] at hf
    cases hf
  · intro i j l v hij hf
    rw [htraced.start_unreached j l v (by omega)] at hf
    cases hf
  · exact ⟨marksOnlyStarts_seed hw h l, fun ⟨v, hf⟩ => marksStarts_seed s st l v hf⟩

/-- A search after a number of rounds. -/
def afterRounds (s : Search) (st : SearchState) : Nat → Progress
  | 0 => s.seed (s.prepare st)
  | k + 1 => s.round (k + 1) (s.afterRounds st k)

lemma exists_rounds_eq (s : Search) (st : SearchState) (remaining k : Nat) :
    ∃ n, k + min 1 remaining ≤ n ∧ n ≤ k + remaining ∧
      s.rounds remaining (k + 1) (s.afterRounds st k) = (s.afterRounds st n, n) := by
  induction remaining generalizing k with
  | zero => exact ⟨k, Nat.le_refl k, Nat.le_refl k, rfl⟩
  | succ remaining ih =>
    unfold rounds
    dsimp only
    split
    · obtain ⟨n, hn, hle, heq⟩ := ih (k + 1)
      exact ⟨n, by omega, by omega, heq⟩
    · exact ⟨k + 1, by omega, by omega, rfl⟩

/-- A search ends after some round, and makes at least one and at most as many as it may. -/
lemma exists_explore_eq (s : Search) (st : SearchState) :
    ∃ n, 1 ≤ n ∧ n ≤ s.query.maxTransfers + 1 ∧ s.explore st = (s.afterRounds st n, n) := by
  obtain ⟨n, hn, hle, heq⟩ := exists_rounds_eq s st (s.query.maxTransfers + 1) 0
  exact ⟨n, by omega, by omega, heq⟩

lemma tallied_afterRounds (hw : s.timetable.WellFormed) (hsuits : s.Suits st)
    (hk : k < maxRounds) : (s.afterRounds st k).Fits s.timetable.nbOfLocations s.levels ∧
      s.Tallied k (s.afterRounds st k) := by
  induction k with
  | zero =>
    have hfits := fits_seed s st
    rw [hsuits.locations_eq, hsuits.levels_eq] at hfits
    exact ⟨hfits, tallied_seed hw hsuits⟩
  | succ k ih =>
    obtain ⟨hfits, htallied⟩ := ih (by omega)
    exact ⟨fits_roundOver hfits s _ _, htallied.roundOver hw hfits hk _⟩

/-- A state accepted for a query suits every search of it, also after other searches. -/
lemma suits_after {tt : Timetable} {accepting : SearchState} (hlevels : 0 < accepting.levels)
    {q : Query} {planner : Planner} (haccept : Planner.accept tt accepting q = .ok planner)
    (before : List Instant) {t : Instant} (hsearch : Search.at? tt q t = some s) :
    s.Suits (planner.after before).state := by
  obtain ⟨rfl, rfl, _⟩ := at?_sound hsearch
  obtain ⟨rfl, hfits, hsized⟩ := Planner.accept_eq_ok_iff.1 haccept
  -- the levels are counted by the vias of the query and by those of the state
  have hcount := hfits.vias_eq
  have hlevel : accepting.levels = s.levels := by
    unfold SearchState.nbOfVias at hcount
    unfold Search.levels Query.levels
    omega
  have hsuits := suits_of_fits hfits (Planner.nbOfLocations_eq_of_isSizedFor hsized) hlevel
  obtain ⟨_, _, hsizes⟩ := Planner.after_retains (M := fun st => st.sizes = accepting.sizes)
    (p := ⟨s.timetable, s.query, accepting, 0⟩)
    (fun s st hst => (sizes_explore s st).trans hst) rfl before
  simp only [SearchState.sizes, Prod.mk.injEq] at hsizes
  exact ⟨hsizes.2.1.trans hsuits.locations_eq, hsizes.1.trans hsuits.levels_eq, hsuits.known⟩

end Search

/-- The tables of a search tell the same story after each of its rounds, whatever was searched
before in the same state. -/
theorem tallied_searchFrom {tt : Timetable} (hbuilt : tt.IsBuilt) {accepting : SearchState}
    (hlevels : 0 < accepting.levels) {q : Query} {planner : Planner}
    (haccept : Planner.accept tt accepting q = .ok planner) (before : List Instant) {t : Instant}
    {s : Search} (hsearch : Search.at? tt q t = some s) :
    ∃ n, 1 ≤ n ∧ n ≤ q.maxTransfers + 1 ∧ ((planner.after before).searchFrom t).2.roundsRun = n ∧
      ((planner.after before).searchFrom t).2.state =
        (s.afterRounds (planner.after before).state n).state ∧
      ∀ k ≤ n, s.Tallied k (s.afterRounds (planner.after before).state k) := by
  have hsuits := Search.suits_after hlevels haccept before hsearch
  obtain ⟨rfl, rfl, _⟩ := Search.at?_sound hsearch
  obtain ⟨rfl, hfits, _⟩ := Planner.accept_eq_ok_iff.1 haccept
  generalize hplanner : Planner.after ⟨s.timetable, s.query, accepting, 0⟩ before = planner
    at hsuits ⊢
  obtain ⟨htimetable, hquery, _⟩ := Planner.after_retains (M := fun _ => True)
    (p := ⟨s.timetable, s.query, accepting, 0⟩) (fun _ _ _ => trivial) trivial before
  rw [hplanner] at htimetable hquery
  obtain ⟨n, hpositive, hle, hexplore⟩ := s.exists_explore_eq planner.state
  have hfrom : Search.at? planner.timetable planner.query t = some s := by
    rw [htimetable, hquery]
    exact hsearch
  have hmost := hfits.maxTransfers_le
  refine ⟨n, hpositive, hle, ?_, ?_, fun k hk => (Search.tallied_afterRounds hbuilt.wellFormed
    hsuits ?_).2⟩
  · rw [Planner.searchFrom_of_some hfrom, hexplore]
  · rw [Planner.searchFrom_of_some hfrom, hexplore]
  · unfold maxRounds
    unfold maxTransfers at *
    omega

namespace Express

open TwoVehicles (clock)

/-- The tables of a search from ten to eight, made after one from eight o'clock. -/
theorem tallied_searchFrom_planner : ∃ n, 1 ≤ n ∧ n ≤ 2 ∧
    ((planner.after [clock 480]).searchFrom (clock 470)).2.roundsRun = n ∧
      ((planner.after [clock 480]).searchFrom (clock 470)).2.state =
        (search.afterRounds (planner.after [clock 480]).state n).state ∧
      ∀ k ≤ n, search.Tallied k (search.afterRounds (planner.after [clock 480]).state k) := by
  exact tallied_searchFrom isBuilt (by decide) accept_eq [clock 480] at?_eq

end Express

end JourneyPlanner
