import JourneyPlanner.Proofs.Search.Fronts
import JourneyPlanner.Search.Exhaustive

/-!
# What a search skips changes nothing

A round only scans the routes at the locations improved in the round before, and a search ends with
the first round that improves nothing. A scan of any other route writes nothing, and neither does
any round after the last one: the search ends with the same tables as the plain one.
-/

namespace JourneyPlanner

namespace Labels

variable {g h : Labels} {locations levels : Nat}

lemma Fits.ext (hg : g.Fits locations levels) (hh : h.Fits locations levels)
    (heq : ∀ l v, g.time l v = h.time l v) : g = h := by
  refine Grid.ext (hg.rows_eq.trans hh.rows_eq.symm) (hg.columns_eq.trans hh.columns_eq.symm) ?_
  intro i j
  by_cases hin : i < locations ∧ j < levels
  · have hgs : (g.get? i j).isSome = true :=
      Grid.get?_isSome_iff.2 (by rw [hg.rows_eq, hg.columns_eq]; exact hin)
    have hhs : (h.get? i j).isSome = true :=
      Grid.get?_isSome_iff.2 (by rw [hh.rows_eq, hh.columns_eq]; exact hin)
    obtain ⟨t, ht⟩ := Option.isSome_iff_exists.1 hgs
    obtain ⟨u, hu⟩ := Option.isSome_iff_exists.1 hhs
    have htime := heq ⟨i⟩ j
    unfold time at htime
    rw [ht, hu] at htime ⊢
    exact congrArg some htime
  · have hgn : g.get? i j = none := by
      rw [← Option.not_isSome_iff_eq_none, Grid.get?_isSome_iff, hg.rows_eq, hg.columns_eq]
      exact hin
    have hhn : h.get? i j = none := by
      rw [← Option.not_isSome_iff_eq_none, Grid.get?_isSome_iff, hh.rows_eq, hh.columns_eq]
      exact hin
    rw [hgn, hhn]

lemma Fits.eq_unreached (hg : g.Fits locations levels) (h : ∀ l v, g.time l v = .infeasible) :
    g = unreached locations levels :=
  hg.ext (fits_unreached locations levels) fun l v =>
    (h l v).trans (time_unreached locations levels l v).symm

lemma Fits.zipWith_best_unreached (hg : g.Fits locations levels) (dir : Direction) :
    g.zipWith dir.best (unreached locations levels) = g := by
  refine (fits_zipWith hg dir.best).ext hg fun l v => ?_
  rw [time_zipWith_best hg (fits_unreached locations levels), time_unreached]
  cases dir <;> rfl

end Labels

namespace Search

variable {s : Search} {p q : Progress} {k n : Nat} {r : RouteIndex} {st : SearchState}
  {locations levels : Nat}

/-- No one is ready, in the round before, at a stop of a route. -/
def Idle (s : Search) (k : Nat) (r : RouteIndex) (st : SearchState) : Prop :=
  ∀ i stop v, s.stopAt? r i = some stop → ¬(st.start (k - 1) stop.location v).isFeasible = true

lemma leaveTrips_empty (s : Search) (position : Nat) (l : LocationIndex) (p : Progress) :
    (s.leaveTrips position l ⟨p, .empty s.levels⟩).progress = p := by
  refine List.foldl_fixed' (fun v => ?_) _
  unfold leaveTrip
  rw [Aboard.trip?_empty]

lemma rideThrough_empty (s : Search) (position : Nat) (l : LocationIndex) (level : Nat) :
    s.rideThrough position l (.empty s.levels) level = .empty s.levels := by
  unfold rideThrough
  rw [Aboard.trip?_empty]
  split
  · rename_i h
    cases h
  · rfl

lemma Idle.aboardAfter_empty (h : s.Idle k r st) {i : Nat} {stop : RouteStop}
    (hstop : s.stopAt? r i = some stop) :
    s.aboardAfter k r stop st i (.empty s.levels) = .empty s.levels := by
  have hrode : (if i = 0 then Aboard.empty s.levels else (List.range (s.levels - 1)).foldl
      (s.rideThrough (s.positionAt r i) stop.location) (.empty s.levels)) = .empty s.levels := by
    split
    · rfl
    · exact List.foldl_fixed' (fun level => rideThrough_empty s _ _ level) _
  have hboard : ∀ level, s.boardTrip k r (s.positionAt r i) stop.location st (.empty s.levels)
      level = .empty s.levels := by
    intro level
    unfold boardTrip
    exact if_neg (h i stop level hstop)
  unfold aboardAfter
  dsimp only
  rw [hrode, List.foldl_fixed' hboard]
  repeat' split
  all_goals rfl

lemma Idle.scanned_eq (h : s.Idle k r p.state) {i : Nat} (hi : i ≤ s.nbOfStops r) :
    s.scanned k r p i = ⟨p, .empty s.levels⟩ := by
  induction i with
  | zero => rfl
  | succ i ih =>
    obtain ⟨stop, hstop⟩ := exists_stopAt? (s := s) (r := r) (i := i) (by omega)
    obtain ⟨q, hq, heq⟩ := scanStop_eq hstop k ⟨p, .empty s.levels⟩
    have hqp : q = p := by
      rw [hq, leaveTrips_empty]
      exact ite_self p
    rw [scanned_succ, ih (by omega), heq, hqp, h.aboardAfter_empty hstop]

/-- The scan of a route that no one can board changes nothing. -/
lemma Idle.scanRoute_eq (h : s.Idle k r p.state) : s.scanRoute k p r = p :=
  congrArg Scan.progress (h.scanned_eq (Nat.le_refl _))

/-- The routes to be scanned are some of those that the plain search scans, in the same order. -/
lemma exists_routesToScan_eq (s : Search) (st : SearchState) :
    ∃ f : RouteIndex → Bool, s.routesToScan st = s.admittedRoutes.filter f := by
  unfold routesToScan admittedRoutes
  rw [← List.foldl_flatMap]
  generalize hreached : (st.marked.flatMap s.timetable.routesAt).foldl
    (fun set (r : RouteIndex) => set.insert r.val) (BitSet.empty s.timetable.nbOfRoutes) = reached
  have hcapacity : reached.capacity = s.timetable.nbOfRoutes := by
    rw [← hreached]
    refine List.foldlRecOn (motive := fun set => set.capacity = s.timetable.nbOfRoutes) _ _
      (BitSet.capacity_empty _) fun set hset (r : RouteIndex) _ =>
        (BitSet.capacity_insert set r.val).trans hset
  -- both lists go through the routes by index, one keeps those that were reached
  refine ⟨fun r => reached.contains r.val, ?_⟩
  unfold BitSet.toList Index.firsts
  dsimp only
  rw [hcapacity, List.filter_filter, List.filter_map, List.filter_map, List.filter_filter]
  exact congrArg _ (List.filter_congr fun i _ => Bool.and_comm _ _)

/-- Items that would change nothing may be left out of a fold. -/
lemma foldl_filter_eq {α : Type} {M : Progress → Prop} {f : Progress → α → Progress}
    {keep : α → Bool} (hkeeps : ∀ q x, M q → M (f q x)) (items : List α)
    (hidle : ∀ x ∈ items, keep x = false → ∀ q, M q → f q x = q) (h : M p) :
    (items.filter keep).foldl f p = items.foldl f p := by
  induction items generalizing p with
  | nil => rfl
  | cons x rest ih =>
    have hrest := fun y hy => hidle y (List.mem_cons_of_mem x hy)
    rw [List.foldl_cons]
    cases hx : keep x with
    | true =>
      rw [List.filter_cons_of_pos hx, List.foldl_cons]
      exact ih hrest (hkeeps p x h)
    | false =>
      rw [List.filter_cons_of_neg (by rw [hx]; exact Bool.false_ne_true),
        hidle x List.mem_cons_self hx p h]
      exact ih hrest h

/-- When every location that can be left is marked, a round may as well scan every route. -/
lemma round_eq (hw : s.timetable.WellFormed) (hmarks : MarksStarts k p) :
    s.round (k + 1) p = s.roundOver s.admittedRoutes (k + 1) p := by
  obtain ⟨keep, hkeep⟩ := s.exists_routesToScan_eq p.state
  have hboards := boards_routesToScan hw hmarks
  have hscans : (s.routesToScan p.state).foldl (s.scanRoute (k + 1)) (p.mapState (·.rotateMarks)) =
      s.admittedRoutes.foldl (s.scanRoute (k + 1)) (p.mapState (·.rotateMarks)) := by
    rw [hkeep]
    -- a scan writes no starts, so that a route stays idle until its turn comes
    refine foldl_filter_eq (M := fun q => ∀ l v, q.state.start k l v = p.state.start k l v)
      (fun q r hq l v => ((scans_scanRoute s (k + 1) r q).start_eq k l v).trans (hq l v)) _ ?_
      (fun _ _ => rfl)
    intro r hr hnot q hq
    refine Idle.scanRoute_eq fun i stop v hstop hf => ?_
    have hstart : (p.state.start k stop.location v).isFeasible = true := hq stop.location v ▸ hf
    have hmem := hboards.2 r i stop v (List.mem_filter.1 hr).2 hstop hstart
    rw [hkeep, List.mem_filter, hnot] at hmem
    exact Bool.false_ne_true hmem.2
  unfold round roundOver
  dsimp only
  rw [hscans]

/-- Nothing has happened in a round, nor will it in any round after it. -/
structure Quiet (k : Nat) (p : Progress) : Prop where
  shaped : ∃ locations levels, p.Shaped locations levels
  unmarked : ∀ i, p.state.marks.contains i = false
  tmp_unreached : ∀ l v, p.state.tmp.time l v = .infeasible
  start_unreached : ∀ j l v, k ≤ j → p.state.start j l v = .infeasible
  finish_unreached : ∀ j l v, k < j → p.state.finish j l v = .infeasible

lemma Quiet.succ (h : Quiet k p) : Quiet (k + 1) p :=
  { h with
    start_unreached := fun j l v hj => h.start_unreached j l v (by omega)
    finish_unreached := fun j l v hj => h.finish_unreached j l v (by omega) }

lemma Quiet.rotateMarks_eq (h : Quiet k p) : p.mapState (·.rotateMarks) = p := by
  have hmarks : p.state.marks.clear = p.state.marks :=
    BitSet.ext (BitSet.capacity_empty _) fun i => (BitSet.contains_empty _ i).trans (h.unmarked i).symm
  unfold Progress.mapState SearchState.rotateMarks
  dsimp only
  rw [hmarks]

lemma Quiet.finishRound_eq (h : Quiet k p) (hk : k + 1 < maxRounds) (dir : Direction) :
    p.mapState (·.finishRound dir (k + 1)) = p := by
  obtain ⟨locations, levels, hshaped⟩ := h.shaped
  have hst := hshaped.state.fits
  have htmp : p.state.tmp = .unreached locations levels := hst.tmp.eq_unreached h.tmp_unreached
  have hstarts : p.state.starts[k + 1]? = some (.unreached locations levels) := by
    have hlt : k + 1 < p.state.starts.size := by
      rw [hst.starts_size]
      exact hk
    have hget := Array.getElem?_eq_getElem hlt
    rw [hget, (hst.starts hget).eq_unreached fun l v => ?_]
    have hstart := h.start_unreached (k + 1) l v (Nat.le_succ k)
    unfold SearchState.start at hstart
    rw [hget] at hstart
    exact hstart
  have hends : p.state.ends.setIfInBounds (k + 1) (.unreached locations levels) = p.state.ends := by
    refine Array.ext_getElem? fun j => ?_
    rw [Array.getElem?_setIfInBounds]
    split
    · rename_i hj
      subst hj
      split
      · rename_i hlt
        have hget := Array.getElem?_eq_getElem hlt
        rw [hget, (hshaped.state.ends hget).eq_unreached fun l v => ?_]
        have hfinish := h.finish_unreached (k + 1) l v (Nat.lt_succ_self k)
        unfold SearchState.finish at hfinish
        rw [hget] at hfinish
        exact hfinish
      · rename_i hlt
        rw [Array.getElem?_eq_none (Nat.le_of_not_lt hlt)]
    · rfl
  have hbest : p.state.best.zipWith dir.best p.state.tmp = p.state.best := by
    rw [htmp]
    exact hst.best.zipWith_best_unreached dir
  have hbestStart : p.state.bestStart.zipWith dir.best (Labels.unreached locations levels) =
      p.state.bestStart := hst.bestStart.zipWith_best_unreached dir
  have hnext : Labels.unreached p.state.nbOfLocations p.state.levels = p.state.tmp := by
    rw [htmp, hst.locations_eq, hst.levels_eq]
  rw [← htmp] at hends
  unfold Progress.mapState SearchState.finishRound
  dsimp only
  rw [hstarts]
  dsimp only
  rw [hbest, hbestStart, hends, hnext]

lemma Quiet.transferAll_eq (h : Quiet k p) (n : Nat) : s.transferAll n p = p := by
  have hmarked : p.state.marked = [] := by
    refine List.eq_nil_iff_forall_not_mem.2 fun l hl => ?_
    have hmark := SearchState.mem_marked.1 hl
    rw [h.unmarked] at hmark
    cases hmark
  unfold transferAll
  rw [hmarked]
  exact h.rotateMarks_eq

/-- Whatever routes are scanned, a round after one in which nothing happened changes nothing. -/
lemma Quiet.roundOver_eq (h : Quiet k p) (hk : k + 1 < maxRounds) (routes : List RouteIndex) :
    s.roundOver routes (k + 1) p = p := by
  have hscans : s.afterScans routes (k + 1) p = p := by
    unfold afterScans
    rw [h.rotateMarks_eq]
    refine List.foldl_fixed' (fun r => Idle.scanRoute_eq fun i stop v _ hf => ?_) routes
    have hstart : (p.state.start k stop.location v).isFeasible = true := hf
    rw [h.start_unreached k _ _ (Nat.le_refl k)] at hstart
    cases hstart
  rw [Search.roundOver_eq, hscans, h.transferAll_eq]
  exact h.finishRound_eq hk s.dir

lemma Quiet.plainRounds_eq (h : Quiet k p) (remaining : Nat) (hk : k + remaining < maxRounds) :
    s.plainRounds remaining (k + 1) p = p := by
  induction remaining generalizing k with
  | zero => rfl
  | succ remaining ih =>
    unfold plainRounds
    rw [h.roundOver_eq (by omega)]
    exact ih h.succ (by omega)

/-- A round that improves nothing is one in which nothing happened. -/
lemma Traced.quiet (h : s.Traced k p) (hmarks : MarksStarts k p)
    (hshaped : p.Shaped locations levels) (hnone : ¬p.state.anyMarked = true) : Quiet k p := by
  have hstart : ∀ j l v, k ≤ j → p.state.start j l v = .infeasible := by
    intro j l v hj
    rcases Nat.eq_or_lt_of_le hj with rfl | hlt
    · exact Direction.eq_infeasible_of_not (not_start_of_not_anyMarked hmarks hnone l v)
    · exact h.start_unreached j l v hlt
  refine ⟨⟨locations, levels, hshaped⟩, ?_, h.tmp_unreached, hstart, fun j l v hj => ?_⟩
  · unfold SearchState.anyMarked at hnone
    rw [Bool.not_eq_true', Bool.not_eq_false] at hnone
    exact BitSet.isEmpty_iff.1 hnone
  · -- an arrival of a round comes from a start of the round before
    refine Direction.eq_infeasible_of_not fun hf => ?_
    obtain ⟨_, l', u, hready, _⟩ := h.finishes j l v hf
    rw [hstart (j - 1) l' u (by omega)] at hready
    cases hready

lemma rounds_eq_plainRounds (hw : s.timetable.WellFormed) (remaining : Nat) (h : s.Traced k p)
    (hmarks : MarksStarts k p) (hshaped : p.Shaped locations levels)
    (hk : k + remaining < maxRounds) :
    (s.rounds remaining (k + 1) p).1 = s.plainRounds remaining (k + 1) p := by
  induction remaining generalizing k p with
  | zero => rfl
  | succ remaining ih =>
    have htraced := h.round hw (by omega)
    have hmarks' := marksStarts_roundOver (s := s) hshaped.fits
      (fun l v => h.start_unreached (k + 1) l v (Nat.lt_succ_self k)) (s.routesToScan p.state)
    have hshaped' := shaped_roundOver hshaped s (s.routesToScan p.state) (k + 1)
    unfold rounds plainRounds
    rw [← round_eq hw hmarks]
    dsimp only
    split
    · exact ih htraced hmarks' hshaped' (by omega)
    · -- here the search ends; the plain one goes on, with rounds in which nothing happens
      rename_i hnone
      exact ((htraced.quiet hmarks' hshaped' hnone).plainRounds_eq remaining (by omega)).symm

/-- A search ends with the same tables as the plain one. -/
theorem explore_eq_plainExplore (hw : s.timetable.WellFormed)
    (hmax : s.query.maxTransfers ≤ maxTransfers) (st : SearchState) :
    (s.explore st).1 = s.plainExplore st := by
  refine rounds_eq_plainRounds hw _ (traced_seed s st) (marksStarts_seed s st) (shaped_seed s st) ?_
  unfold maxRounds
  unfold maxTransfers at *
  omega

end Search

/-- A search finds the same journeys and leaves the same tables as the plain one, whatever was
searched before in the same state. -/
theorem searchFrom_eq_plainSearchFrom {tt : Timetable} (hbuilt : tt.IsBuilt)
    {accepting : SearchState} {q : Query} {planner : Planner}
    (haccept : Planner.accept tt accepting q = .ok planner) (before : List Instant) (t : Instant) :
    ((planner.after before).searchFrom t).1 = ((planner.after before).plainSearchFrom t).1 ∧
      ((planner.after before).searchFrom t).2.state =
        ((planner.after before).plainSearchFrom t).2 := by
  obtain ⟨rfl, hfits, _⟩ := Planner.accept_eq_ok_iff.1 haccept
  obtain ⟨htimetable, hquery, _⟩ := Planner.after_retains (M := fun _ => True)
    (p := ⟨tt, q, accepting, 0⟩) (fun _ _ _ => trivial) trivial before
  generalize Planner.after ⟨tt, q, accepting, 0⟩ before = planner at htimetable hquery ⊢
  dsimp only at htimetable hquery
  subst htimetable hquery
  unfold Planner.plainSearchFrom
  cases hsearch : Search.at? planner.timetable planner.query t with
  | none =>
    rw [Planner.searchFrom_of_none hsearch]
    exact ⟨rfl, rfl⟩
  | some s =>
    obtain ⟨htimetable, hquery, _⟩ := Search.at?_sound hsearch
    have hmax := hfits.maxTransfers_le
    rw [← htimetable] at hbuilt
    rw [← hquery] at hmax
    rw [Planner.searchFrom_of_some hsearch, Search.explore_eq_plainExplore hbuilt.wellFormed hmax]
    exact ⟨rfl, rfl⟩

/-- A search from ten to eight, made after one from eight o'clock, leaves out the third line in its
first round and the slow one in its second. -/
theorem Express.searchFrom_eq_plainSearchFrom_planner :
    ((planner.after [TwoVehicles.clock 480]).searchFrom (TwoVehicles.clock 470)).1 =
        ((planner.after [TwoVehicles.clock 480]).plainSearchFrom (TwoVehicles.clock 470)).1 ∧
      ((planner.after [TwoVehicles.clock 480]).searchFrom (TwoVehicles.clock 470)).2.state =
        ((planner.after [TwoVehicles.clock 480]).plainSearchFrom (TwoVehicles.clock 470)).2 :=
  searchFrom_eq_plainSearchFrom isBuilt accept_eq [TwoVehicles.clock 480] (TwoVehicles.clock 470)

end JourneyPlanner
