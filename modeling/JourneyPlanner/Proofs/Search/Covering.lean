import JourneyPlanner.Proofs.Search.Settling

/-!
# A search covers every way

Whoever gets ready, rides and changes vehicles, however often, is followed by the rounds of the
search: after as many rounds as rides, something no worse is known.
-/

namespace JourneyPlanner

open Progress (Scans Leaves)

namespace Search

variable {s : Search} {p p' : Progress} {k n : Nat} {l : LocationIndex} {v : Nat} {t t' : RelTime}
  {a : Arrival} {r : RouteIndex} {st : SearchState}

lemma isExit_prepare (s : Search) (st : SearchState) {o : Offset} (ho : o ∈ s.query.destination)
    (hlt : o.location.val < st.nbOfLocations) :
    (s.prepare st).state.isExit o.location = true := by
  have hfold : ∀ (offsets : List Offset) (st : SearchState),
      (offsets.foldl (fun st o => st.addExit o.location) st).exits =
        offsets.foldl (fun set o => set.insert o.location.val) st.exits := by
    intro offsets
    induction offsets with
    | nil => exact fun _ => rfl
    | cons o rest ih => exact fun st => ih _
  have hcapacity : st.reset.exits.capacity = st.nbOfLocations := BitSet.capacity_empty _
  unfold SearchState.isExit
  show (s.query.destination.foldl (fun st o => st.addExit o.location) st.reset).exits.contains _ = _
  rw [hfold, BitSet.contains_foldl_insert, hcapacity]
  exact Or.inr ⟨hlt, o, ho, rfl⟩

lemma best_seed (s : Search) (st : SearchState) (l : LocationIndex) (v : Nat) :
    (s.seed (s.prepare st)).state.best.time l v = .infeasible := by
  have hleaves := leaves_seeds s (s.prepare st)
  have hfits := hleaves.fits_of (fits_prepare s st)
  have hreset : st.reset.best.time l v = .infeasible := Labels.time_unreached _ _ _ _
  have hbest : (s.prepare st).state.best.time l v = .infeasible := by
    rw [prepare_eq]
    exact hreset
  show (SearchState.finishRound _ _ _).best.time l v = _
  rw [hfits.state.best_finishRound, hleaves.best_eq, hleaves.tmp_eq, tmp_prepare, hbest]
  cases s.dir <;> rfl

lemma bestStart_seed (s : Search) (st : SearchState) (l : LocationIndex) (v : Nat) :
    (s.seed (s.prepare st)).state.bestStart.time l v =
      s.dir.best .infeasible ((s.seed (s.prepare st)).state.start 0 l v) := by
  have hleaves := leaves_seeds s (s.prepare st)
  have hfits := hleaves.fits_of (fits_prepare s st)
  have hreset : st.reset.bestStart.time l v = .infeasible := Labels.time_unreached _ _ _ _
  have hbest : (s.prepare st).state.bestStart.time l v = .infeasible := by
    rw [prepare_eq]
    exact hreset
  show (SearchState.finishRound _ _ _).bestStart.time l v = _
  rw [hfits.state.bestStart_finishRound _ (by decide), hleaves.bestStart_eq, hbest]
  rfl

lemma bestDestination_seed (s : Search) (st : SearchState) :
    (s.seed (s.prepare st)).bestDestination = .infeasible := by
  have hprepare : (s.prepare st).bestDestination = .infeasible := by
    rw [prepare_eq]
    rfl
  refine seeds_keeps (s := s) (M := fun q => q.bestDestination = .infeasible) ?_ hprepare
  intro q o w l v t _ hq
  rcases improveStart_cases s 0 l v t q with ⟨heq, _⟩ | ⟨heq, _⟩ <;> rw [heq] <;> exact hq

/-- The states in which a search may be made: they have a place for every location and level. -/
structure Suits (s : Search) (st : SearchState) : Prop where
  locations_eq : st.nbOfLocations = s.timetable.nbOfLocations
  levels_eq : st.levels = s.levels
  known : ∀ o ∈ s.query.start ++ s.query.destination, o.location.val < s.timetable.nbOfLocations

lemma Suits.known_start (h : s.Suits st) (hw : s.timetable.WellFormed) {o : Offset}
    {w : Option Walk} (hready : s.Readies (.fromStart o w) l v t) :
    l.val < s.timetable.nbOfLocations ∧ v < s.levels := by
  have hlevels : 0 < s.levels := Nat.succ_pos _
  cases hready with
  | start ho hstay =>
    exact ⟨h.known o (List.mem_append_left _ ho), lt_levels_of_mem_stays hstay hlevels⟩
  | startOnFoot _ hwalk hstay =>
    exact ⟨target_known hw hwalk, lt_levels_of_mem_stays hstay hlevels⟩

/-- Every way of getting ready at the start is known after round 0. -/
lemma hasStart_seed (hw : s.timetable.WellFormed) (h : s.Suits st) {o : Offset} {w : Option Walk}
    (hready : s.Readies (.fromStart o w) l v t) :
    (s.seed (s.prepare st)).HasStart s.dir l v t := by
  obtain ⟨hl, hv⟩ := h.known_start hw hready
  have hfits := fits_prepare s st
  rw [h.locations_eq, h.levels_eq] at hfits
  obtain ⟨q, hq, hafter⟩ := seeds_performs hready (s.prepare st)
  have hknows := (knowsStart_improveStart (s := s) (k := 0) (t := t) (hq.fits_of hfits) (by decide)
    hl hv).leaves hafter
  have hleaves := leaves_seeds s (s.prepare st)
  have hbest : (s.query.start.foldl s.seedOffset (s.prepare st)).state.bestStart.time l v =
      .infeasible := by
    have hreset : st.reset.bestStart.time l v = .infeasible := Labels.time_unreached _ _ _ _
    rw [hleaves.bestStart_eq, prepare_eq]
    exact hreset
  rcases hknows with hknows | hknows | hknows
  · left
    rw [bestStart_seed, Direction.cost_best]
    exact Int.le_trans (Int.min_le_right _ _) hknows
  · -- what is no better than a time that is not reached is not reached
    left
    rw [hbest, Direction.cost_infeasible] at hknows
    exact Int.le_trans (Direction.cost_le _ _) hknows
  · exact Or.inr hknows

lemma marksStarts_seed (s : Search) (st : SearchState) :
    MarksStarts 0 (s.seed (s.prepare st)) := by
  have hboth : (s.query.start.foldl s.seedOffset (s.prepare st)).Fits st.nbOfLocations st.levels ∧
      MarksStarts 0 (s.query.start.foldl s.seedOffset (s.prepare st)) := by
    refine seeds_keeps (s := s)
      (M := fun q => q.Fits st.nbOfLocations st.levels ∧ MarksStarts 0 q) ?_ ⟨fits_prepare s st, ?_⟩
    · rintro q o w l v t _ ⟨hq, hmarks⟩
      exact ⟨(leaves_improveStart _ _ _ _ _ _).fits_of hq, marksStarts_improveStart hq hmarks⟩
    · intro l v hf
      rw [start_prepare] at hf
      cases hf
  exact hboth.2

lemma settled_seed (hw : s.timetable.WellFormed) (h : s.Suits st) :
    s.Settled 0 (s.seed (s.prepare st)) := by
  have hunreached : ∀ (j : Nat) (a : Arrival),
      a.time = (s.seed (s.prepare st)).state.finish j a.location a.level →
        ¬a.time.isFeasible = true := by
    intro j a ha hf
    rw [ha, finish_seed] at hf
    cases hf
  refine ⟨traced_seed s st, ?_, ?_, ?_, ?_, ?_, ?_, ?_, ?_, ?_, ?_⟩
  · have hfits := fits_seed s st
    rw [h.locations_eq, h.levels_eq] at hfits
    exact hfits
  · intro o ho
    have hlt : o.location.val < st.nbOfLocations := by
      rw [h.locations_eq]
      exact h.known o (List.mem_append_right _ ho)
    have hexit := isExit_prepare s st ho hlt
    have hexits : (s.seed (s.prepare st)).state.exits = (s.prepare st).state.exits :=
      (leaves_seeds s (s.prepare st)).exits_eq
    unfold SearchState.isExit at hexit ⊢
    rw [hexits]
    exact hexit
  · exact fun j hj => absurd hj (Nat.not_lt_zero j)
  · exact fun o w l v t hready => hasStart_seed hw h hready
  · exact fun j a w l v t ha hf _ => absurd hf (hunreached j a ha)
  · exact fun j a w l v t o ha hf _ _ _ _ => absurd hf (hunreached j a ha)
  · intro l v hf
    rw [best_seed] at hf
    cases hf
  · intro l v hf
    rw [bestStart_seed] at hf ⊢
    rcases s.dir.best_eq_or .infeasible ((s.seed (s.prepare st)).state.start 0 l v) with heq | heq
    · rw [heq] at hf
      cases hf
    · exact ⟨0, Nat.le_refl 0, heq.symm⟩
  · exact marksStarts_seed s st
  · intro hf
    rw [bestDestination_seed] at hf
    cases hf

lemma mem_routesToScan (hadmits : s.query.admits s.timetable r = true)
    (hl : st.marks.contains l.val = true) (hr : r ∈ s.timetable.routesAt l)
    (hlt : r.val < s.timetable.nbOfRoutes) : r ∈ s.routesToScan st := by
  unfold routesToScan
  refine List.mem_filter.2 ⟨List.mem_map.2 ⟨r.val, ?_, rfl⟩, hadmits⟩
  rw [BitSet.mem_toList, ← List.foldl_flatMap, BitSet.contains_foldl_insert, BitSet.capacity_empty]
  refine Or.inr ⟨hlt, r, List.mem_flatMap.2 ⟨l, ?_, hr⟩, rfl⟩
  exact SearchState.mem_marked.2 hl

/-- The routes at the marked locations are all that can be boarded. -/
lemma boards_routesToScan (hw : s.timetable.WellFormed) (h : MarksStarts k p) :
    s.Boards k p (s.routesToScan p.state) := by
  refine ⟨fun r hr => admits_of_mem_routesToScan hr, ?_⟩
  intro r i stop v hadmits hstop hstart
  have hlisted := hw.listed hstop
  exact mem_routesToScan hadmits (h _ _ hstart) hlisted (hw.listed_lt hlisted)

/-- Whoever reaches a location during the search, no later than an arrival, can be ready by a
time. -/
structure ReadiesBy (s : Search) (a : Arrival) (l : LocationIndex) (v : Nat) (t : RelTime) :
    Prop where
  cost_le : s.dir.cost a.time ≤ s.dir.cost t
  readies : ∀ u, s.dir.cost s.start ≤ s.dir.cost u → s.dir.cost u ≤ s.dir.cost a.time → ∃ w t',
    s.Readies (.fromVehicle ⟨a.location, a.level, u⟩ w) l v t' ∧ s.dir.cost t' ≤ s.dir.cost t

/-- Whoever reaches a location during the search, no later than an arrival, can be at a location
by a time. -/
structure StandsBy (s : Search) (a : Arrival) (l : LocationIndex) (v : Nat) (t : RelTime) :
    Prop where
  cost_le : s.dir.cost a.time ≤ s.dir.cost t
  stands : ∀ u, s.dir.cost s.start ≤ s.dir.cost u → s.dir.cost u ≤ s.dir.cost a.time → ∃ w t',
    s.Stands ⟨a.location, a.level, u⟩ w l v t' ∧ s.dir.cost t' ≤ s.dir.cost t

/-- Someone can be ready for a vehicle by a time, after a number of rides. -/
inductive ReadyAfter (s : Search) : Nat → LocationIndex → Nat → RelTime → Prop
  | start {o : Offset} {w : Option Walk} {l : LocationIndex} {v : Nat} {t t' : RelTime} :
      s.Readies (.fromStart o w) l v t' → s.dir.cost t' ≤ s.dir.cost t → ReadyAfter s 0 l v t
  | change {k : Nat} {l l' : LocationIndex} {v v' : Nat} {t t' : RelTime} {a : Arrival} :
      ReadyAfter s k l v t → s.BringsNear l v t a → s.ReadiesBy a l' v' t' →
      ReadyAfter s (k + 1) l' v' t'

/-- Someone can be at the destination by a time, with one more ride after a number of rides. -/
structure ArrivesBy (s : Search) (k : Nat) (finish : RelTime) : Prop where
  feasible : finish.isFeasible = true
  way : ∃ l v t a l' v' t', s.ReadyAfter k l v t ∧ s.BringsNear l v t a ∧ s.StandsBy a l' v' t' ∧
    v' + 1 = s.levels ∧ ∃ o ∈ s.query.destination, o.location = l' ∧
      s.dir.cost (s.dir.add t' o.duration) ≤ s.dir.cost finish

lemma InTime.earlier {trip : Trip} {board : Nat} (h : s.InTime r trip board t)
    (hle : s.dir.cost t' ≤ s.dir.cost t) : s.InTime r trip board t' :=
  ⟨h.feasible, Int.le_trans hle h.cost_le⟩

lemma BringsNear.earlier (h : s.BringsNear l v t a) (hle : s.dir.cost t' ≤ s.dir.cost t) :
    s.BringsNear l v t' a := by
  obtain ⟨r, trip, board, alight, hride, hintime, hnear⟩ := h
  exact ⟨r, trip, board, alight, hride, hintime.earlier hle, hnear⟩

lemma BringsNear.cost_le (hw : s.timetable.WellFormed) (h : s.BringsNear l v t a) :
    s.dir.cost t ≤ s.dir.cost a.time := by
  obtain ⟨r, trip, board, alight, hride, hintime, _⟩ := h
  exact Brings.cost_le hw ⟨r, trip, board, alight, hride, hintime⟩

lemma Settled.hasArrival_of_hasStart (hw : s.timetable.WellFormed) (h : s.Settled k p)
    (hrides : ∀ j ≤ k, ∀ l v a, (p.state.start j l v).isFeasible = true →
      a.time.isFeasible = true → s.BringsNear l v (p.state.start j l v) a →
        p'.HasArrival s.dir a.location a.level a.time)
    (hdestination : s.dir.cost p'.bestDestination ≤ s.dir.cost p.bestDestination)
    (hstart : p.HasStart s.dir l v t) (ha : a.time.isFeasible = true)
    (hbrings : s.BringsNear l v t a) : p'.HasArrival s.dir a.location a.level a.time := by
  have hle := hbrings.cost_le hw
  rcases hstart with hstart | hstart
  · have hf := Direction.isFeasible_of_le (Int.le_trans hstart hle) ha
    obtain ⟨j, hj, hfound⟩ := h.bestStart_found l v hf
    rw [← hfound] at hf hstart
    exact hrides j hj l v a hf ha (hbrings.earlier hstart)
  · exact Or.inr (Int.le_trans hdestination (Int.le_trans hstart hle))

lemma Settled.hasStart_of_hasArrival (hw : s.timetable.WellFormed) (h : s.Settled k p)
    (ha : p.HasArrival s.dir a.location a.level a.time) (hready : s.ReadiesBy a l v t)
    (ht : t.isFeasible = true) : p.HasStart s.dir l v t := by
  rcases ha with ha | ha
  · have hf := Direction.isFeasible_of_le (Int.le_trans ha hready.cost_le) ht
    obtain ⟨j, _, hfound⟩ := h.best_found _ _ hf
    have hstart := (h.traced.start_le hw j).2 a.location a.level
    rw [hfound] at hstart
    obtain ⟨w, t', hready', hle⟩ := hready.readies _ hstart ha
    exact (h.changes j ⟨a.location, a.level, _⟩ w l v t' hfound.symm hf hready').mono hle
  · exact Or.inr (Int.le_trans ha hready.cost_le)

lemma Settled.destination_le (hw : s.timetable.WellFormed) (h : s.Settled k p)
    (ha : p.HasArrival s.dir a.location a.level a.time) (hstands : s.StandsBy a l v t)
    (hlast : v + 1 = s.levels) {o : Offset} (ho : o ∈ s.query.destination) (hl : o.location = l)
    (hf : (s.dir.add t o.duration).isFeasible = true) :
    s.dir.cost p.bestDestination ≤ s.dir.cost (s.dir.add t o.duration) := by
  rcases ha with ha | ha
  · have hle := Int.le_trans hstands.cost_le (Direction.cost_le_add t o.duration)
    have hbest := Direction.isFeasible_of_le (Int.le_trans ha hle) hf
    obtain ⟨j, _, hfound⟩ := h.best_found _ _ hbest
    have hstart := (h.traced.start_le hw j).2 a.location a.level
    rw [hfound] at hstart
    obtain ⟨w, t', hstands', hle'⟩ := hstands.stands _ hstart ha
    exact Int.le_trans (h.ends j ⟨a.location, a.level, _⟩ w l v t' o hfound.symm hbest hstands' hlast
      ho hl) (Direction.cost_add_mono hle' o.duration)
  · exact Int.le_trans ha (Int.le_trans hstands.cost_le (Direction.cost_le_add t o.duration))

lemma Settled.rides_all (h : s.Settled k p)
    (hnone : ∀ l v, ¬(p.state.start k l v).isFeasible = true) :
    ∀ j ≤ k, ∀ l v a, (p.state.start j l v).isFeasible = true → a.time.isFeasible = true →
      s.BringsNear l v (p.state.start j l v) a → p.HasArrival s.dir a.location a.level a.time := by
  intro j hj l v a hstart ha hbrings
  by_cases hjk : j = k
  · rw [hjk] at hstart
    exact absurd hstart (hnone l v)
  · exact h.rides j (by omega) l v a hstart ha hbrings

/-- Whatever someone can be ready for after a number of rides is known. -/
def Covers (s : Search) (n : Nat) (p : Progress) : Prop :=
  ∀ l v t, s.ReadyAfter n l v t → t.isFeasible = true → p.HasStart s.dir l v t

/-- A way to the destination with few rides is recorded that is no worse than a time. -/
def Finds (n : Nat) (finish : RelTime) (dir : Direction) (p : Progress) : Prop :=
  ∃ j ≤ n, ∃ h, p.hit? j = some h ∧ dir.cost h.destinationTime ≤ dir.cost finish

lemma Settled.covers_zero (h : s.Settled k p) : s.Covers 0 p := by
  intro l v t hready _
  cases hready with
  | start hready hle => exact (h.starts _ _ l v _ hready).mono hle

/-- When every way of so many rides is covered, and every ride from there is known, then every way
with one more ride is covered. -/
lemma Covers.succ (hw : s.timetable.WellFormed) {n k' : Nat} (hcovers : s.Covers n p)
    (h : s.Settled k p) (h' : s.Settled k' p')
    (hrides : ∀ j ≤ k, ∀ l v a, (p.state.start j l v).isFeasible = true →
      a.time.isFeasible = true → s.BringsNear l v (p.state.start j l v) a →
        p'.HasArrival s.dir a.location a.level a.time)
    (hdestination : s.dir.cost p'.bestDestination ≤ s.dir.cost p.bestDestination) :
    s.Covers (n + 1) p' := by
  intro l v t hready ht
  cases hready with
  | change hbefore hbrings hready =>
    have ha := Direction.isFeasible_of_le hready.cost_le ht
    have ht' := Direction.isFeasible_of_le (hbrings.cost_le hw) ha
    have harrival := h.hasArrival_of_hasStart hw hrides hdestination (hcovers _ _ _ hbefore ht') ha
      hbrings
    exact h'.hasStart_of_hasArrival hw harrival hready ht

/-- When every way of so many rides is covered, and every ride from there is known, then every way
to the destination with one more ride is recorded. -/
lemma Covers.finds (hw : s.timetable.WellFormed) {n k' : Nat} (hcovers : s.Covers n p)
    (h : s.Settled k p) (h' : s.Settled k' p')
    (hrides : ∀ j ≤ k, ∀ l v a, (p.state.start j l v).isFeasible = true →
      a.time.isFeasible = true → s.BringsNear l v (p.state.start j l v) a →
        p'.HasArrival s.dir a.location a.level a.time)
    (hdestination : s.dir.cost p'.bestDestination ≤ s.dir.cost p.bestDestination)
    {finish : RelTime} (hway : s.ArrivesBy n finish) : Finds k' finish s.dir p' := by
  obtain ⟨hf, l, v, t, a, l', v', t', hready, hbrings, hstands, hlast, o, ho, hl, hle⟩ := hway
  have hfinish := Direction.isFeasible_of_le hle hf
  have ha := Direction.isFeasible_of_le
    (Int.le_trans hstands.cost_le (Direction.cost_le_add t' o.duration)) hfinish
  have ht := Direction.isFeasible_of_le (hbrings.cost_le hw) ha
  have harrival := h.hasArrival_of_hasStart hw hrides hdestination (hcovers _ _ _ hready ht) ha
    hbrings
  have hbest := Int.le_trans (h'.destination_le hw harrival hstands hlast ho hl hfinish) hle
  obtain ⟨j, hj, x, hx, htime⟩ := h'.records (Direction.isFeasible_of_le hbest hf)
  refine ⟨j, hj, x, hx, ?_⟩
  rw [htime]
  exact hbest

/-- After a round that improves nothing, the ways of any length are covered. -/
lemma Settled.covers_all (hw : s.timetable.WellFormed) (h : s.Settled k p)
    (hnone : ∀ l v, ¬(p.state.start k l v).isFeasible = true) (hcovers : s.Covers k p)
    (hn : k ≤ n) : s.Covers n p := by
  induction n, hn using Nat.le_induction with
  | base => exact hcovers
  | succ n _ ih => exact ih.succ hw h h (h.rides_all hnone) (Int.le_refl _)

lemma not_start_of_not_anyMarked (h : MarksStarts k p) (hnone : ¬p.state.anyMarked = true)
    (l : LocationIndex) (v : Nat) : ¬(p.state.start k l v).isFeasible = true := by
  intro hf
  have hmark := h l v hf
  unfold SearchState.anyMarked at hnone
  rw [Bool.not_eq_true', Bool.not_eq_false, BitSet.isEmpty_iff] at hnone
  rw [hnone] at hmark
  cases hmark

/-- A search finds every way to the destination, with no more rides and no later. -/
lemma Settled.finds_rounds (hw : s.timetable.WellFormed)
    (hordered : s.timetable.StrictlyOrdered) (hanchored : s.Anchored) (remaining : Nat)
    (h : s.Settled k p) (hcovers : s.Covers k p)
    (hfound : ∀ n < k, ∀ finish, s.ArrivesBy n finish → Finds (n + 1) finish s.dir p)
    (hk : k + remaining < maxRounds) : ∀ n < k + remaining, ∀ finish, s.ArrivesBy n finish →
      Finds (n + 1) finish s.dir (s.rounds remaining (k + 1) p).1 := by
  induction remaining generalizing k p with
  | zero => exact hfound
  | succ remaining ih =>
    have hroutes := boards_routesToScan hw h.marks
    have hnext : s.Settled (k + 1) (s.round (k + 1) p) :=
      h.roundOver hw hordered hanchored (by omega) hroutes
    have himproves : p.Improves s.dir (s.round (k + 1) p) := improves_roundOver h.fits (by omega) s _
    have hrides : ∀ j ≤ k, ∀ l v a, (p.state.start j l v).isFeasible = true →
        a.time.isFeasible = true → s.BringsNear l v (p.state.start j l v) a →
          (s.round (k + 1) p).HasArrival s.dir a.location a.level a.time := by
      intro j hj l v a hstart ha hbrings
      have hsame : (s.round (k + 1) p).state.start j l v = p.state.start j l v :=
        start_roundOver (by omega) s _ p l v
      rw [← hsame] at hstart hbrings
      exact hnext.rides j (by omega) l v a hstart ha hbrings
    have hcovers' := hcovers.succ hw h hnext hrides himproves.destination_le
    have hfound' : ∀ n < k + 1, ∀ finish, s.ArrivesBy n finish →
        Finds (n + 1) finish s.dir (s.round (k + 1) p) := by
      intro n hn finish hway
      by_cases hnk : n = k
      · rw [hnk] at hway ⊢
        exact hcovers.finds hw h hnext hrides himproves.destination_le hway
      · obtain ⟨j, hj, x, hx, hle⟩ := hfound n (by omega) finish hway
        exact ⟨j, hj, x, (hit?_roundOver (by omega)).trans hx, hle⟩
    unfold rounds
    dsimp only
    split
    · intro n hn
      exact ih hnext hcovers' hfound' (by omega) n (by omega)
    · rename_i hnone
      have hstarts := not_start_of_not_anyMarked hnext.marks hnone
      intro n hn finish hway
      by_cases hle : n ≤ k
      · exact hfound' n (by omega) finish hway
      · have hall := hnext.covers_all hw hstarts hcovers' (n := n) (by omega)
        obtain ⟨j, hj, x, hx, hbest⟩ := hall.finds hw hnext hnext (hnext.rides_all hstarts)
          (Int.le_refl _) hway
        exact ⟨j, by omega, x, hx, hbest⟩

/-- A search whose trips never meet finds every way to the destination. -/
theorem finds_explore (hw : s.timetable.WellFormed) (hordered : s.timetable.StrictlyOrdered)
    (hanchored : s.Anchored) (hsuits : s.Suits st) (hmax : s.query.maxTransfers ≤ maxTransfers)
    (hn : n ≤ s.query.maxTransfers) {finish : RelTime} (hway : s.ArrivesBy n finish) :
    Finds (n + 1) finish s.dir (s.explore st).1 := by
  have hseed := settled_seed hw hsuits
  have hk : 0 + (s.query.maxTransfers + 1) < maxRounds := by
    unfold maxRounds
    unfold maxTransfers at *
    omega
  exact hseed.finds_rounds hw hordered hanchored (s.query.maxTransfers + 1) hseed.covers_zero
    (fun n hn => absurd hn (Nat.not_lt_zero n)) hk n (by omega) finish hway

end Search

end JourneyPlanner
