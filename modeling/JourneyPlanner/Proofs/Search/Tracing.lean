import JourneyPlanner.Proofs.Search.Scanning
import JourneyPlanner.Proofs.Search.Transferring
import JourneyPlanner.Search.Planner

/-!
# Tracing round times

Every time that a search has written after a round can be traced one step back: a start to the
arrival by vehicle, or to the offset, that it comes from, and an arrival to a start of the round
before. So can the ways to the destination.
-/

namespace JourneyPlanner

/-- A way of getting ready after a round uses an arrival by the vehicle of that round. -/
def SearchState.Supports (st : SearchState) (round : Nat) : Approach → Prop
  | .fromStart _ _ => round = 0
  | .fromVehicle a _ => round ≠ 0 ∧ a.time = st.finish round a.location a.level ∧
      a.time.isFeasible = true

namespace Search

open Progress (Scans Leaves)

variable {s : Search} {p q : Progress} {k : Nat} {l : LocationIndex} {v : Nat}

/-- After round `k`, every time can be traced one step back, and later rounds are empty. -/
structure Traced (s : Search) (k : Nat) (p : Progress) : Prop where
  fits : ∃ locations levels, p.Fits locations levels
  tmp_unreached : ∀ l v, p.state.tmp.time l v = .infeasible
  start_unreached : ∀ j l v, k < j → p.state.start j l v = .infeasible
  hit_none : ∀ j, k < j → p.hit? j = none
  starts : ∀ j l v, (p.state.start j l v).isFeasible = true →
    ∃ approach, s.Readies approach l v (p.state.start j l v) ∧ p.state.Supports j approach
  finishes : ∀ j l v, (p.state.finish j l v).isFeasible = true → j ≠ 0 ∧
    ∃ l' u, (p.state.start (j - 1) l' u).isFeasible = true ∧
      s.Brings l' u (p.state.start (j - 1) l' u) ⟨l, v, p.state.finish j l v⟩
  hits : ∀ j h, p.hit? j = some h → j ≠ 0 ∧ s.Arrives h ∧
    h.arrival.time = p.state.finish j h.arrival.location h.arrival.level ∧
      h.arrival.time.isFeasible = true

/-- A round after its routes were scanned, before anyone leaves a vehicle. -/
def afterScans (s : Search) (routes : List RouteIndex) (k : Nat) (p : Progress) : Progress :=
  routes.foldl (s.scanRoute k) (p.mapState (·.rotateMarks))

lemma roundOver_eq (s : Search) (routes : List RouteIndex) (k : Nat) (p : Progress) :
    s.roundOver routes k p =
      (s.transferAll k (s.afterScans routes k p)).mapState (·.finishRound s.dir k) := rfl

section Parts

variable {locations levels : Nat} {routes : List RouteIndex}

lemma fits_afterScans (hp : p.Fits locations levels) (s : Search) (routes : List RouteIndex)
    (k : Nat) : (s.afterScans routes k p).Fits locations levels :=
  (scans_scanRoutes s k routes _).fits_of ⟨hp.state.rotateMarks, hp.hits_size⟩

lemma fits_transferAll (hp : p.Fits locations levels) (s : Search) (k : Nat) :
    (s.transferAll k p).Fits locations levels :=
  (leaves_transferAll s k p).fits_of ⟨hp.state.rotateMarks, hp.hits_size⟩

lemma fits_roundOver (hp : p.Fits locations levels) (s : Search) (routes : List RouteIndex)
    (k : Nat) : (s.roundOver routes k p).Fits locations levels := by
  have hfits := fits_transferAll (fits_afterScans hp s routes k) s k
  exact ⟨hfits.state.finishRound _ _, hfits.hits_size⟩

lemma start_roundOver {j : Nat} (hj : j ≠ k) (s : Search) (routes : List RouteIndex) (p : Progress)
    (l : LocationIndex) (v : Nat) :
    (s.roundOver routes k p).state.start j l v = p.state.start j l v :=
  ((leaves_transferAll s k _).start_of_ne j l v hj).trans
    ((scans_scanRoutes s k routes _).start_eq j l v)

lemma finish_roundOver (hp : p.Fits locations levels) (hk : k < maxRounds) (s : Search)
    (routes : List RouteIndex) (j : Nat) (l : LocationIndex) (v : Nat) :
    (s.roundOver routes k p).state.finish j l v =
      if j = k then (s.afterScans routes k p).state.tmp.time l v else p.state.finish j l v := by
  have hleaves := leaves_transferAll s k (s.afterScans routes k p)
  have hfits := fits_transferAll (fits_afterScans hp s routes k) s k
  rw [roundOver_eq]
  show (SearchState.finishRound _ _ _).finish j l v = _
  rw [SearchState.finish_finishRound _ (by rw [hfits.state.ends_size]; exact hk), hleaves.tmp_eq,
    hleaves.finish_eq]
  split
  · rfl
  · exact (scans_scanRoutes s k routes _).finish_eq j l v

lemma hit?_roundOver {j : Nat} (hj : j ≠ k) : (s.roundOver routes k p).hit? j = p.hit? j :=
  ((leaves_transferAll s k _).hit_of_ne j hj).trans ((scans_scanRoutes s k routes _).hit_eq j)

end Parts

/-- In the middle of round `k`, its starts and its way to the destination come from arrivals by
vehicle that are still working times. -/
structure TracedBy (s : Search) (k : Nat) (tmp : Labels) (q : Progress) : Prop where
  starts : ∀ l v, (q.state.start k l v).isFeasible = true →
    ∃ a w, s.Readies (.fromVehicle a w) l v (q.state.start k l v) ∧
      a.time = tmp.time a.location a.level ∧ a.time.isFeasible = true
  hits : ∀ h, q.hit? k = some h → s.Arrives h ∧
    h.arrival.time = tmp.time h.arrival.location h.arrival.level ∧
      h.arrival.time.isFeasible = true

lemma TracedBy.improveStart {tmp : Labels} {a : Arrival} {w : Option Walk} {t : RelTime}
    (h : s.TracedBy k tmp q) (hready : s.Readies (.fromVehicle a w) l v t)
    (ha : a.time = tmp.time a.location a.level) (hf : a.time.isFeasible = true) :
    s.TracedBy k tmp (s.improveStart k l v t q) := by
  refine ⟨fun l' v' hstart => ?_, fun x hx => h.hits x ?_⟩
  · rcases start_improveStart_cases s k l v t q k l' v' with hold | ⟨_, rfl, rfl, hnew⟩
    · rw [hold] at hstart ⊢
      exact h.starts l' v' hstart
    · rw [hnew]
      exact ⟨a, w, hready, ha, hf⟩
  · rcases improveStart_cases s k l v t q with ⟨heq, _⟩ | ⟨heq, _⟩ <;> rw [heq] at hx <;> exact hx

lemma TracedBy.reachDestination {tmp : Labels} {a : Arrival} {w : Option Walk} {t : RelTime}
    {locations levels : Nat} (hq : q.Fits locations levels) (hk : k < maxRounds)
    (h : s.TracedBy k tmp q) (hstands : s.Stands a w l v t)
    (ha : a.time = tmp.time a.location a.level) (hf : a.time.isFeasible = true) :
    s.TracedBy k tmp (s.reachDestination k a w l v t q) := by
  refine ⟨fun l' v' hstart => ?_, fun x hx => ?_⟩
  · rw [state_reachDestination] at hstart ⊢
    exact h.starts l' v' hstart
  · rcases reachDestination_cases s k a w l v t q with ⟨heq, _⟩ | ⟨egress, hexits, hlt, heq⟩
    · rw [heq] at hx
      exact h.hits x hx
    · rw [heq, hit?_setIfInBounds _ _ _ _ _ (by rw [hq.hits_size]; exact hk), if_pos rfl] at hx
      cases hx
      refine ⟨⟨⟨v, hexits.last_level, hstands⟩, hexits.egress_eq, rfl, ?_⟩, ha, hf⟩
      exact (Direction.isFeasible_iff s.dir).2 (Int.lt_of_lt_of_le hlt (Direction.cost_le _ _))

lemma tracedBy_transferAll {locations levels : Nat} (hfits : p.Fits locations levels)
    (hk : k < maxRounds) (h : s.TracedBy k p.state.tmp p) :
    s.TracedBy k p.state.tmp (s.transferAll k p) := by
  refine transferAll_keeps hfits ?_ ?_ ⟨h.starts, h.hits⟩
  · intro q a w l v t hq ha hf hstands htraced
    exact htraced.reachDestination hq hk hstands ha hf
  · intro q a w l v t _ ha hf hready htraced
    exact htraced.improveStart hready ha hf

lemma Traced.tracesArrivals (hw : s.timetable.WellFormed) (h : s.Traced k p)
    {routes : List RouteIndex} (hroutes : ∀ r ∈ routes, s.query.admits s.timetable r = true) :
    s.TracesArrivals (k + 1) p.state (s.afterScans routes (k + 1) p) := by
  refine tracesArrivals_scanRoutes (p := p.mapState (·.rotateMarks)) hw hroutes ?_
  intro l v hf
  have hunreached := h.tmp_unreached l v
  have hf' : (p.state.tmp.time l v).isFeasible = true := hf
  rw [hunreached] at hf'
  cases hf'

lemma Traced.tracedBy (h : s.Traced k p) (hk : k + 1 < maxRounds) (routes : List RouteIndex) :
    s.TracedBy (k + 1) (s.afterScans routes (k + 1) p).state.tmp
      (s.transferAll (k + 1) (s.afterScans routes (k + 1) p)) := by
  obtain ⟨locations, levels, hfits⟩ := h.fits
  have hscans := scans_scanRoutes s (k + 1) routes (p.mapState (·.rotateMarks))
  apply tracedBy_transferAll (fits_afterScans hfits s routes (k + 1)) hk
  refine ⟨fun l v hf => ?_, fun x hx => ?_⟩
  · unfold afterScans at hf
    rw [hscans.start_eq] at hf
    have hf' : (p.state.start (k + 1) l v).isFeasible = true := hf
    rw [h.start_unreached _ _ _ (Nat.lt_succ_self k)] at hf'
    cases hf'
  · unfold afterScans at hx
    rw [hscans.hit_eq] at hx
    have hx' : p.hit? (k + 1) = some x := hx
    rw [h.hit_none _ (Nat.lt_succ_self k)] at hx'
    cases hx'

/-- A round keeps every time traceable. -/
lemma Traced.roundOver (hw : s.timetable.WellFormed) (h : s.Traced k p) (hk : k + 1 < maxRounds)
    {routes : List RouteIndex} (hroutes : ∀ r ∈ routes, s.query.admits s.timetable r = true) :
    s.Traced (k + 1) (s.roundOver routes (k + 1) p) := by
  obtain ⟨locations, levels, hfits⟩ := h.fits
  have htmp := h.tracesArrivals hw hroutes
  have hby := h.tracedBy hk routes
  have hstart := fun {j} (hj : j ≠ k + 1) => start_roundOver hj s routes p
  have hfinish := finish_roundOver hfits hk s routes
  refine ⟨⟨locations, levels, fits_roundOver hfits s routes (k + 1)⟩,
    fun _ _ => SearchState.tmp_finishRound _, ?_, ?_, ?_, ?_, ?_⟩
  · intro j l v hj
    exact (hstart (by omega) l v).trans (h.start_unreached j l v (by omega))
  · intro j hj
    exact (hit?_roundOver (by omega)).trans (h.hit_none j (by omega))
  · intro j l v hf
    by_cases hj : j = k + 1
    · subst hj
      obtain ⟨a, w, hready, ha, hfa⟩ := hby.starts l v hf
      refine ⟨.fromVehicle a w, hready, Nat.succ_ne_zero k, ?_, hfa⟩
      exact ha.trans ((hfinish (k + 1) _ _).trans (if_pos rfl)).symm
    · rw [hstart hj] at hf ⊢
      obtain ⟨approach, hready, hsupports⟩ := h.starts j l v hf
      refine ⟨approach, hready, ?_⟩
      cases approach with
      | fromStart o w => exact hsupports
      | fromVehicle a w =>
        refine ⟨hsupports.1, ?_, hsupports.2.2⟩
        exact hsupports.2.1.trans ((hfinish j _ _).trans (if_neg hj)).symm
  · intro j l v hf
    rw [hfinish] at hf ⊢
    by_cases hj : j = k + 1
    · subst hj
      rw [if_pos rfl] at hf ⊢
      obtain ⟨l', u, hready, hbrings⟩ := htmp l v hf
      refine ⟨Nat.succ_ne_zero k, l', u, ?_⟩
      rw [hstart (by omega)]
      exact ⟨hready, hbrings⟩
    · rw [if_neg hj] at hf ⊢
      obtain ⟨hj0, l', u, hready, hbrings⟩ := h.finishes j l v hf
      refine ⟨hj0, l', u, ?_⟩
      by_cases hj1 : j - 1 = k + 1
      · rw [hj1, h.start_unreached _ _ _ (Nat.lt_succ_self k)] at hready
        cases hready
      · rw [hstart hj1]
        exact ⟨hready, hbrings⟩
  · intro j x hx
    rw [hfinish]
    by_cases hj : j = k + 1
    · subst hj
      rw [if_pos rfl]
      exact ⟨Nat.succ_ne_zero k, hby.hits x hx⟩
    · rw [if_neg hj]
      rw [hit?_roundOver hj] at hx
      exact h.hits j x hx

lemma admits_of_mem_routesToScan {st : SearchState} {r : RouteIndex}
    (h : r ∈ s.routesToScan st) : s.query.admits s.timetable r = true :=
  (List.mem_filter.1 h).2

lemma rounds_keeps {M : Nat → Progress → Prop}
    (hround : ∀ k p, k + 1 < maxRounds → M k p → M (k + 1) (s.round (k + 1) p)) (remaining : Nat)
    (h : M k p) (hk : k + remaining < maxRounds) :
    ∃ j ≤ k + remaining, M j (s.rounds remaining (k + 1) p).1 := by
  induction remaining generalizing k p with
  | zero => exact ⟨k, Nat.le_refl k, h⟩
  | succ remaining ih =>
    have hnext := hround k p (by omega) h
    unfold rounds
    dsimp only
    split
    · obtain ⟨j, hj, hlast⟩ := ih hnext (by omega)
      exact ⟨j, by omega, hlast⟩
    · exact ⟨k + 1, by omega, hnext⟩

/-- What holds after round 0, and is kept by each round, holds after the search. -/
lemma explore_reaches {M : Nat → Progress → Prop} (hmax : s.query.maxTransfers ≤ maxTransfers)
    (hround : ∀ k p, k + 1 < maxRounds → M k p → M (k + 1) (s.round (k + 1) p)) {st : SearchState}
    (h : M 0 (s.seed (s.prepare st))) : ∃ k ≤ s.query.maxTransfers + 1, M k (s.explore st).1 := by
  have hk : 0 + (s.query.maxTransfers + 1) < maxRounds := by
    unfold maxRounds
    unfold maxTransfers at *
    omega
  obtain ⟨k, hle, hlast⟩ := rounds_keeps hround (s.query.maxTransfers + 1) h hk
  exact ⟨k, by omega, hlast⟩

lemma Traced.round (hw : s.timetable.WellFormed) (hk : k + 1 < maxRounds) (h : s.Traced k p) :
    s.Traced (k + 1) (s.round (k + 1) p) :=
  h.roundOver hw hk fun _ => admits_of_mem_routesToScan

lemma prepare_eq (s : Search) (st : SearchState) : s.prepare st =
    .start { st.reset with exits := (s.prepare st).state.exits } := by
  have hfold : ∀ (offsets : List Offset) (st : SearchState),
      offsets.foldl (fun st o => st.addExit o.location) st =
        { st with exits := (offsets.foldl (fun st o => st.addExit o.location) st).exits } := by
    intro offsets
    induction offsets with
    | nil => exact fun _ => rfl
    | cons o rest ih =>
      intro st
      rw [List.foldl_cons]
      conv => lhs; rw [ih]
      rfl
  unfold prepare
  conv => lhs; rw [hfold]
  rfl

lemma fits_prepare (s : Search) (st : SearchState) :
    (s.prepare st).Fits st.nbOfLocations st.levels := by
  have hreset := SearchState.fits_sized st.levels st.nbOfLocations st.nbOfRoutes
    st.nbOfRealtimeTransports
  rw [prepare_eq]
  exact ⟨{ hreset with }, Array.size_replicate⟩

lemma time_replicate_unreached (n locations levels j : Nat) (l : LocationIndex) (v : Nat) :
    (((Array.replicate n (Labels.unreached locations levels))[j]?).map (·.time l v)).getD
      .infeasible = .infeasible := by
  rw [Array.getElem?_replicate]
  split
  · exact Labels.time_unreached _ _ _ _
  · rfl

lemma start_prepare (s : Search) (st : SearchState) (j : Nat) (l : LocationIndex) (v : Nat) :
    (s.prepare st).state.start j l v = .infeasible := by
  rw [prepare_eq]
  exact time_replicate_unreached _ _ _ _ _ _

lemma finish_prepare (s : Search) (st : SearchState) (j : Nat) (l : LocationIndex) (v : Nat) :
    (s.prepare st).state.finish j l v = .infeasible := by
  rw [prepare_eq]
  exact time_replicate_unreached _ _ _ _ _ _

lemma tmp_prepare (s : Search) (st : SearchState) (l : LocationIndex) (v : Nat) :
    (s.prepare st).state.tmp.time l v = .infeasible := by
  have hreset : st.reset.tmp.time l v = .infeasible := Labels.time_unreached _ _ _ _
  rw [prepare_eq]
  exact hreset

lemma hit?_prepare (s : Search) (st : SearchState) (j : Nat) : (s.prepare st).hit? j = none := by
  have hstart : ∀ st, (Progress.start st).hit? j = none := by
    intro st
    unfold Progress.hit? Progress.start
    dsimp only
    rw [Array.getElem?_replicate]
    split <;> rfl
  rw [prepare_eq]
  exact hstart _

lemma leaves_seeds (s : Search) (p : Progress) :
    p.Leaves s.dir 0 (s.query.start.foldl s.seedOffset p) :=
  foldl_leaves (leaves_seedOffset s) _ _

lemma hit?_seeds (s : Search) (p : Progress) (j : Nat) :
    (s.query.start.foldl s.seedOffset p).hit? j = p.hit? j := by
  refine seeds_keeps (s := s) (M := fun q => q.hit? j = p.hit? j) ?_ rfl
  intro q o w l v t _ hq
  rcases improveStart_cases s 0 l v t q with ⟨heq, _⟩ | ⟨heq, _⟩ <;> rw [heq] <;> exact hq

lemma fits_seed (s : Search) (st : SearchState) :
    (s.seed (s.prepare st)).Fits st.nbOfLocations st.levels := by
  have hfits := (leaves_seeds s (s.prepare st)).fits_of (fits_prepare s st)
  exact ⟨hfits.state.finishRound _ _, hfits.hits_size⟩

lemma finish_seed (s : Search) (st : SearchState) (j : Nat) (l : LocationIndex) (v : Nat) :
    (s.seed (s.prepare st)).state.finish j l v = .infeasible := by
  have hleaves := leaves_seeds s (s.prepare st)
  have hfits := hleaves.fits_of (fits_prepare s st)
  show (SearchState.finishRound _ _ _).finish j l v = _
  rw [SearchState.finish_finishRound _ (by rw [hfits.state.ends_size]; decide), hleaves.tmp_eq,
    hleaves.finish_eq, tmp_prepare, finish_prepare]
  split <;> rfl

/-- Every start of round 0 is that of a way of getting ready from an offset. -/
lemma traced_seed (s : Search) (st : SearchState) : s.Traced 0 (s.seed (s.prepare st)) := by
  have hleaves := leaves_seeds s (s.prepare st)
  have hstarts : ∀ l v,
      ((s.query.start.foldl s.seedOffset (s.prepare st)).state.start 0 l v).isFeasible = true →
        ∃ o w, s.Readies (.fromStart o w) l v
          ((s.query.start.foldl s.seedOffset (s.prepare st)).state.start 0 l v) := by
    refine seeds_keeps (s := s) (M := fun q => ∀ l v, (q.state.start 0 l v).isFeasible = true →
      ∃ o w, s.Readies (.fromStart o w) l v (q.state.start 0 l v)) ?_ ?_
    · intro q o w l v t hready hq l' v' hf
      rcases start_improveStart_cases s 0 l v t q 0 l' v' with hold | ⟨_, rfl, rfl, hnew⟩
      · rw [hold] at hf ⊢
        exact hq l' v' hf
      · rw [hnew]
        exact ⟨o, w, hready⟩
    · intro l v hf
      rw [start_prepare] at hf
      cases hf
  have hhit := hit?_seeds s (s.prepare st)
  refine ⟨⟨_, _, fits_seed s st⟩, fun _ _ => SearchState.tmp_finishRound _, ?_, ?_, ?_, ?_, ?_⟩
  · intro j l v hj
    exact (hleaves.start_of_ne j l v (by omega)).trans (start_prepare s st j l v)
  · intro j _
    exact (hhit j).trans (hit?_prepare s st j)
  · intro j l v hf
    change ((s.query.start.foldl s.seedOffset (s.prepare st)).state.start j l v).isFeasible = true
      at hf
    by_cases hj : j = 0
    · subst hj
      obtain ⟨o, w, hready⟩ := hstarts l v hf
      exact ⟨.fromStart o w, hready, rfl⟩
    · rw [hleaves.start_of_ne j l v hj, start_prepare] at hf
      cases hf
  · intro j l v hf
    rw [finish_seed] at hf
    cases hf
  · intro j x hx
    have hx' := (hhit j).symm.trans hx
    rw [hit?_prepare] at hx'
    cases hx'

/-- After a search, every time that it has written can be traced back. -/
theorem traced_explore (hw : s.timetable.WellFormed)
    (htransfers : s.query.maxTransfers ≤ maxTransfers) (st : SearchState) :
    ∃ k ≤ s.query.maxTransfers + 1, s.Traced k (s.explore st).1 :=
  explore_reaches htransfers (fun _ _ hk h => h.round hw hk) (traced_seed s st)

end Search

end JourneyPlanner
