import JourneyPlanner.Proofs.Search.InRange.Itinerary
import JourneyPlanner.Proofs.Search.InRange.Scan
import JourneyPlanner.Search.Checked.Planner

/-!
# Runs in range

An accepted query never looks beyond a table. Each part of a search answers what it answers when its
look-ups are checked, and leaves the tables as large as they were, so that this holds round after
round and search after search.
-/

namespace JourneyPlanner

open Checked

namespace Search

variable {s : Search} {p : Progress} {k : Nat} {st : SearchState}

lemma prepareM_eq_ok (hg : s.Grounded) (hst : st.Shaped s.timetable.nbOfLocations s.levels) :
    s.prepareM st = .ok (s.prepare st) ∧ s.Sized (s.prepare st) := by
  have hreset : st.reset.Shaped s.timetable.nbOfLocations s.levels := by
    rw [← hst.fits.locations_eq, ← hst.fits.levels_eq]
    exact SearchState.shaped_sized _ _ _ _
  obtain ⟨hexits, hshaped⟩ := foldlM_eq_ok (l := s.query.destination)
    (P := fun st : SearchState => st.Shaped s.timetable.nbOfLocations s.levels)
    (fun st o ho hst => ⟨SearchState.addExitM_eq_ok hst (hg.destination_known o ho),
      hst.addExit o.location⟩) hreset
  rw [prepareM, hst.clear_eq_reset, hexits]
  exact ⟨rfl, hshaped, Array.size_replicate⟩

lemma roundM_eq_ok (hg : s.Grounded) (hk : k ≠ 0 ∧ k < maxRounds) (hp : s.Sized p) :
    s.roundM k p = .ok (s.round k p) ∧ s.Sized (s.round k p) := by
  obtain ⟨hroutes, hlt⟩ := routesToScanM_eq_ok hg hp.state
  obtain ⟨hscans, hscanned⟩ := foldlM_eq_ok (P := s.Sized) (l := s.routesToScan p.state)
    (fun q r hr hq => scanRouteM_eq_ok hg hk (hlt r hr) hq) hp.rotateMarks
  obtain ⟨htransfers, hleft⟩ := transferAllM_eq_ok hg hscanned hk.2
  rw [roundM, hroutes, ok_bind, hscans, ok_bind, htransfers, ok_bind,
    SearchState.finishRoundM_eq_ok hleft.state hk.2, ok_bind,
    Progress.mapState_const _ (·.finishRound s.dir k)]
  exact ⟨rfl, hleft.finishRound s.dir k⟩

lemma roundsM_eq_ok (hg : s.Grounded) (remaining : Nat) (hk : k ≠ 0 ∧ k + remaining ≤ maxRounds)
    (hp : s.Sized p) : s.roundsM remaining k p = .ok (s.rounds remaining k p) ∧
      s.Sized (s.rounds remaining k p).1 := by
  -- the rounds behind and those that remain are never more than the tables have
  induction remaining generalizing k p with
  | zero => exact ⟨rfl, hp⟩
  | succ remaining ih =>
    have hlt : k ≠ 0 ∧ k < maxRounds := by omega
    obtain ⟨hround, hsized⟩ := roundM_eq_ok hg hlt hp
    rw [roundsM, hround, ok_bind, rounds]
    split
    · exact ih (by omega) hsized
    · exact ⟨rfl, hsized⟩

lemma exploreM_eq_ok (hg : s.Grounded) (hst : st.Shaped s.timetable.nbOfLocations s.levels) :
    s.exploreM st = .ok (s.explore st) ∧ s.Sized (s.explore st).1 := by
  obtain ⟨hprepare, hprepared⟩ := prepareM_eq_ok hg hst
  obtain ⟨hseed, hseeded⟩ := seedM_eq_ok hg hprepared
  have hmax := hg.maxTransfers_le
  rw [exploreM, hprepare, ok_bind, hseed, ok_bind]
  refine roundsM_eq_ok hg _ ⟨Nat.one_ne_zero, ?_⟩ hseeded
  unfold maxRounds
  omega

lemma journeyInM?_eq_ok (hg : s.Grounded) (hanchored : s.Anchored) (hp : s.Sized p) {last : Nat}
    (htraced : s.Traced last p) (hk : k < maxRounds) :
    s.journeyInM? p k = .ok ((p.hit? k).bind fun h =>
      (s.journeyOf? p.state k h).filter (s.query.allowsStays s.timetable)) := by
  rw [journeyInM?, Progress.hitM_eq_ok hp.hits_size hk, ok_bind]
  cases hhit : p.hit? k with
  | none => rfl
  | some h =>
    obtain ⟨hpos, harrives, htime, hf⟩ := htraced.hits k h hhit
    obtain ⟨before, hleads, htimed, hjourney⟩ :=
      htraced.exists_journeyOf? hg.wellFormed hanchored hhit
    -- an arrival with a time in the tables has a place in them
    rw [htime] at hf
    obtain ⟨hl, hv⟩ := hp.state.lt_of_finish hf
    dsimp only [Option.bind_some]
    rw [journeyOfM?_eq_ok hg hp.state ⟨hpos, hk.le⟩ ⟨hl, hv⟩, ok_bind, hjourney]
    dsimp only
    rw [Query.allowsStaysM_eq_ok fun leg hleg =>
      passedM_eq_ok_of_mem_journey hg harrives hleads htimed hleg, ok_bind, Option.filter_some]
    rfl

lemma journeysM_eq_ok (hg : s.Grounded) (hanchored : s.Anchored) (hp : s.Sized p) {last : Nat}
    (htraced : s.Traced last p) : s.journeysM p = .ok (s.journeys p) := by
  have hmax := hg.maxTransfers_le
  refine filterMapM_eq_ok fun k hk => journeyInM?_eq_ok hg hanchored hp htraced ?_
  have hrange := List.mem_range'_1.1 hk
  unfold maxRounds
  omega

end Search

namespace Query

variable {q : Query} {tt : Timetable} {r : RouteIndex} {l : LocationIndex} {position : Nat}

lemma accessesM_eq_ok (hg : q.Grounded tt) : q.accessesM tt = .ok (q.accesses tt) ∧
    ∀ access ∈ q.accesses tt, access.1.val < tt.nbOfLocations := by
  refine ⟨flatMapM_eq_ok fun o ho => ?_, fun access haccess => ?_⟩
  · rw [Timetable.footpathsM_eq_ok hg.filled (hg.start_known o ho)]
    rfl
  · obtain ⟨o, ho, hmem⟩ := List.mem_flatMap.1 haccess
    rcases List.mem_cons.1 hmem with rfl | hmem
    · exact hg.start_known o ho
    · obtain ⟨f, hf, rfl⟩ := List.mem_map.1 hmem
      exact hg.wellFormed.footpath_known hf

lemma boardPositionsM_eq_ok (hr : r.val < tt.nbOfRoutes) (l : LocationIndex) :
    q.boardPositionsM tt r l = .ok (q.boardPositions tt r l) ∧
      ∀ position ∈ q.boardPositions tt r l,
        (position, q.direction.boardEvent) ∈ StopEvent.all (tt.stops r).size := by
  rw [boardPositionsM, Timetable.stopsM_eq_ok hr, ok_bind]
  refine ⟨filterM_eq_ok fun position hposition => ?_, fun position hposition => ?_⟩
  · have hget := Array.getElem?_eq_getElem (List.mem_range.1 hposition)
    rw [item_eq_ok hget, hget]
    rfl
  · obtain ⟨hrange, hboards⟩ := List.mem_filter.1 hposition
    have hlt := List.mem_range.1 hrange
    have hside := (Bool.and_eq_true _ _ ▸ hboards).2
    rw [StopEvent.mem_all_iff]
    cases hdir : q.direction <;> rw [hdir] at hside <;>
      simp only [Direction.boardEvent, decide_eq_true_eq] at hside ⊢ <;> grind

lemma boardInstantsOfM_eq_ok (hg : q.Grounded tt) {transport : TransportIndex}
    (ht : (tt.transportsOf r).contains transport = true)
    (hboard : (position, q.direction.boardEvent) ∈ StopEvent.all (tt.stops r).size) :
    q.boardInstantsOfM tt r position transport = .ok ((tt.daysOf transport).map fun day =>
      tt.calendar.instantOf day (tt.eventTime transport position q.direction.boardEvent)) := by
  obtain ⟨days, hdays, hdays?⟩ := Timetable.exists_daysOf hg.filled ht
  rw [boardInstantsOfM, Timetable.eventTimeM_eq_ok hg.wellFormed hg.filled ht hboard, ok_bind,
    hdays, Timetable.daysOf, hdays?]
  rfl

lemma boardInstantsM_eq_ok (hg : q.Grounded tt) (hr : r.val < tt.nbOfRoutes) (l : LocationIndex) :
    q.boardInstantsM tt l r = .ok (q.boardInstants tt l r) := by
  obtain ⟨hpositions, hboards⟩ := boardPositionsM_eq_ok (q := q) hr l
  rw [boardInstantsM, hpositions, ok_bind, Timetable.transportsOfM_eq_ok hr, ok_bind]
  exact flatMapM_eq_ok fun position hposition => flatMapM_eq_ok fun transport htransport =>
    boardInstantsOfM_eq_ok hg (IndexRange.mem_toList.1 htransport) (hboards position hposition)

lemma startInstantsM_eq_ok (hg : q.Grounded tt) (first last : Instant) :
    q.startInstantsM tt first last = .ok (q.startInstants tt first last) := by
  obtain ⟨haccesses, hknown⟩ := accessesM_eq_ok hg
  have hinstants : ∀ access ∈ q.accesses tt, q.instantsAtM tt access =
      .ok (((tt.routesAt access.1).filter (q.admits tt)).flatMap fun r =>
        (q.boardInstants tt access.1 r).map fun t =>
          q.direction.opposite.addInstant t access.2) := by
    intro access haccess
    have hlt : ∀ r ∈ tt.routesAt access.1, r.val < tt.nbOfRoutes :=
      fun _ => hg.wellFormed.listed_lt
    rw [instantsAtM, Timetable.routesAtM_eq_ok hg.filled (hknown access haccess), ok_bind,
      filterM_eq_ok fun r hr => Search.admitsM_eq_ok (hlt r hr), ok_bind]
    refine flatMapM_eq_ok fun r hr => ?_
    rw [boardInstantsM_eq_ok hg (hlt r (List.mem_filter.1 hr).1)]
    rfl
  rw [startInstantsM, haccesses, ok_bind, flatMapM_eq_ok hinstants]
  rfl

end Query

namespace Planner

/-- The tables of a planner are as large as the searches of its query need them. -/
structure Ready (p : Planner) : Prop where
  grounded : p.query.Grounded p.timetable
  state : p.state.Shaped p.timetable.nbOfLocations p.query.levels

variable {p : Planner}

lemma Ready.searchFromM_eq_ok (h : p.Ready) (t : Instant) :
    p.searchFromM t = .ok (p.searchFrom t) ∧ (p.searchFrom t).2.Ready := by
  unfold searchFromM
  cases hat : Search.at? p.timetable p.query t with
  | none =>
    rw [searchFrom_of_none hat]
    exact ⟨rfl, h⟩
  | some s =>
    obtain ⟨htimetable, hquery, hanchored, _⟩ := Search.at?_sound hat
    have hg : s.Grounded := by
      unfold Search.Grounded
      rw [hquery, htimetable]
      exact h.grounded
    have hst : p.state.Shaped s.timetable.nbOfLocations s.levels := by
      unfold Search.levels
      rw [hquery, htimetable]
      exact h.state
    obtain ⟨hexplore, hsized⟩ := Search.exploreM_eq_ok hg hst
    obtain ⟨_, _, htraced⟩ := Search.traced_explore hg.wellFormed hg.maxTransfers_le p.state
    have hstate := hsized.state
    unfold Search.levels at hstate
    rw [hquery, htimetable] at hstate
    rw [searchFrom_of_some hat]
    dsimp only
    rw [hexplore, ok_bind, Search.journeysM_eq_ok hg hanchored hsized htraced]
    refine ⟨rfl, h.grounded, ?_⟩
    dsimp only
    exact hstate

lemma Ready.searchAllM_eq_ok (h : p.Ready) (ts : List Instant) :
    p.searchAllM ts = .ok (p.searchAll ts) ∧ (p.searchAll ts).2.Ready := by
  induction ts generalizing p with
  | nil => exact ⟨rfl, h⟩
  | cons t rest ih =>
    obtain ⟨hfirst, hready⟩ := h.searchFromM_eq_ok t
    obtain ⟨hrest, hlast⟩ := ih hready
    rw [searchAllM, hfirst, ok_bind, searchAll_cons]
    dsimp only
    rw [hrest]
    exact ⟨rfl, hlast⟩

lemma Ready.runM_eq_ok (h : p.Ready) : p.runM = .ok p.run := by
  unfold runM run
  cases p.query.startTime with
  | instant t =>
    dsimp only
    rw [(h.searchFromM_eq_ok t).1]
    rfl
  | interval first last =>
    dsimp only
    rw [Query.startInstantsM_eq_ok h.grounded, ok_bind, (h.searchAllM_eq_ok _).1]
    rfl

/-- A run keeps the shape of the tables. -/
lemma shaped_run {locations levels : Nat} (h : p.state.Shaped locations levels) :
    p.run.2.state.Shaped locations levels := by
  refine run_retains (M := fun st => st.Shaped locations levels) (fun s st hst => ?_) h
  have hshaped := Search.shaped_explore s st
  rwa [hst.fits.locations_eq, hst.fits.levels_eq] at hshaped

/-- A query that is accepted in a state with tables as large as it says finds them large enough. -/
lemma ready_of_accept {tt : Timetable} (hbuilt : tt.IsBuilt) {st : SearchState}
    (hlevels : 0 < st.levels) (hst : st.Shaped st.nbOfLocations st.levels) {q : Query}
    (h : accept tt st q = .ok p) : p.Ready := by
  obtain ⟨rfl, hfits, hsized⟩ := accept_eq_ok_iff.1 h
  have hlevel : st.levels = q.levels := by
    have hcount := hfits.vias_eq
    unfold SearchState.nbOfVias at hcount
    unfold Query.levels
    omega
  rw [nbOfLocations_eq_of_isSizedFor hsized, hlevel] at hst
  exact ⟨hfits.grounded hbuilt, hst⟩

end Planner

lemma solve_of_refused {tt : Timetable} {st : SearchState} {q : Query} {e : BadRequest}
    (h : Planner.accept tt st q = .error e) : solve tt st q = (.error e, st) := by
  unfold solve
  rw [h]

/-- Whatever query a built timetable accepts, in a state with tables as large as it says, every
look-up of its run is in range, and the tables are as large afterwards. A query that is refused
leaves the state as it is. -/
theorem runs_in_range {tt : Timetable} (hbuilt : tt.IsBuilt) {st : SearchState}
    (hlevels : 0 < st.levels) (hst : st.Shaped st.nbOfLocations st.levels) (q : Query) :
    (∀ p, Planner.accept tt st q = .ok p →
      p.runM = .ok p.run ∧ p.run.2.state.Shaped st.nbOfLocations st.levels) ∧
      ∀ e, Planner.accept tt st q = .error e → solve tt st q = (.error e, st) := by
  refine ⟨fun p haccept => ?_, fun e hrefused => solve_of_refused hrefused⟩
  have hready := Planner.ready_of_accept hbuilt hlevels hst haccept
  obtain ⟨rfl, _⟩ := Planner.accept_eq_ok_iff.1 haccept
  exact ⟨hready.runM_eq_ok, Planner.shaped_run hst⟩

namespace TwoVehicles

/-- More transfers than there are rounds for. -/
def restless : Query := { query with maxTransfers := 8 }

/-- The sample query is answered within the tables of a fresh state, and one that asks for too many
transfers leaves them alone. -/
theorem runs_in_range_planner :
    ((planner 540).runM = .ok (planner 540).run ∧ (planner 540).run.2.state.Shaped 3 1) ∧
      solve (timetable 540) state restless = (.error (.tooManyTransfers 8), state) := by
  have hshaped : state.Shaped state.nbOfLocations state.levels := SearchState.shaped_sized 1 3 1 0
  have hrange := runs_in_range (isBuilt (.inl rfl)) (by decide) hshaped
  exact ⟨(hrange query).1 _ (accept_eq (.inl rfl)), (hrange restless).2 _ (by cbv)⟩

/-- A state that was not sized has no room for the places of a destination. -/
example : (⟨timetable 540, query, .new 1, 0⟩ : Planner).runM = .error (.place 1 0) := by cbv

end TwoVehicles

end JourneyPlanner
