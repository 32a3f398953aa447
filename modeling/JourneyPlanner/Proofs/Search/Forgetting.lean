import JourneyPlanner.Proofs.Search.Asking
import JourneyPlanner.Proofs.Search.Retelling

/-!
# Searches forget

A search begins by overwriting what the search before it has left: its answer depends on the sizes
of the state in which it is made, and on nothing that the state holds. The tables keep their shape
from one search to the next, so that nothing is left when they are overwritten in place.
-/

namespace JourneyPlanner

namespace SearchState

variable {st st' : SearchState} {locations levels k : Nat}

/-- The sizes of a state on which its searches depend. -/
def sizes (st : SearchState) : Nat × Nat × Nat := (st.levels, st.nbOfLocations, st.nbOfRoutes)

lemma reset_eq_of_sizes_eq (h : st.sizes = st'.sizes) :
    st.reset = (st'.forRealtime st.nbOfRealtimeTransports).reset := by
  obtain ⟨hlevels, hlocations, hroutes⟩ : st.levels = st'.levels ∧
      st.nbOfLocations = st'.nbOfLocations ∧ st.nbOfRoutes = st'.nbOfRoutes := by
    simpa only [SearchState.sizes, Prod.mk.injEq] using h
  unfold reset forRealtime
  rw [hlevels, hlocations, hroutes]

/-- Every table of a state, the ends of its rounds included, is as large as it is said to be. -/
structure Shaped (st : SearchState) (locations levels : Nat) : Prop where
  fits : st.Fits locations levels
  ends : ∀ {k : Nat} {g : Labels}, st.ends[k]? = some g → g.Fits locations levels
  exits_capacity : st.exits.capacity = locations

lemma shaped_sized (levels locations routes realtimeTransports : Nat) :
    (sized levels locations routes realtimeTransports).Shaped locations levels where
  fits := fits_sized _ _ _ _
  ends := (fits_sized levels locations routes realtimeTransports).starts
  exits_capacity := BitSet.capacity_empty _

lemma Shaped.addExit (h : st.Shaped locations levels) (l : LocationIndex) :
    (st.addExit l).Shaped locations levels where
  fits := { h.fits with }
  ends := h.ends
  exits_capacity := (BitSet.capacity_insert _ _).trans h.exits_capacity

lemma Shaped.finishRound (h : st.Shaped locations levels) (dir : Direction) (k : Nat) :
    (st.finishRound dir k).Shaped locations levels where
  fits := h.fits.finishRound dir k
  ends := by
    intro j g hg
    unfold SearchState.finishRound at hg
    rw [Array.getElem?_setIfInBounds] at hg
    split at hg
    · split at hg
      · cases hg
        exact h.fits.tmp
      · cases hg
    · exact h.ends hg
  exits_capacity := h.exits_capacity

lemma fill_eq_unreached {g : Labels} (h : g.Fits locations levels) :
    g.fill .infeasible = Labels.unreached locations levels := by
  unfold Grid.fill Labels.unreached
  rw [h.rows_eq, h.columns_eq]

lemma map_fill_eq {tables : Array Labels} (hsize : tables.size = maxRounds)
    (h : ∀ {k : Nat} {g : Labels}, tables[k]? = some g → g.Fits locations levels) :
    tables.map (fun g => g.fill .infeasible) =
      Array.replicate maxRounds (Labels.unreached locations levels) := by
  apply Array.ext
  · rw [Array.size_map, Array.size_replicate, hsize]
  · intro k hk _
    rw [Array.size_map] at hk
    rw [Array.getElem_map, Array.getElem_replicate]
    exact fill_eq_unreached (h (Array.getElem?_eq_getElem hk))

/-- Nothing is left in tables that keep their shape when they are overwritten in place. -/
lemma Shaped.clear_eq_reset (h : st.Shaped locations levels) : st.clear = st.reset := by
  have hmarks : st.marks.clear = .empty locations := by
    unfold BitSet.clear
    rw [h.fits.marks_capacity]
  have hexits : st.exits.clear = .empty locations := by
    unfold BitSet.clear
    rw [h.exits_capacity]
  unfold clear reset sized
  dsimp only
  rw [h.fits.locations_eq, h.fits.levels_eq, fill_eq_unreached h.fits.tmp,
    fill_eq_unreached h.fits.best, fill_eq_unreached h.fits.bestStart,
    map_fill_eq h.fits.starts_size h.fits.starts, map_fill_eq h.fits.ends_size h.ends, hmarks, hexits]

end SearchState

namespace Progress

/-- Every table of a search, that of the ways to the destination included, is as large as it is said
to be. -/
structure Shaped (p : Progress) (locations levels : Nat) : Prop where
  state : p.state.Shaped locations levels
  hits_size : p.hits.size = maxRounds

variable {p q : Progress} {dir : Direction} {locations levels k : Nat}

lemma Shaped.fits (h : p.Shaped locations levels) : p.Fits locations levels :=
  ⟨h.state.fits, h.hits_size⟩

lemma Shaped.scans (h : p.Shaped locations levels) (hscans : Scans dir p q) :
    q.Shaped locations levels := by
  have hfits := hscans.fits_of h.fits
  refine ⟨⟨hfits.state, ?_, ?_⟩, hfits.hits_size⟩
  · rw [hscans.same]
    exact h.state.ends
  · rw [hscans.same]
    exact h.state.exits_capacity

lemma Shaped.leaves (h : p.Shaped locations levels) (hleaves : Leaves dir k p q) :
    q.Shaped locations levels := by
  have hfits := hleaves.fits_of h.fits
  refine ⟨⟨hfits.state, ?_, ?_⟩, hfits.hits_size⟩
  · rw [hleaves.same]
    exact h.state.ends
  · rw [hleaves.same]
    exact h.state.exits_capacity

lemma Shaped.rotateMarks (h : p.Shaped locations levels) :
    (p.mapState (·.rotateMarks)).Shaped locations levels :=
  ⟨⟨h.state.fits.rotateMarks, h.state.ends, h.state.exits_capacity⟩, h.hits_size⟩

lemma Shaped.finishRound (h : p.Shaped locations levels) (dir : Direction) (k : Nat) :
    (p.mapState (·.finishRound dir k)).Shaped locations levels :=
  ⟨h.state.finishRound dir k, h.hits_size⟩

end Progress

namespace Search

variable {s : Search} {p : Progress} {n k : Nat}

lemma explore_forRealtime (s : Search) (n : Nat) (st : SearchState) :
    s.explore (st.forRealtime n) = ((s.explore st).1.forRealtime n, (s.explore st).2) := by
  rw [← Progress.retell_same]
  exact (retells_same s).explore n rfl rfl

lemma journeys_forRealtime (s : Search) (n : Nat) (p : Progress) :
    s.journeys (p.forRealtime n) = s.journeys p := by
  have hagree : ∀ k, SearchState.AgreeBefore k (p.forRealtime n).state p.state :=
    fun _ _ _ _ _ => rfl
  have hjourney : ∀ k h, s.journeyOf? (p.forRealtime n).state k h = s.journeyOf? p.state k h :=
    fun k h => journeyOf?_congr (hagree k) h
  unfold journeys
  simp only [hjourney]
  rfl

/-- A search in a state depends on its sizes only. -/
lemma explore_congr {st st' : SearchState} (h : st.reset = st'.reset) :
    s.explore st = s.explore st' := by
  unfold explore prepare
  rw [h]

/-- Searches in states of the same sizes find the same journeys. -/
lemma journeys_explore_congr {st st' : SearchState} (h : st.sizes = st'.sizes) :
    s.journeys (s.explore st).1 = s.journeys (s.explore st').1 := by
  rw [explore_congr (SearchState.reset_eq_of_sizes_eq h), explore_forRealtime, journeys_forRealtime]

open Progress (Scans Leaves)

section Keeps

variable {M : Progress → Prop} (hscans : ∀ p q, Scans s.dir p q → M p → M q)
  (hleaves : ∀ k p q, Leaves s.dir k p q → M p → M q)
  (hrotate : ∀ p, M p → M (p.mapState (·.rotateMarks)))
  (hfinish : ∀ k p, M p → M (p.mapState (·.finishRound s.dir k)))
include hscans hleaves hrotate hfinish

/-- What the parts of a round keep is kept by the round. -/
lemma roundOver_keeps (routes : List RouteIndex) (k : Nat) (h : M p) :
    M (s.roundOver routes k p) := by
  have hscanned := hscans _ _ (scans_scanRoutes s k routes _) (hrotate p h)
  exact hfinish k _ (hleaves k _ _ (leaves_transferAll s k _) (hrotate _ hscanned))

lemma explore_keeps {st : SearchState} (h : M (s.prepare st)) : M (s.explore st).1 := by
  have hround : ∀ k p, M p → M (s.round k p) :=
    fun k p hp => roundOver_keeps hscans hleaves hrotate hfinish (s.routesToScan p.state) k hp
  have hrounds : ∀ remaining k p, M p → M (s.rounds remaining k p).1 := by
    intro remaining
    induction remaining with
    | zero => exact fun _ _ hp => hp
    | succ remaining ih =>
      intro k p hp
      unfold rounds
      dsimp only
      split
      · exact ih _ _ (hround k p hp)
      · exact hround k p hp
  exact hrounds _ _ _ (hfinish 0 _ (hleaves 0 _ _ (leaves_seeds s _) h))

end Keeps

lemma sizes_explore (s : Search) (st : SearchState) : (s.explore st).1.state.sizes = st.sizes := by
  refine explore_keeps (M := fun p => p.state.sizes = st.sizes) ?_ ?_ ?_ ?_ ?_
  · intro p q hscans hp
    rw [hscans.same]
    exact hp
  · intro k p q hleaves hp
    rw [hleaves.same]
    exact hp
  · exact fun p hp => hp
  · exact fun k p hp => hp
  · rw [prepare_eq]
    rfl

open Progress (Shaped)

lemma shaped_prepare (s : Search) (st : SearchState) :
    (s.prepare st).Shaped st.nbOfLocations st.levels := by
  refine ⟨List.foldlRecOn
    (motive := fun x : SearchState => x.Shaped st.nbOfLocations st.levels) _ _ ?_ ?_,
    Array.size_replicate⟩
  · exact SearchState.shaped_sized _ _ _ _
  · exact fun _ hst o _ => hst.addExit o.location

lemma shaped_seed (s : Search) (st : SearchState) :
    (s.seed (s.prepare st)).Shaped st.nbOfLocations st.levels :=
  ((shaped_prepare s st).leaves (leaves_seeds s _)).finishRound s.dir 0

lemma shaped_roundOver {locations levels : Nat} (h : p.Shaped locations levels) (s : Search)
    (routes : List RouteIndex) (k : Nat) : (s.roundOver routes k p).Shaped locations levels :=
  roundOver_keeps (M := fun p => p.Shaped locations levels) (fun _ _ hscans hp => hp.scans hscans)
    (fun _ _ _ hleaves hp => hp.leaves hleaves) (fun _ hp => hp.rotateMarks)
    (fun k _ hp => hp.finishRound s.dir k) routes k h

lemma shaped_explore (s : Search) (st : SearchState) :
    (s.explore st).1.state.Shaped st.nbOfLocations st.levels :=
  (explore_keeps (M := fun p => p.Shaped st.nbOfLocations st.levels)
    (fun _ _ hscans hp => hp.scans hscans) (fun _ _ _ hleaves hp => hp.leaves hleaves)
    (fun _ hp => hp.rotateMarks) (fun k _ hp => hp.finishRound s.dir k)
    (shaped_prepare s st)).state

end Search

namespace Planner

variable {p p' : Planner}

lemma searchFrom_of_none {t : Instant} (h : Search.at? p.timetable p.query t = none) :
    p.searchFrom t = ([], p) := by
  unfold searchFrom
  rw [h]

lemma searchFrom_of_some {t : Instant} {s : Search}
    (h : Search.at? p.timetable p.query t = some s) :
    p.searchFrom t = (s.journeys (s.explore p.state).1,
      { p with state := (s.explore p.state).1.state, roundsRun := (s.explore p.state).2 }) := by
  unfold searchFrom
  rw [h]

lemma searchFrom_retains {M : SearchState → Prop}
    (hexplore : ∀ (s : Search) (st : SearchState), M st → M (s.explore st).1.state)
    (h : M p.state) (t : Instant) : (p.searchFrom t).2.timetable = p.timetable ∧
      (p.searchFrom t).2.query = p.query ∧ M (p.searchFrom t).2.state := by
  cases hat : Search.at? p.timetable p.query t with
  | none =>
    rw [searchFrom_of_none hat]
    exact ⟨rfl, rfl, h⟩
  | some s =>
    rw [searchFrom_of_some hat]
    dsimp only
    exact ⟨rfl, rfl, hexplore s p.state h⟩

lemma searchFrom_congr (htimetable : p.timetable = p'.timetable) (hquery : p.query = p'.query)
    (hsizes : p.state.sizes = p'.state.sizes) (t : Instant) :
    (p.searchFrom t).1 = (p'.searchFrom t).1 := by
  have hat : Search.at? p'.timetable p'.query t = Search.at? p.timetable p.query t := by
    rw [htimetable, hquery]
  cases h : Search.at? p.timetable p.query t with
  | none => rw [searchFrom_of_none h, searchFrom_of_none (hat.trans h)]
  | some s =>
    rw [searchFrom_of_some h, searchFrom_of_some (hat.trans h)]
    dsimp only
    rw [Search.journeys_explore_congr hsizes]

lemma searchAll_cons (p : Planner) (t : Instant) (rest : List Instant) :
    p.searchAll (t :: rest) = ((p.searchFrom t).1 :: ((p.searchFrom t).2.searchAll rest).1,
      ((p.searchFrom t).2.searchAll rest).2) := by
  rw [searchAll]

/-- Searches made one after the other find what each of them finds on its own. -/
lemma searchAll_fst (p : Planner) (ts : List Instant) :
    (p.searchAll ts).1 = ts.map fun t => (p.searchFrom t).1 := by
  suffices h : ∀ p' : Planner, p'.timetable = p.timetable → p'.query = p.query →
      p'.state.sizes = p.state.sizes → (p'.searchAll ts).1 = ts.map fun t => (p.searchFrom t).1 from
    h p rfl rfl rfl
  induction ts with
  | nil => exact fun _ _ _ _ => rfl
  | cons t rest ih =>
    intro p' htimetable hquery hsizes
    obtain ⟨htimetable', hquery', hsizes'⟩ := searchFrom_retains
      (M := fun st => st.sizes = p'.state.sizes)
      (fun s st hst => (Search.sizes_explore s st).trans hst) rfl t
    rw [searchAll_cons, List.map_cons, searchFrom_congr htimetable hquery hsizes,
      ih _ (htimetable'.trans htimetable) (hquery'.trans hquery) (hsizes'.trans hsizes)]

lemma run_of_instant {t : Instant} (h : p.query.startTime = .instant t) :
    p.run.1 = Journey.sortByKey (p.searchFrom t).1 := by
  unfold run
  rw [h]

lemma run_of_interval {first last : Instant} (h : p.query.startTime = .interval first last) :
    p.run.1 = Journey.sortByKey (Journey.paretoFilter
      ((p.query.startInstants p.timetable first last).flatMap fun t => (p.searchFrom t).1)) := by
  unfold run
  rw [h]
  dsimp only
  rw [searchAll_fst]
  rfl

/-- The journeys of a query depend on the sizes of the state in which it is searched only. -/
lemma run_congr (htimetable : p.timetable = p'.timetable) (hquery : p.query = p'.query)
    (hsizes : p.state.sizes = p'.state.sizes) : p.run.1 = p'.run.1 := by
  have hsearch := searchFrom_congr htimetable hquery hsizes
  cases hstart : p.query.startTime with
  | instant t =>
    rw [run_of_instant hstart, run_of_instant (hquery ▸ hstart), hsearch]
  | interval first last =>
    rw [run_of_interval hstart, run_of_interval (hquery ▸ hstart), htimetable, hquery]
    simp only [hsearch]

/-- A planner after searches from several instants. -/
def after (p : Planner) (before : List Instant) : Planner := (p.searchAll before).2

/-- Searches leave the timetable and the query, and in the state what every search keeps. -/
lemma after_retains {M : SearchState → Prop}
    (hexplore : ∀ (s : Search) (st : SearchState), M st → M (s.explore st).1.state)
    (h : M p.state) (before : List Instant) : (p.after before).timetable = p.timetable ∧
      (p.after before).query = p.query ∧ M (p.after before).state := by
  unfold after
  induction before generalizing p with
  | nil => exact ⟨rfl, rfl, h⟩
  | cons t rest ih =>
    obtain ⟨htimetable, hquery, hstate⟩ := searchFrom_retains hexplore h t
    obtain ⟨htimetable', hquery', hstate'⟩ := ih hstate
    rw [searchAll_cons]
    exact ⟨htimetable'.trans htimetable, hquery'.trans hquery, hstate'⟩

lemma run_retains {M : SearchState → Prop}
    (hexplore : ∀ (s : Search) (st : SearchState), M st → M (s.explore st).1.state)
    (h : M p.state) : M p.run.2.state := by
  unfold run
  cases p.query.startTime with
  | instant t => exact (searchFrom_retains hexplore h t).2.2
  | interval first last => exact (after_retains hexplore h _).2.2

end Planner

end JourneyPlanner
