import JourneyPlanner.Proofs.Network.InRange
import JourneyPlanner.Proofs.Search.Accepting
import JourneyPlanner.Proofs.Search.Catching
import JourneyPlanner.Proofs.Search.Forgetting
import JourneyPlanner.Search.Checked.Basic

/-!
# Look-ups in the tables of a search

The tables of a search have a row for each location and a column for each via level, one for each
round. So what is read and written at a known location, at a level of the query and in a round is
there. Nothing is boarded at the last stop that a search meets on a route, and nothing is left at
the first one.
-/

namespace JourneyPlanner

open Checked

namespace Labels

variable {g : Labels} {locations levels v : Nat} {l : LocationIndex}

lemma timeM_eq_ok (hg : g.Fits locations levels) (hl : l.val < locations) (hv : v < levels) :
    g.timeM l v = .ok (g.time l v) := by
  rw [timeM, time, Grid.getM_eq_ok (by rw [hg.rows_eq]; exact hl) (by rw [hg.columns_eq]; exact hv)]

lemma setTimeM_eq_ok (hg : g.Fits locations levels) (hl : l.val < locations) (hv : v < levels)
    (t : RelTime) : g.setTimeM l v t = .ok (g.setTime l v t) :=
  Grid.setM_eq_ok (by rw [hg.rows_eq]; exact hl) (by rw [hg.columns_eq]; exact hv) t

end Labels

namespace SearchState

variable {st : SearchState} {locations levels k v : Nat} {l : LocationIndex}

lemma Fits.exists_starts (h : st.Fits locations levels) (hk : k < maxRounds) :
    ∃ g : Labels, st.starts[k]? = some g ∧ g.Fits locations levels := by
  have hget := Array.getElem?_eq_getElem (h.starts_size.symm ▸ hk : k < st.starts.size)
  exact ⟨_, hget, h.starts hget⟩

lemma Shaped.exists_ends (h : st.Shaped locations levels) (hk : k < maxRounds) :
    ∃ g : Labels, st.ends[k]? = some g ∧ g.Fits locations levels := by
  have hget := Array.getElem?_eq_getElem (h.fits.ends_size.symm ▸ hk : k < st.ends.size)
  exact ⟨_, hget, h.ends hget⟩

lemma Shaped.lt_of_finish (h : st.Shaped locations levels)
    (hf : (st.finish k l v).isFeasible = true) : l.val < locations ∧ v < levels := by
  unfold finish at hf
  cases hg : st.ends[k]? with
  | none =>
    rw [hg] at hf
    cases hf
  | some g =>
    rw [hg] at hf
    exact (h.ends hg).lt_of_isFeasible hf

lemma startM_eq_ok (h : st.Fits locations levels) (hk : k < maxRounds) (hl : l.val < locations)
    (hv : v < levels) : st.startM k l v = .ok (st.start k l v) := by
  obtain ⟨g, hg, hfits⟩ := h.exists_starts hk
  rw [startM, item_eq_ok hg, ok_bind, Labels.timeM_eq_ok hfits hl hv, start, hg]
  rfl

lemma finishM_eq_ok (h : st.Shaped locations levels) (hk : k < maxRounds) (hl : l.val < locations)
    (hv : v < levels) : st.finishM k l v = .ok (st.finish k l v) := by
  obtain ⟨g, hg, hfits⟩ := h.exists_ends hk
  rw [finishM, item_eq_ok hg, ok_bind, Labels.timeM_eq_ok hfits hl hv, finish, hg]
  rfl

lemma setStartM_eq_ok (h : st.Fits locations levels) (hk : k < maxRounds) (hl : l.val < locations)
    (hv : v < levels) (t : RelTime) : st.setStartM k l v t = .ok (st.setStart k l v t) := by
  obtain ⟨g, hg, hfits⟩ := h.exists_starts hk
  -- writing the changed table back is changing it where it is
  have hset : st.starts.setIfInBounds k (g.setTime l v t) =
      st.starts.modify k fun g => g.setTime l v t := by
    apply Array.ext_getElem?
    intro j
    rw [Array.getElem?_setIfInBounds, Array.getElem?_modify]
    by_cases hj : k = j
    · subst hj
      rw [if_pos rfl, if_pos rfl, if_pos (h.starts_size.symm ▸ hk : k < st.starts.size), hg]
      rfl
    · rw [if_neg hj, if_neg hj]
  rw [setStartM, item_eq_ok hg, ok_bind, Labels.setTimeM_eq_ok hfits hl hv, ok_bind, hset]
  rfl

lemma setTmpM_eq_ok (h : st.Fits locations levels) (hl : l.val < locations) (hv : v < levels)
    (t : RelTime) : st.setTmpM l v t = .ok (st.setTmp l v t) := by
  rw [setTmpM, Labels.setTimeM_eq_ok h.tmp hl hv]
  rfl

lemma markM_eq_ok (h : st.Fits locations levels) (hl : l.val < locations) :
    st.markM l = .ok (st.mark l) := by
  rw [markM, BitSet.insertM_eq_ok (by rw [h.marks_capacity]; exact hl)]
  rfl

lemma addExitM_eq_ok (h : st.Shaped locations levels) (hl : l.val < locations) :
    st.addExitM l = .ok (st.addExit l) := by
  rw [addExitM, BitSet.insertM_eq_ok (by rw [h.exits_capacity]; exact hl)]
  rfl

lemma finishRoundM_eq_ok (h : st.Shaped locations levels) (hk : k < maxRounds) (dir : Direction) :
    st.finishRoundM dir k = .ok (st.finishRound dir k) := by
  obtain ⟨starts, hstarts, _⟩ := h.fits.exists_starts hk
  obtain ⟨ends, hends, hfits⟩ := h.exists_ends hk
  have hsame : ends.rows = st.tmp.rows ∧ ends.columns = st.tmp.columns :=
    ⟨hfits.rows_eq.trans h.fits.tmp.rows_eq.symm, hfits.columns_eq.trans h.fits.tmp.columns_eq.symm⟩
  rw [finishRoundM, item_eq_ok hstarts, ok_bind, item_eq_ok hends, ok_bind, require_eq_ok hsame,
    finishRound, hstarts]
  rfl

lemma Fits.lt_of_mem_marked (h : st.Fits locations levels) (hl : l ∈ st.marked) :
    l.val < locations := by
  rw [← h.marks_capacity]
  exact BitSet.lt_capacity_of_contains (mem_marked.1 hl)

end SearchState

namespace Progress

lemma mapState_const (p : Progress) (f : SearchState → SearchState) :
    (p.mapState fun _ => f p.state) = p.mapState f := rfl

lemma hitM_eq_ok {p : Progress} {k : Nat} (hsize : p.hits.size = maxRounds) (hk : k < maxRounds) :
    p.hitM k = .ok (p.hit? k) := by
  have hget := Array.getElem?_eq_getElem (hsize.symm ▸ hk : k < p.hits.size)
  rw [hitM, item_eq_ok hget, hit?, hget]
  rfl

end Progress

namespace Direction

variable {n step : Nat}

lemma positionM_eq_ok (dir : Direction) (h : step < n) :
    dir.positionM n step = .ok (dir.position n step) := by
  cases dir with
  | forward => rfl
  | backward =>
    unfold positionM position
    dsimp only
    rw [difference_eq_ok (by omega), ok_bind, difference_eq_ok (by omega)]

end Direction

/-- What the searches of a query rely on to stay within their tables: those of the timetable are as
large as what indexes them, and the query knows only locations of the timetable and asks for no more
rounds than there are. -/
structure Query.Grounded (q : Query) (tt : Timetable) : Prop where
  wellFormed : tt.WellFormed
  filled : tt.Filled
  start_known : ∀ o ∈ q.start, o.location.val < tt.nbOfLocations
  destination_known : ∀ o ∈ q.destination, o.location.val < tt.nbOfLocations
  maxTransfers_le : q.maxTransfers ≤ JourneyPlanner.maxTransfers

lemma Query.Fits.grounded {q : Query} {tt : Timetable} {nbOfVias : Nat} (h : q.Fits tt nbOfVias)
    (hbuilt : tt.IsBuilt) : q.Grounded tt where
  wellFormed := hbuilt.wellFormed
  filled := hbuilt.filled
  start_known _ ho := h.known _ (List.mem_append_left _
    (List.mem_map_of_mem (List.mem_append_left _ ho)))
  destination_known _ ho := h.known _ (List.mem_append_left _
    (List.mem_map_of_mem (List.mem_append_right _ ho)))
  maxTransfers_le := h.maxTransfers_le

namespace Search

abbrev Grounded (s : Search) : Prop := s.query.Grounded s.timetable

/-- The tables of a progress are as large as a search needs them. -/
abbrev Sized (s : Search) (p : Progress) : Prop := p.Shaped s.timetable.nbOfLocations s.levels

variable {s : Search} {p : Progress} {r : RouteIndex} {trip : Trip} {position step k v : Nat}
  {l : LocationIndex} {t : RelTime}

lemma levels_pos (s : Search) : 0 < s.levels := Nat.succ_pos _

/-- The vehicles of a route have an event at a position at which a ride can end. -/
def AlightsAt (s : Search) (r : RouteIndex) (position : Nat) : Prop :=
  (position, s.dir.alightEvent) ∈ StopEvent.all (s.timetable.stops r).size

/-- A ride can begin in each step but the last one. -/
lemma boardsAt_positionAt (h : step + 1 < s.nbOfStops r) : s.BoardsAt r (s.positionAt r step) := by
  unfold BoardsAt positionAt
  unfold nbOfStops at *
  rw [StopEvent.mem_all_iff]
  cases s.dir <;> simp only [Direction.position, Direction.boardEvent] <;> grind

lemma alightsAt_positionAt (hpos : step ≠ 0) (h : step < s.nbOfStops r) :
    s.AlightsAt r (s.positionAt r step) := by
  unfold AlightsAt positionAt
  unfold nbOfStops at *
  rw [StopEvent.mem_all_iff]
  cases s.dir <;>
    simp only [Direction.position, Direction.alightEvent, Direction.opposite,
      Direction.boardEvent] <;> grind

lemma positionM_eq_ok (h : step < s.nbOfStops r) :
    s.dir.positionM (s.timetable.stops r).size step = .ok (s.positionAt r step) :=
  s.dir.positionM_eq_ok h

/-- Each step meets a stop, and its location is known. -/
lemma exists_stop (hg : s.Grounded) (h : step < s.nbOfStops r) : ∃ stop : RouteStop,
    s.stopAt? r step = some stop ∧
      item (s.timetable.stops r) (s.positionAt r step) = .ok stop ∧
        stop.location.val < s.timetable.nbOfLocations := by
  obtain ⟨stop, hstop⟩ := exists_stopAt? h
  exact ⟨stop, hstop, item_eq_ok hstop, hg.wellFormed.known_stop hstop⟩

lemma eventTimeM_eq_ok (hg : s.Grounded)
    (ht : (s.timetable.transportsOf r).contains trip.transport = true) {event : StopEvent}
    (he : (position, event) ∈ StopEvent.all (s.timetable.stops r).size) :
    s.eventTimeM r trip position event = .ok (s.eventTime trip position event) := by
  rw [eventTimeM, Timetable.eventTimeM_eq_ok hg.wellFormed hg.filled ht he]
  rfl

lemma boardTimeM_eq_ok (hg : s.Grounded)
    (ht : (s.timetable.transportsOf r).contains trip.transport = true)
    (hb : s.BoardsAt r position) :
    s.boardTimeM r trip position = .ok (s.boardTime trip position) :=
  eventTimeM_eq_ok hg ht hb

lemma alightTimeM_eq_ok (hg : s.Grounded)
    (ht : (s.timetable.transportsOf r).contains trip.transport = true)
    (ha : s.AlightsAt r position) :
    s.alightTimeM r trip position = .ok (s.alightTime trip position) :=
  eventTimeM_eq_ok hg ht ha

lemma admitsM_eq_ok {q : Query} {tt : Timetable} (hr : r.val < tt.nbOfRoutes) :
    q.admitsM tt r = .ok (q.admits tt r) := by
  obtain ⟨c, hc, hclass⟩ := Timetable.exists_mainClass hr
  rw [Query.admitsM, hc, Query.admits, hclass]
  rfl

lemma canLeaveM_eq_ok (hg : s.Grounded) (hr : r.val < s.timetable.nbOfRoutes)
    (hb : s.BoardsAt r position) :
    s.query.canLeaveM s.timetable r position = .ok (s.query.canLeave s.timetable r position) := by
  obtain ⟨hposition, harrival, hdeparture⟩ := StopEvent.mem_all_iff.1 hb
  -- backward, the section before the position is ridden: there is one, as nothing is boarded at the
  -- first stop
  have hsection : s.query.direction.sectionFromM position =
      .ok (s.query.direction.sectionFrom position) ∧
        s.query.direction.sectionFrom position + 1 < (s.timetable.stops r).size := by
    unfold dir at *
    cases hdir : s.query.direction with
    | forward =>
      rw [hdir] at hdeparture
      have := hdeparture rfl
      unfold Direction.sectionFrom
      exact ⟨rfl, by dsimp only; omega⟩
    | backward =>
      rw [hdir] at harrival
      have := harrival rfl
      unfold Direction.sectionFromM Direction.sectionFrom
      exact ⟨difference_eq_ok (by omega), by dsimp only; omega⟩
  unfold Query.canLeaveM Query.canLeave
  cases s.query.requireBikes with
  | false => rfl
  | true =>
    rw [if_pos rfl, hsection.1, ok_bind, Timetable.allowsM_eq_ok hg.filled hr hsection.2]
    rfl

lemma reachDestinationM_eq_ok (hp : s.Sized p) (hk : k < maxRounds) (a : Arrival) (w : Option Walk)
    (l : LocationIndex) (v : Nat) (t : RelTime) :
    s.reachDestinationM k a w l v t p = .ok (s.reachDestination k a w l v t p) ∧
      s.Sized (s.reachDestination k a w l v t p) := by
  refine ⟨?_, hp.leaves (leaves_reachDestination _ _ _ _ _ _ _ _)⟩
  have hsize : k < p.hits.size := by rwa [hp.hits_size]
  unfold reachDestinationM reachDestination
  split
  · rfl
  · cases s.egress? l with
    | none => rfl
    | some egress =>
      dsimp only
      split
      · rw [require_eq_ok hsize]
        rfl
      · rfl

lemma improveArrivalM_eq_ok (hp : s.Sized p) (hl : l.val < s.timetable.nbOfLocations)
    (hv : v < s.levels) (t : RelTime) :
    s.improveArrivalM l v t p = .ok (s.improveArrival l v t p) ∧
      s.Sized (s.improveArrival l v t p) := by
  refine ⟨?_, hp.scans (scans_improveArrival _ _ _ _ _)⟩
  have hfits := hp.state.fits
  rw [improveArrivalM, Labels.timeM_eq_ok hfits.tmp hl hv, ok_bind,
    Labels.timeM_eq_ok hfits.best hl hv, ok_bind, improveArrival]
  split
  · rw [SearchState.setTmpM_eq_ok hfits hl hv, ok_bind, SearchState.markM_eq_ok hfits.setTmp hl]
    rfl
  · rfl

lemma improveStartM_eq_ok (hp : s.Sized p) (hk : k < maxRounds)
    (hl : l.val < s.timetable.nbOfLocations) (hv : v < s.levels) (t : RelTime) :
    s.improveStartM k l v t p = .ok (s.improveStart k l v t p) ∧
      s.Sized (s.improveStart k l v t p) := by
  refine ⟨?_, hp.leaves (leaves_improveStart _ _ _ _ _ _)⟩
  have hfits := hp.state.fits
  rw [improveStartM, SearchState.startM_eq_ok hfits hk hl hv, ok_bind,
    Labels.timeM_eq_ok hfits.bestStart hl hv, ok_bind, improveStart]
  split
  · rw [SearchState.setStartM_eq_ok hfits hk hl hv, ok_bind,
      SearchState.markM_eq_ok hfits.setStart hl]
    rfl
  · rfl

end Search

end JourneyPlanner
