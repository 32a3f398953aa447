import JourneyPlanner.Proofs.Search.InRange.Basic
import JourneyPlanner.Proofs.Search.Scanning
import JourneyPlanner.Search.Checked.Scan

/-!
# Scanning a route in range

Only trips of the route are taken along, one at most for each via level. They are boarded in a step
that is not the last one and left in one that is not the first one, so that the route has a row for
each event that is looked up. A via stop is ridden through from a level below the last one only.
-/

namespace JourneyPlanner

open Checked

namespace Aboard

variable {a : Aboard} {s : Search} {r : RouteIndex} {v : Nat} {x : Option Trip}

lemma tripM_eq_ok (hv : v < a.length) : a.tripM v = .ok (a.trip? v) := by
  have hget : a[v]? = some a[v] := List.getElem?_eq_getElem hv
  rw [tripM, item_toArray_eq_ok hget, trip?, hget]
  rfl

lemma setM_eq_ok (hv : v < a.length) (x : Option Trip) : a.setM v x = .ok (a.set v x) := by
  rw [setM, require_eq_ok hv]
  rfl

/-- There is a place for each via level, and only trips of a route are taken along. -/
structure RidesOn (a : Aboard) (s : Search) (r : RouteIndex) : Prop where
  length_eq : a.length = s.levels
  of_route : ∀ {v : Nat} {trip : Trip}, a.trip? v = some trip →
    (s.timetable.transportsOf r).contains trip.transport = true

lemma ridesOn_empty (s : Search) (r : RouteIndex) : (empty s.levels).RidesOn s r where
  length_eq := List.length_replicate
  of_route h := by
    rw [trip?_empty] at h
    cases h

lemma RidesOn.set (h : a.RidesOn s r) (hx : ∀ trip, x = some trip →
    (s.timetable.transportsOf r).contains trip.transport = true) (v : Nat) :
    RidesOn (a.set v x) s r where
  length_eq := List.length_set.trans h.length_eq
  of_route := by
    intro u trip hu
    rw [trip?_set] at hu
    split at hu
    · exact hx trip hu
    · exact h.of_route hu

end Aboard

/-- Only trips of a route are taken along, and the tables are as large as a search needs them. -/
structure Scan.StaysOn (scan : Scan) (s : Search) (r : RouteIndex) : Prop where
  progress : s.Sized scan.progress
  aboard : scan.aboard.RidesOn s r

namespace Search

variable {s : Search} {p : Progress} {r : RouteIndex} {position k i v : Nat} {l : LocationIndex}
  {ready : RelTime} {aboard : Aboard} {st : SearchState} {trip : Trip} {stop : RouteStop}

lemma catchableM_eq_ok (hg : s.Grounded) (hr : r.val < s.timetable.nbOfRoutes)
    (hb : s.BoardsAt r position) (threshold : Int) :
    s.catchableM r position threshold = .ok (s.catchable r position threshold) := by
  obtain ⟨htimes, hlength⟩ := Timetable.timesAtM_eq_ok hg.filled hr hb
  -- whichever test the bisection uses, it looks only at columns of the row
  have hpasses : ∀ test : Int → Bool,
      partitionPointM (s.timetable.timesAt r position s.dir.boardEvent).length (fun column => do
        let time ← item (s.timetable.timesAt r position s.dir.boardEvent).toArray column
        return test time.minutes) =
      .ok (partitionPoint (s.timetable.transportsOf r).size fun column =>
        test (s.timetable.columnTime r column position s.dir.boardEvent).minutes) := by
    intro test
    rw [hlength]
    refine partitionPointM_eq_ok fun column hcolumn => ?_
    rw [item_toArray_eq_ok (Timetable.getElem?_timesAt hg.filled hr hb hcolumn)]
    rfl
  unfold catchableM catchable
  rw [htimes, ok_bind]
  dsimp only
  cases hdir : s.dir with
  | forward =>
    rw [hdir] at hpasses hlength
    dsimp only
    rw [hpasses fun minutes => decide (minutes < threshold), ok_bind, hlength]
    rfl
  | backward =>
    rw [hdir] at hpasses
    dsimp only
    rw [hpasses fun minutes => decide (minutes ≤ threshold)]
    rfl

lemma contains_of_mem_catchable (hg : s.Grounded) (hb : s.BoardsAt r position) {threshold : Int}
    {column : Nat} (h : column ∈ s.catchable r position threshold) :
    (s.timetable.transportsOf r).contains ((s.timetable.transportsOf r).nth column) = true :=
  (runs_nth hg.wellFormed ((mem_catchable hg.wellFormed hb.row_lt).1 h).1 s.baseDay position).1

lemma tripOnM?_eq_ok (hg : s.Grounded) (hr : r.val < s.timetable.nbOfRoutes)
    (hb : s.BoardsAt r position) (ready offset : Int) :
    s.tripOnM? r position ready offset = .ok (s.tripOn? r position ready offset) := by
  unfold tripOnM? tripOn?
  cases (s.baseDay.shift? offset).filter fun d =>
      decide (d.number < s.timetable.calendar.nbOfDays) with
  | none => rfl
  | some day =>
    dsimp only [Option.bind_eq_bind, Option.bind_some]
    rw [Timetable.transportsOfM_eq_ok hr, ok_bind, catchableM_eq_ok hg hr hb, ok_bind,
      findM?_eq_ok (g := fun column =>
        s.timetable.isActive ((s.timetable.transportsOf r).nth column) day) fun column hcolumn =>
          Timetable.isActiveM_eq_ok hg.filled (contains_of_mem_catchable hg hb hcolumn) day,
      ok_bind]
    cases hfind : (s.catchable r position (ready - offset * 1440)).find? fun column =>
        s.timetable.isActive ((s.timetable.transportsOf r).nth column) day with
    | none => rfl
    | some column =>
      have hcontains := contains_of_mem_catchable hg hb (List.mem_of_find?_eq_some hfind)
      dsimp only [Option.bind_some]
      rw [boardTimeM_eq_ok hg hcontains hb]
      rfl

lemma firstTripM?_eq_ok (hg : s.Grounded) (hr : r.val < s.timetable.nbOfRoutes)
    (hb : s.BoardsAt r position) (ready : RelTime) :
    s.firstTripM? r position ready = .ok (s.firstTrip? r position ready) := by
  unfold firstTripM? firstTrip?
  cases ready.minutes? with
  | none => rfl
  | some minutes =>
    dsimp only [Option.bind_eq_bind, Option.bind_some]
    rw [filterMapM_eq_ok fun offset _ => tripOnM?_eq_ok hg hr hb minutes offset]
    rfl

lemma of_route_of_firstTrip? (hg : s.Grounded) (hb : s.BoardsAt r position) {t : RelTime}
    (h : s.firstTrip? r position ready = some (trip, t)) :
    (s.timetable.transportsOf r).contains trip.transport = true := by
  obtain ⟨_, _, hcatches, _⟩ := firstTrip?_sound hg.wellFormed hb.row_lt h
  exact hcatches.of_route

lemma leaveTripM_eq_ok (hg : s.Grounded) (ha : s.AlightsAt r position)
    (hl : l.val < s.timetable.nbOfLocations) (hride : aboard.RidesOn s r) (hp : s.Sized p)
    (hv : v < s.levels) :
    s.leaveTripM r position l aboard p v = .ok (s.leaveTrip position l aboard p v) ∧
      s.Sized (s.leaveTrip position l aboard p v) := by
  rw [leaveTripM, Aboard.tripM_eq_ok (by rw [hride.length_eq]; exact hv), ok_bind, leaveTrip]
  cases htrip : aboard.trip? v with
  | none => exact ⟨rfl, hp⟩
  | some trip =>
    dsimp only
    rw [alightTimeM_eq_ok hg (hride.of_route htrip) ha, ok_bind]
    exact improveArrivalM_eq_ok hp hl hv _

lemma leaveTripsM_eq_ok (hg : s.Grounded) (ha : s.AlightsAt r position)
    (hl : l.val < s.timetable.nbOfLocations) {scan : Scan} (hride : scan.aboard.RidesOn s r)
    (hp : s.Sized scan.progress) :
    s.leaveTripsM r position l scan = .ok (s.leaveTrips position l scan) ∧
      s.Sized (s.leaveTrips position l scan).progress := by
  have hloop := foldlM_eq_ok (P := s.Sized) (l := List.range s.levels)
    (fun q v hv hq => leaveTripM_eq_ok hg ha hl hride hq (List.mem_range.1 hv)) hp
  rw [leaveTripsM, hloop.1]
  exact ⟨rfl, hloop.2⟩

lemma rideThroughM_eq_ok (hg : s.Grounded) (ha : s.AlightsAt r position)
    (hride : aboard.RidesOn s r) (hv : v + 1 < s.levels) :
    s.rideThroughM r position l aboard v = .ok (s.rideThrough position l aboard v) ∧
      Aboard.RidesOn (s.rideThrough position l aboard v) s r := by
  have hlength := hride.length_eq
  rw [rideThroughM, Aboard.tripM_eq_ok (by omega), ok_bind, rideThrough]
  cases (s.viaAt? v l).filter (·.stay == .zero) with
  | none => exact ⟨rfl, hride⟩
  | some via =>
    cases htrip : aboard.trip? v with
    | none => exact ⟨rfl, hride⟩
    | some trip =>
      have htake : Aboard.RidesOn (aboard.set (v + 1) (some trip)) s r :=
        hride.set (fun _ h => by cases h; exact hride.of_route htrip) (v + 1)
      dsimp only
      rw [Aboard.tripM_eq_ok (by omega), ok_bind]
      cases hother : aboard.trip? (v + 1) with
      | none => exact ⟨Aboard.setM_eq_ok (by omega) _, htake⟩
      | some other =>
        dsimp only
        rw [alightTimeM_eq_ok hg (hride.of_route htrip) ha, ok_bind,
          alightTimeM_eq_ok hg (hride.of_route hother) ha, ok_bind]
        split
        · exact ⟨Aboard.setM_eq_ok (by omega) _, htake⟩
        · exact ⟨rfl, hride⟩

lemma exchangeM_eq_ok (hg : s.Grounded) (hr : r.val < s.timetable.nbOfRoutes)
    (hb : s.BoardsAt r position) {current : Option Trip} (hcurrent : ∀ trip, current = some trip →
      (s.timetable.transportsOf r).contains trip.transport = true) (ready : RelTime) :
    s.exchangeM r position ready current = .ok (s.exchange r position ready current) := by
  have hfirst := firstTripM?_eq_ok hg hr hb ready
  unfold exchangeM exchange
  cases current with
  | none =>
    dsimp only
    rw [hfirst]
    rfl
  | some trip =>
    dsimp only
    rw [boardTimeM_eq_ok hg (hcurrent trip rfl) hb, ok_bind]
    split
    · rw [hfirst]
      rfl
    · rfl

lemma boardTripM_eq_ok (hg : s.Grounded) (hr : r.val < s.timetable.nbOfRoutes)
    (hb : s.BoardsAt r position) (hl : l.val < s.timetable.nbOfLocations)
    (hst : st.Shaped s.timetable.nbOfLocations s.levels) (hk : k ≠ 0 ∧ k < maxRounds)
    (hride : aboard.RidesOn s r) (hv : v < s.levels) :
    s.boardTripM k r position l st aboard v = .ok (s.boardTrip k r position l st aboard v) ∧
      Aboard.RidesOn (s.boardTrip k r position l st aboard v) s r := by
  have hlength := hride.length_eq
  rw [boardTripM, difference_eq_ok (by omega), ok_bind,
    SearchState.startM_eq_ok hst.fits (by omega) hl hv, ok_bind, boardTrip]
  split
  · rw [Aboard.tripM_eq_ok (by omega), ok_bind,
      exchangeM_eq_ok hg hr hb (fun _ htrip => hride.of_route htrip), ok_bind,
      Aboard.setM_eq_ok (by omega)]
    refine ⟨rfl, hride.set (fun trip htrip => ?_) v⟩
    -- the trip aboard stays, or one of the same route is caught
    rcases exchange_cases htrip with hold | ⟨t, ht⟩
    · exact hride.of_route hold
    · exact of_route_of_firstTrip? hg hb ht
  · exact ⟨rfl, hride⟩

/-- The trips that ride through the via stops at a stop, which no trip does where it starts. -/
def rideThroughVias (s : Search) (r : RouteIndex) (l : LocationIndex) (i : Nat) (aboard : Aboard) :
    Aboard :=
  if i = 0 then aboard
  else (List.range (s.levels - 1)).foldl (s.rideThrough (s.positionAt r i) l) aboard

lemma rideThroughViasM_eq_ok (hg : s.Grounded) (hi : i < s.nbOfStops r)
    (hride : aboard.RidesOn s r) (l : LocationIndex) :
    s.rideThroughViasM r (s.positionAt r i) l i aboard = .ok (s.rideThroughVias r l i aboard) ∧
      (s.rideThroughVias r l i aboard).RidesOn s r := by
  unfold rideThroughViasM rideThroughVias
  split
  · exact ⟨rfl, hride⟩
  · rename_i hpos
    rw [difference_eq_ok s.levels_pos, ok_bind]
    refine foldlM_eq_ok (P := fun a : Aboard => a.RidesOn s r) (fun a v hv ha => ?_) hride
    -- the loop stops one short of the last level, whose next one is not there
    have hlt := List.mem_range.1 hv
    exact rideThroughM_eq_ok hg (alightsAt_positionAt hpos hi) ha (by omega)

lemma boardTripsM_eq_ok (hg : s.Grounded) (hi : i + 1 < s.nbOfStops r)
    (hr : r.val < s.timetable.nbOfRoutes)
    (hl : stop.location.val < s.timetable.nbOfLocations) (hk : k ≠ 0 ∧ k < maxRounds)
    {scan : Scan} (hscan : scan.StaysOn s r) :
    s.boardTripsM k r (s.positionAt r i) stop i scan = .ok ⟨scan.progress,
        s.aboardAfter k r stop scan.progress.state i scan.aboard⟩ ∧
      Aboard.RidesOn (s.aboardAfter k r stop scan.progress.state i scan.aboard) s r := by
  have hb := boardsAt_positionAt hi
  obtain ⟨hthrough, hrode⟩ := rideThroughViasM_eq_ok hg (by omega : i < s.nbOfStops r)
    hscan.aboard stop.location
  unfold boardTripsM aboardAfter
  dsimp only
  rw [hthrough, ok_bind, canLeaveM_eq_ok hg hr hb, ok_bind,
    if_neg (by omega : ¬i + 1 = s.nbOfStops r)]
  split
  · exact ⟨rfl, Aboard.ridesOn_empty s r⟩
  · split
    · exact ⟨rfl, hrode⟩
    · have hloop := foldlM_eq_ok (P := fun a : Aboard => a.RidesOn s r) (l := List.range s.levels)
        (fun a v hv ha => boardTripM_eq_ok hg hr hb hl hscan.progress.state hk ha
          (List.mem_range.1 hv)) hrode
      rw [hloop.1]
      exact ⟨rfl, hloop.2⟩

lemma scanStopM_eq_ok (hg : s.Grounded) (hr : r.val < s.timetable.nbOfRoutes)
    (hk : k ≠ 0 ∧ k < maxRounds) (hi : i < s.nbOfStops r) {scan : Scan}
    (hscan : scan.StaysOn s r) :
    s.scanStopM k r (s.nbOfStops r) scan i = .ok (s.scanStop k r (s.nbOfStops r) scan i) ∧
      (s.scanStop k r (s.nbOfStops r) scan i).StaysOn s r := by
  obtain ⟨stop, hstop, hitem, hl⟩ := exists_stop hg hi
  obtain ⟨q, hq, heq⟩ := scanStop_eq hstop k scan
  -- trips are left before others are boarded, which changes the tables and not what is aboard
  have hleft : (if i ≠ 0 && stop.canFinish s.dir then
        s.leaveTripsM r (s.positionAt r i) stop.location scan else return scan) =
      (.ok ⟨q, scan.aboard⟩ : Checked Scan) ∧ s.Sized q := by
    rw [hq]
    by_cases hleave : i ≠ 0 ∧ stop.canFinish s.dir = true
    · obtain ⟨hleaves, hsized⟩ :=
        leaveTripsM_eq_ok hg (alightsAt_positionAt hleave.1 hi) hl hscan.aboard hscan.progress
      rw [if_pos (by simpa using hleave), if_pos hleave, hleaves]
      exact ⟨rfl, hsized⟩
    · rw [if_neg (by simpa using hleave), if_neg hleave]
      exact ⟨rfl, hscan.progress⟩
  have hposition : s.dir.positionM (s.nbOfStops r) i = .ok (s.positionAt r i) := positionM_eq_ok hi
  rw [scanStopM, hposition, ok_bind, Timetable.stopsM_eq_ok hr, ok_bind, hitem, ok_bind,
    hleft.1, ok_bind, heq]
  by_cases hlast : i + 1 = s.nbOfStops r
  · have haboard : s.aboardAfter k r stop q.state i scan.aboard = scan.aboard := if_pos hlast
    rw [if_pos hlast, haboard]
    exact ⟨rfl, hleft.2, hscan.aboard⟩
  · have hnext : i + 1 < s.nbOfStops r := by omega
    have hstays : Scan.StaysOn ⟨q, scan.aboard⟩ s r := ⟨hleft.2, hscan.aboard⟩
    obtain ⟨hboards, hrides⟩ := boardTripsM_eq_ok hg hnext hr hl hk hstays
    rw [if_neg hlast]
    exact ⟨hboards, hleft.2, hrides⟩

lemma scanRouteM_eq_ok (hg : s.Grounded) (hk : k ≠ 0 ∧ k < maxRounds)
    (hr : r.val < s.timetable.nbOfRoutes) (hp : s.Sized p) :
    s.scanRouteM k p r = .ok (s.scanRoute k p r) ∧ s.Sized (s.scanRoute k p r) := by
  have hloop := foldlM_eq_ok (P := fun scan : Scan => scan.StaysOn s r)
    (l := List.range (s.nbOfStops r)) (b := ⟨p, .empty s.levels⟩)
    (fun scan i hi hscan => scanStopM_eq_ok hg hr hk (List.mem_range.1 hi) hscan)
    ⟨hp, Aboard.ridesOn_empty s r⟩
  have hscans : (List.range (s.timetable.stops r).size).foldlM
      (s.scanStopM k r (s.timetable.stops r).size) ⟨p, .empty s.levels⟩ = _ := hloop.1
  rw [scanRouteM, Timetable.stopsM_eq_ok hr, ok_bind, hscans]
  exact ⟨rfl, hloop.2.progress⟩

lemma lt_of_mem_toList {set : BitSet} {n : Nat} (hset : set.capacity = n)
    (h : r ∈ set.toList.map Index.mk) : r.val < n := by
  obtain ⟨i, hi, rfl⟩ := List.mem_map.1 h
  rw [← hset]
  exact BitSet.lt_capacity_of_contains (BitSet.mem_toList.1 hi)

/-- The routes that are scanned are routes of the timetable. -/
lemma routesToScanM_eq_ok (hg : s.Grounded)
    (hst : st.Shaped s.timetable.nbOfLocations s.levels) :
    s.routesToScanM st = .ok (s.routesToScan st) ∧
      ∀ r ∈ s.routesToScan st, r.val < s.timetable.nbOfRoutes := by
  have hinsert : ∀ (set : BitSet) (l : LocationIndex), l ∈ st.marked →
      set.capacity = s.timetable.nbOfRoutes →
        (do
          let routes ← s.timetable.routesAtM l
          routes.foldlM (fun set r => set.insertM r.val) set) =
            (.ok ((s.timetable.routesAt l).foldl (fun set r => set.insert r.val) set) :
              Checked BitSet) ∧
          ((s.timetable.routesAt l).foldl (fun set r => set.insert r.val) set).capacity =
            s.timetable.nbOfRoutes := by
    intro set l hl hset
    rw [Timetable.routesAtM_eq_ok hg.filled (hst.fits.lt_of_mem_marked hl), ok_bind]
    refine foldlM_eq_ok (P := fun set : BitSet => set.capacity = s.timetable.nbOfRoutes)
      (fun set r hr hset => ⟨BitSet.insertM_eq_ok ?_, (BitSet.capacity_insert _ _).trans hset⟩) hset
    rw [hset]
    exact hg.wellFormed.listed_lt hr
  have hloop := foldlM_eq_ok (P := fun set : BitSet => set.capacity = s.timetable.nbOfRoutes)
    hinsert (BitSet.capacity_empty s.timetable.nbOfRoutes)
  rw [routesToScanM, hloop.1, ok_bind, routesToScan]
  exact ⟨filterM_eq_ok fun r hr => admitsM_eq_ok (lt_of_mem_toList hloop.2 hr),
    fun r hr => lt_of_mem_toList hloop.2 (List.mem_filter.1 hr).1⟩

end Search

end JourneyPlanner
