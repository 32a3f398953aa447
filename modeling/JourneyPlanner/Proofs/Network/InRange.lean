import JourneyPlanner.Network.Checked
import JourneyPlanner.Proofs.Network.Coherence
import JourneyPlanner.Proofs.Network.SectionData

/-!
# Look-ups in built timetables

The tables of a built timetable are as large as what indexes them: every route has a row for each
event and a column for each transport, every location has its lists, and every route whose sections
take bikes differently has one entry for each of them. So a look-up at an index that the timetable
has given out is in range, and answers what the total look-up does.
-/

namespace JourneyPlanner

open Checked

namespace Timetable

/-- The tables of a timetable are as large as what indexes them. -/
structure Filled (tt : Timetable) : Prop where
  routes : ∀ {r : RouteIndex} {route : Route}, tt.routes[r.val]? = some route → route.Filled
  served : ∀ {r : RouteIndex} {t : TransportIndex}, (tt.transportsOf r).contains t = true →
    ∃ x, tt.transports[t.val]? = some x
  serviceDays : ∀ {t : TransportIndex} {x : Transport}, tt.transports[t.val]? = some x →
    ∃ days, tt.serviceDays.sets[x.serviceDays.val]? = some days
  bikes : ∀ {r : RouteIndex} {route : Route}, tt.routes[r.val]? = some route →
    tt.bikes.onAll r = false → tt.bikes.onSome r = true → r.val < tt.bikes.sections.size ∧
      (tt.bikes.sections.get r).length + 1 = route.stops.size
  routesByLocation_size : tt.routesByLocation.size = tt.nbOfLocations
  footpathsFrom_size : tt.footpathsFrom.size = tt.nbOfLocations
  footpathsTo_size : tt.footpathsTo.size = tt.nbOfLocations
  timedFootpathsFrom_size : tt.timedFootpathsFrom.size = tt.nbOfLocations
  timedFootpathsTo_size : tt.timedFootpathsTo.size = tt.nbOfLocations

end Timetable

namespace Builder

variable {b b' : Builder}

/-- Permissions for bikes were given for a route, one for all of its sections or one for each. -/
def KnowsBikes (b : Builder) (r : RouteIndex) (stops : Array RouteStop) : Prop :=
  ∃ permissions : Sections Bool, permissions.Fits (stops.size - 1) ∧ b.bikes.Knows r permissions

/-- The permissions for bikes are known of every route, closed or open. -/
structure KnowsAllBikes (b : Builder) : Prop where
  counts : b.Counts
  closed : ∀ (r : RouteIndex) (route : Route), b.routes[r.val]? = some route →
    b.KnowsBikes r route.stops
  opened : ∀ o : OpenRoute, b.openRoute = some o → b.KnowsBikes o.index o.stops

lemma knowsAllBikes_new (c : Calendar) : (new c).KnowsAllBikes where
  counts := counts_new c
  closed _ _ hget := nomatch hget
  opened _ hopen := nomatch hopen

/-- A route is registered with its permissions, and keeps them when it is closed. -/
theorem KnowsAllBikes.outcome (h : b.KnowsAllBikes) {call : Call}
    {answer : Except TimetableError Registered} (houtcome : b.Outcome call answer b') :
    b'.KnowsAllBikes := by
  have hcounts := h.counts.step houtcome.step
  cases houtcome with
  | location | days | late | notOpen | spoiled | footpath | timedFootpath | refused =>
    exact ⟨hcounts, h.closed, h.opened⟩
  | @opened stops classes bikes o permissions hnew =>
    obtain ⟨hopens, hstops, _, hbikes⟩ := newRoute_ok hnew
    refine ⟨hcounts, fun r route hget => ?_, fun o' hopen => ?_⟩
    · obtain ⟨known, hfits, hknows⟩ := h.closed r route hget
      exact ⟨known, hfits, hknows.register _⟩
    · cases hopen
      -- the new route is the one after all closed ones, in the register as in the builder
      have hsize : b.bikes.size = b.routes.size := by
        rw [h.counts.size_eq, nbOfRoutes, hopens.closed]
        rfl
      refine ⟨permissions, ?_, ?_⟩
      · rw [hstops, List.size_toArray]
        exact Sections.fits_of_ofList? hbikes
      · rw [Index.ext (hopens.index_eq.trans hsize.symm)]
        exact BikeRegister.knows_register _ _
  | @extended r t o days hcheck _ =>
    refine ⟨hcounts, h.closed, fun o' hopen => ?_⟩
    cases hopen
    exact h.opened o (admits_of_checkTransport hcheck).opened
  | closed hopen hclose =>
    refine ⟨hcounts, fun r route hget => ?_, fun _ hnone => ?_⟩
    · rw [Array.getElem?_push] at hget
      split at hget
      · rename_i hr
        cases hget
        rw [Index.ext (hr.trans (h.counts.sound.opened _ hopen).index_eq.symm),
          (OpenRoute.closes_of_close hclose).stops_eq]
        exact h.opened _ hopen
      · exact h.closed r route hget
    · cases hnone

theorem knowsAllBikes_run (h : b.KnowsAllBikes) (calls : List Call) :
    (b.run calls).2.KnowsAllBikes := by
  induction calls generalizing b with
  | nil => exact h
  | cons call calls ih =>
    rw [run_cons]
    exact ih (h.outcome (b.outcome_apply call))

/-- Where bikes are taken on some sections only, they are told section by section. -/
lemma length_sections_freeze (hb : b.Sound) (h : b.KnowsAllBikes) {r : RouteIndex} {route : Route}
    (hget : b.routes[r.val]? = some route) (hall : b.freeze.bikes.onAll r = false)
    (hsome : b.freeze.bikes.onSome r = true) : r.val < b.freeze.bikes.sections.size ∧
      (b.freeze.bikes.sections.get r).length + 1 = route.stops.size := by
  obtain ⟨permissions, hfits, hknows⟩ := h.closed r route hget
  have hall : permissions.toList.all id = false :=
    (BikeTable.onAll_ofRegister hknows).symm.trans hall
  have hsome : permissions.toList.any id = true :=
    (BikeTable.onSome_ofRegister hknows).symm.trans hsome
  -- one permission alone would hold on all sections or on none
  have hothers : permissions.others.length ≠ 0 := by
    intro hzero
    have hsame : permissions.toList.any id = permissions.toList.all id := by
      simp [Sections.toList, List.length_eq_zero_iff.1 hzero]
    exact Bool.false_ne_true (hall.symm.trans (hsame.symm.trans hsome))
  have htwo := (hb.routes r.val route hget).two_le
  refine ⟨?_, ?_⟩
  · change r.val < (Buckets.ofKeyed b.bikes.size b.bikes.sections.toList).size
    rw [Buckets.size_ofKeyed]
    exact hknows.lt_size
  · change ((BikeTable.ofRegister b.bikes).sections.get r).length + 1 = route.stops.size
    rw [BikeTable.sections_ofRegister hknows hsome hall, Sections.toList, List.length_cons,
      hfits.resolve_left hothers]
    omega

theorem filled_freeze (hb : b.Sound) (hlaid : b.Laid) (hbikes : b.KnowsAllBikes) :
    b.freeze.Filled where
  routes hget := hlaid.filled _ (Array.mem_of_getElem? hget)
  served := by
    intro r t ht
    cases hroute : b.routes[r.val]? with
    | none =>
      have hsize := size_transportsOf_of_none hroute
      rw [IndexRange.contains_iff, hsize] at ht
      omega
    | some route =>
      rw [transportsOf_freeze hroute] at ht
      obtain ⟨x, hx, _⟩ := (hb.routes r.val route hroute).served t ht
      exact ⟨x, hx⟩
  serviceDays := by
    intro t x hx
    obtain ⟨days, hdays, _⟩ := hlaid.runs x (Array.mem_of_getElem? hx)
    exact ⟨days, hdays⟩
  bikes hget := length_sections_freeze hb hbikes hget
  routesByLocation_size := Buckets.size_ofKeyed _ _
  footpathsFrom_size := Buckets.size_ofKeyed _ _
  footpathsTo_size := Buckets.size_ofKeyed _ _
  timedFootpathsFrom_size := Buckets.size_ofKeyed _ _
  timedFootpathsTo_size := Buckets.size_ofKeyed _ _

end Builder

theorem Timetable.IsBuilt.filled {tt : Timetable} (h : tt.IsBuilt) : tt.Filled := by
  obtain ⟨c, calls, hbuild⟩ := h
  obtain ⟨_, _, _, hfreeze⟩ := Builder.build_eq_ok_iff.1 hbuild
  rw [← hfreeze]
  exact Builder.filled_freeze (Builder.sound_run (Builder.sound_new c) calls)
    (Builder.laid_run c calls) (Builder.knowsAllBikes_run (Builder.knowsAllBikes_new c) calls)

lemma StopEvent.rowM_eq_ok {n position : Nat} {event : StopEvent}
    (h : (position, event) ∈ StopEvent.all n) :
    event.rowM n position = .ok (event.row position) := by
  obtain ⟨hposition, harrival, hdeparture⟩ := StopEvent.mem_all_iff.1 h
  cases event with
  | arrival =>
    have := harrival rfl
    rw [rowM, require_eq_ok hposition, ok_bind, difference_eq_ok (by omega)]
    rfl
  | departure =>
    have := hdeparture rfl
    rw [rowM, require_eq_ok (by omega)]
    rfl

namespace Timetable

variable {tt : Timetable} {r : RouteIndex} {route : Route} {t : TransportIndex}
  {l : LocationIndex} {column position : Nat} {event : StopEvent}

lemma exists_route (hr : r.val < tt.nbOfRoutes) : ∃ route, tt.routes[r.val]? = some route :=
  ⟨_, Array.getElem?_eq_getElem hr⟩

lemma stops_of_route (h : tt.routes[r.val]? = some route) : tt.stops r = route.stops := by
  unfold stops route?
  rw [h]
  rfl

lemma transportsOf_of_route (h : tt.routes[r.val]? = some route) :
    tt.transportsOf r = route.transports := by
  unfold transportsOf route?
  rw [h]
  rfl

lemma lt_nbOfRoutes_of_contains (h : (tt.transportsOf r).contains t = true) :
    r.val < tt.nbOfRoutes := by
  by_contra hr
  have hnone : tt.routes[r.val]? = none := Array.getElem?_eq_none (Nat.le_of_not_lt hr)
  unfold transportsOf route? at h
  rw [hnone, IndexRange.contains_iff] at h
  dsimp at h
  omega

lemma stopsM_eq_ok (hr : r.val < tt.nbOfRoutes) : tt.stopsM r = .ok (tt.stops r) := by
  obtain ⟨route, hroute⟩ := exists_route hr
  rw [stopsM, routeM, item_eq_ok hroute, ok_bind, stops_of_route hroute]
  rfl

lemma transportsOfM_eq_ok (hr : r.val < tt.nbOfRoutes) :
    tt.transportsOfM r = .ok (tt.transportsOf r) := by
  obtain ⟨route, hroute⟩ := exists_route hr
  rw [transportsOfM, routeM, item_eq_ok hroute, ok_bind, transportsOf_of_route hroute]
  rfl

lemma exists_mainClass (hr : r.val < tt.nbOfRoutes) :
    ∃ c, tt.mainClassM r = .ok c ∧ tt.mainClass? r = some c := by
  obtain ⟨route, hroute⟩ := exists_route hr
  refine ⟨route.mainClass, ?_, ?_⟩
  · rw [mainClassM, routeM, item_eq_ok hroute]
    rfl
  · unfold mainClass? route?
    rw [hroute]
    rfl

lemma timesAtM_eq_ok (hf : tt.Filled) (hr : r.val < tt.nbOfRoutes)
    (he : (position, event) ∈ StopEvent.all (tt.stops r).size) :
    tt.timesAtM r position event = .ok (tt.timesAt r position event) ∧
      (tt.timesAt r position event).length = (tt.transportsOf r).size := by
  obtain ⟨route, hroute⟩ := exists_route hr
  have hfilled := hf.routes hroute
  rw [stops_of_route hroute] at he
  have hrow : event.row position < route.times.rows := by
    rw [hfilled.rows_eq]
    exact (StopEvent.row_lt he).1
  have hlength : (route.times.row (event.row position)).length = route.transports.size :=
    (Grid.length_row _ hrow).trans hfilled.columns_eq
  have htimes : tt.timesAt r position event = route.times.row (event.row position) := by
    unfold timesAt route?
    rw [hroute]
    rfl
  rw [htimes, transportsOf_of_route hroute]
  refine ⟨?_, hlength⟩
  rw [timesAtM, routeM, item_eq_ok hroute, ok_bind, StopEvent.rowM_eq_ok he, ok_bind,
    require_eq_ok hrow, ok_bind, stretch_eq_ok (Nat.zero_le _) hlength.ge,
    List.extract_eq_take_drop, List.drop_zero, Nat.sub_zero, List.take_of_length_le hlength.le]

lemma getElem?_timesAt (hf : tt.Filled) (hr : r.val < tt.nbOfRoutes)
    (he : (position, event) ∈ StopEvent.all (tt.stops r).size)
    (hcolumn : column < (tt.transportsOf r).size) :
    (tt.timesAt r position event)[column]? = some (tt.columnTime r column position event) := by
  obtain ⟨route, hroute⟩ := exists_route hr
  have hrow : (tt.timesAt r position event)[column]? =
      route.times.get? (event.row position) column := by
    unfold timesAt route?
    rw [hroute]
    exact Grid.getElem?_row _ _ _
  have htime : tt.columnTime r column position event =
      (route.times.get? (event.row position) column).getD .midnight := by
    unfold columnTime route?
    rw [hroute]
    rfl
  rw [htime, ← hrow, List.getElem?_eq_getElem ((timesAtM_eq_ok hf hr he).2 ▸ hcolumn)]
  rfl

lemma columnTimeM_eq_ok (hf : tt.Filled) (hr : r.val < tt.nbOfRoutes)
    (he : (position, event) ∈ StopEvent.all (tt.stops r).size)
    (hcolumn : column < (tt.transportsOf r).size) :
    tt.columnTimeM r column position event = .ok (tt.columnTime r column position event) := by
  obtain ⟨route, hroute⟩ := exists_route hr
  have hfilled := hf.routes hroute
  rw [stops_of_route hroute] at he
  rw [transportsOf_of_route hroute] at hcolumn
  have hrow : event.row position < route.times.rows := by
    rw [hfilled.rows_eq]
    exact (StopEvent.row_lt he).1
  unfold columnTimeM routeM columnTime route?
  rw [item_eq_ok hroute, ok_bind, StopEvent.rowM_eq_ok he, ok_bind, hroute,
    Grid.getM_eq_ok hrow (by rw [hfilled.columns_eq]; exact hcolumn) .midnight]
  rfl

lemma eventTimeM_eq_ok (hw : tt.WellFormed) (hf : tt.Filled)
    (ht : (tt.transportsOf r).contains t = true)
    (he : (position, event) ∈ StopEvent.all (tt.stops r).size) :
    tt.eventTimeM r t position event = .ok (tt.eventTime t position event) := by
  have hr := lt_nbOfRoutes_of_contains ht
  obtain ⟨hle, hlt⟩ := IndexRange.contains_iff.1 ht
  -- the transports of a route are numbered without gaps, and so are its columns
  have hcolumn : t.val - (tt.transportsOf r).start.val < (tt.transportsOf r).size := by omega
  rw [eventTimeM, transportsOfM_eq_ok hr, ok_bind, difference_eq_ok hle, ok_bind,
    require_eq_ok hcolumn, ok_bind, columnTimeM_eq_ok hf hr he hcolumn]
  unfold eventTime
  rw [hw.route_of ht]

lemma exists_daysOf (hf : tt.Filled) (ht : (tt.transportsOf r).contains t = true) :
    ∃ days, tt.daysOfM t = .ok days ∧ tt.daysOf? t = some days := by
  obtain ⟨x, hx⟩ := hf.served ht
  obtain ⟨days, hdays⟩ := hf.serviceDays hx
  refine ⟨days, ?_, ?_⟩
  · rw [daysOfM, transportM, item_eq_ok hx, ok_bind, item_eq_ok hdays]
  · unfold daysOf? transport? ServiceDaysStore.get?
    rw [hx, Option.bind_some, hdays]

lemma isActiveM_eq_ok (hf : tt.Filled) (ht : (tt.transportsOf r).contains t = true) (d : Day) :
    tt.isActiveM t d = .ok (tt.isActive t d) := by
  obtain ⟨days, hdays, hdays?⟩ := exists_daysOf hf ht
  rw [isActiveM, hdays, ok_bind, isActive, hdays?]
  rfl

lemma allowsM_eq_ok (hf : tt.Filled) (hr : r.val < tt.nbOfRoutes)
    (hposition : position + 1 < (tt.stops r).size) :
    tt.bikes.allowsM r position = .ok ((tt.bikeAccess r).allows position) := by
  obtain ⟨route, hroute⟩ := exists_route hr
  rw [stops_of_route hroute] at hposition
  unfold BikeTable.allowsM bikeAccess BikeTable.access
  cases hall : tt.bikes.onAll r with
  | true => rfl
  | false =>
    cases hsome : tt.bikes.onSome r with
    | false => rfl
    | true =>
      obtain ⟨hlt, hlength⟩ := hf.bikes hroute hall hsome
      obtain ⟨allowed, hallowed⟩ : ∃ allowed, (tt.bikes.sections.get r)[position]? = some allowed :=
        ⟨_, List.getElem?_eq_getElem (by omega)⟩
      simp only [Bool.false_eq_true, if_false, if_true, Buckets.getM_eq_ok hlt, ok_bind,
        item_toArray_eq_ok hallowed, BikeAccess.allows, hallowed, Option.getD_some]

lemma routesAtM_eq_ok (hf : tt.Filled) (hl : l.val < tt.nbOfLocations) :
    tt.routesAtM l = .ok (tt.routesAt l) :=
  Buckets.getM_eq_ok (by rw [hf.routesByLocation_size]; exact hl)

lemma footpathsM_eq_ok (hf : tt.Filled) (hl : l.val < tt.nbOfLocations) (dir : Direction) :
    tt.footpathsM dir l = .ok (tt.footpaths dir l) := by
  cases dir with
  | forward => exact Buckets.getM_eq_ok (by rw [hf.footpathsFrom_size]; exact hl)
  | backward => exact Buckets.getM_eq_ok (by rw [hf.footpathsTo_size]; exact hl)

lemma timedFootpathsM_eq_ok (hf : tt.Filled) (hl : l.val < tt.nbOfLocations) (dir : Direction) :
    tt.timedFootpathsM dir l = .ok (tt.timedFootpaths dir l) := by
  cases dir with
  | forward => exact Buckets.getM_eq_ok (by rw [hf.timedFootpathsFrom_size]; exact hl)
  | backward => exact Buckets.getM_eq_ok (by rw [hf.timedFootpathsTo_size]; exact hl)

lemma transferTimeM_eq_ok (hl : l.val < tt.nbOfLocations) :
    tt.locations.transferTimeM l = .ok (tt.locations.transferTime l) := by
  have hget : tt.locations.entries[l.val]? = some tt.locations.entries[l.val] :=
    Array.getElem?_eq_getElem hl
  unfold Locations.transferTimeM Locations.transferTime Locations.get?
  rw [item_eq_ok hget, hget]
  rfl

end Timetable

namespace TimedFootpath

variable {fs : List TimedFootpath}

lemma runEnd_le_length {first : Nat} (target : LocationIndex) (h : first ≤ fs.length) :
    runEnd fs first target ≤ fs.length := by
  have hle : (fs.drop first).findIdx (fun f => f.target != target) ≤ (fs.drop first).length :=
    List.findIdx_le_length
  rw [List.length_drop] at hle
  rw [runEnd_eq target h]
  omega

lemma runsFromM_eq_ok (fs : List TimedFootpath) (first : Nat) :
    runsFromM fs first = .ok (runsFrom fs first) := by
  fun_induction runsFrom fs first with
  | case1 first h stop hlt ih =>
    have hstop : stop ≤ fs.length := runEnd_le_length _ h.le
    rw [runsFromM, dif_pos h]
    dsimp only
    rw [stretch_eq_ok hlt.le hstop, ok_bind, ih]
    rfl
  | case2 first h =>
    rw [runsFromM, dif_neg h]
    rfl

lemma walksM_eq_ok (dir : Direction) (fs : List TimedFootpath) (t : Instant) :
    walksM dir fs t = .ok (walks dir fs t) := by
  rw [walksM, runsFromM_eq_ok]
  rfl

/-- What comes before a target does not end after what comes up to it. -/
lemma runToM_eq_ok (hs : SortedByTarget fs) (target : LocationIndex) :
    runToM fs target = .ok (runTo fs target) := by
  have htest : ∀ p : LocationIndex → Bool, partitionPointM fs.toArray.size (fun i => do
      let f ← item fs.toArray i
      return p f.target) = .ok (partitionPoint fs.toArray.size fun i =>
        (fs.toArray[i]?.map fun f => p f.target).getD false) := by
    refine fun p => partitionPointM_eq_ok fun i hi => ?_
    have hget : fs.toArray[i]? = some fs.toArray[i] := Array.getElem?_eq_getElem hi
    rw [item_eq_ok hget, hget]
    rfl
  have hle : (partitionPoint fs.toArray.size fun i =>
      (fs.toArray[i]?.map fun f => decide (f.target < target)).getD false) ≤
        partitionPoint fs.toArray.size fun i =>
          (fs.toArray[i]?.map fun f => decide (f.target ≤ target)).getD false := by
    rw [partitionPoint_lt hs, partitionPoint_le_target hs]
    exact Nat.le_add_right _ _
  have hstop := partitionPoint_le fs.toArray.size fun i =>
    (fs.toArray[i]?.map fun f => decide (f.target ≤ target)).getD false
  rw [List.size_toArray] at hstop
  unfold runToM runTo
  dsimp only
  rw [htest fun l => decide (l < target), ok_bind, htest fun l => decide (l ≤ target), ok_bind,
    stretch_eq_ok hle hstop, Array.toList_extract]

end TimedFootpath

end JourneyPlanner
