import Mathlib
import JourneyPlanner.Proofs.Data.Keyed
import JourneyPlanner.Proofs.Network.WellFormed

/-!
# Coherent timetables

The ranges of transports tile the transports, every table of times is full and in order,
every transport runs, and nothing refers to a location that does not exist. Every built
timetable is coherent.
-/

namespace JourneyPlanner

/-- Ranges that are not empty and follow each other, from 0 on. -/
inductive IndexRange.Tiles {k : Entity} : List (IndexRange k) → Nat → Prop
  | nil : Tiles [] 0
  | snoc {ranges : List (IndexRange k)} {n : Nat} {r : IndexRange k} : Tiles ranges n →
      r.start.val = n → 0 < r.size → Tiles (ranges ++ [r]) (n + r.size)

namespace IndexRange.Tiles

variable {k : Entity} {ranges : List (IndexRange k)} {n : Nat}

lemma size_pos (h : Tiles ranges n) : ∀ r ∈ ranges, 0 < r.size := by
  induction h with
  | nil => exact fun r hr => absurd hr List.not_mem_nil
  | snoc _ _ hpos ih =>
    intro r hr
    rcases List.mem_append.1 hr with hr | hr
    · exact ih r hr
    · rw [List.mem_singleton.1 hr]
      exact hpos

lemma flatMap_toList (h : Tiles ranges n) :
    ranges.flatMap (·.toList) = Index.firsts n := by
  induction h with
  | nil => rfl
  | @snoc ranges n r _ hstart _ ih =>
    rw [List.flatMap_append, ih, Index.firsts, Index.firsts, List.range_add, List.map_append,
      List.map_map]
    congr 1
    rw [List.flatMap_singleton, IndexRange.toList]
    refine List.map_congr_left fun i _ => ?_
    rw [nth, hstart]
    rfl

lemma stop_last (h : Tiles ranges n) {r : IndexRange k} (hr : ranges.getLast? = some r) :
    r.stop = ⟨n⟩ := by
  cases h with
  | nil => cases hr
  | snoc _ hstart _ =>
    rw [List.getLast?_concat] at hr
    cases hr
    exact Index.ext (by rw [stop, hstart])

/-- A range begins where the one before it ends. -/
lemma start_eq (h : Tiles ranges n) {i : Nat} {r s : IndexRange k} (hr : ranges[i]? = some r)
    (hs : ranges[i + 1]? = some s) : s.start = r.stop := by
  induction h with
  | nil => cases hr
  | @snoc ranges n last h hstart _ ih =>
    rw [List.getElem?_append] at hr hs
    have hi : i < ranges.length := by
      by_contra hge
      rw [if_neg (by omega), List.getElem?_eq_none (by rw [List.length_singleton]; omega)] at hs
      cases hs
    rw [if_pos hi] at hr
    by_cases hi' : i + 1 < ranges.length
    · rw [if_pos hi'] at hs
      exact ih hr hs
    · have hlast : i = ranges.length - 1 := by omega
      have hzero : i + 1 - ranges.length = 0 := by omega
      rw [if_neg hi', hzero] at hs
      cases hs
      rw [h.stop_last (by rw [List.getLast?_eq_getElem?, ← hlast, hr])]
      exact Index.ext hstart

end IndexRange.Tiles

/-- The table of a route has a row for each event and a column for each transport, and the
transports leave the first stop on their service day. -/
structure Route.Filled (r : Route) : Prop where
  rows_eq : r.times.rows = 2 * (r.stops.size - 1)
  columns_eq : r.times.columns = r.transports.size
  departs : ∀ {c : Nat} {t : ServiceTime}, r.times.get? 0 c = some t → t.minutes < minutesPerDay

lemma NewTransport.departure_normalized_lt {t : NewTransport} {s : StopTime}
    (h : t.normalized[0]? = some s) : s.departure.minutes < minutesPerDay := by
  rw [normalized, List.getElem?_map] at h
  obtain ⟨u, hu, rfl⟩ := Option.map_eq_some_iff.1 h
  have hoffset : dayOffset t.schedule = u.departure.minutes / minutesPerDay := by
    rw [dayOffset, List.head?_eq_getElem?, hu]
    rfl
  have hpos : 0 < minutesPerDay := by decide
  have hmod := Nat.mod_lt u.departure.minutes hpos
  have hdiv := Nat.div_add_mod u.departure.minutes minutesPerDay
  rw [Nat.mul_comm] at hdiv
  change u.departure.minutes - dayOffset t.schedule * minutesPerDay < minutesPerDay
  rw [hoffset]
  omega

namespace OpenRoute

lemma size_pos_of_close {o : OpenRoute} {r : Route} (h : o.close = .ok r) :
    0 < o.schedules.size := by
  unfold close at h
  split at h
  · cases h
  · rename_i hempty
    rw [Array.isEmpty_iff_size_eq_zero] at hempty
    exact Nat.pos_of_ne_zero hempty

/-- The transports of an open route leave the first stop on their service day. -/
def Departs (o : OpenRoute) : Prop :=
  ∀ ts ∈ o.schedules, ∀ s, ts[0]? = some s → s.departure.minutes < minutesPerDay

lemma Closes.filled {o : OpenRoute} {r : Route} (h : Closes o r) (hn : 2 ≤ o.stops.size)
    (hdeparts : o.Departs) : r.Filled := by
  refine ⟨h.rows_eq hn, h.columns_eq, ?_⟩
  intro c t ht
  have hin := Grid.get?_isSome_iff.1 (Option.isSome_of_eq_some ht)
  have hc : c < o.schedules.size := by
    rw [h.columns_eq, h.transports_eq] at hin
    exact hin.2
  obtain ⟨e, he, het⟩ := h.get?_times hn (i := 0) (by omega) hc
  have hzero : e = (0, StopEvent.departure) := by
    rw [StopEvent.getElem?_all hn, if_pos (by omega)] at he
    exact (Option.some.inj he).symm
  cases ht.symm.trans het
  rw [hzero, NewTransport.eventAt]
  cases hs : o.schedules[c][0]? with
  | none => decide
  | some s => exact hdeparts _ (Array.getElem_mem hc) s hs

end OpenRoute

/-- What every built timetable is like. -/
structure Timetable.Coherent (tt : Timetable) : Prop where
  ranges_nonempty : ∀ r : RouteIndex, r.val < tt.nbOfRoutes → (tt.transportsOf r).isEmpty = false
  ranges_follow : ∀ r : RouteIndex, r.val + 1 < tt.nbOfRoutes →
    (tt.transportsOf ⟨r.val + 1⟩).start = (tt.transportsOf r).stop
  ranges_partition : (Index.firsts tt.nbOfRoutes).flatMap (fun r => (tt.transportsOf r).toList) =
    Index.firsts tt.nbOfTransports
  routeOf_eq_iff : ∀ (t : TransportIndex) (r : RouteIndex), t.val < tt.nbOfTransports →
    (tt.routeOf t = r ↔ (tt.transportsOf r).contains t = true)
  two_le_stops : ∀ r : RouteIndex, r.val < tt.nbOfRoutes → 2 ≤ (tt.stops r).size
  time_lt : ∀ t position event, (tt.eventTime t position event).minutes < 7200
  departure_lt : ∀ t, (tt.eventTime t 0 .departure).minutes < 1440
  along : ∀ t : TransportIndex, t.val < tt.nbOfTransports →
    (StopEvent.all (tt.stops (tt.routeOf t)).size).Pairwise fun e f =>
      tt.eventTime t e.1 e.2 ≤ tt.eventTime t f.1 f.2
  rows_full : ∀ r position event, (position, event) ∈ StopEvent.all (tt.stops r).size →
    (tt.timesAt r position event).length = (tt.transportsOf r).size
  rows_sorted : ∀ r position event, (tt.timesAt r position event).Pairwise (· ≤ ·)
  runs : ∀ t : TransportIndex, t.val < tt.nbOfTransports → ∃ d, tt.isActive t d = true
  days_lt : ∀ t d, tt.isActive t d = true → d.number < tt.calendar.nbOfDays
  stops_known : ∀ r, ∀ stop ∈ tt.stops r, stop.location.val < tt.nbOfLocations
  footpaths_known : ∀ dir l, ∀ f ∈ tt.footpaths dir l,
    l.val < tt.nbOfLocations ∧ f.target.val < tt.nbOfLocations
  timedFootpaths_known : ∀ dir l, ∀ f ∈ tt.timedFootpaths dir l,
    l.val < tt.nbOfLocations ∧ f.target.val < tt.nbOfLocations
  parents_known : ∀ l, ∀ p ∈ tt.locations.parent? l, p.val < tt.nbOfLocations
  routesAt_sorted : ∀ l, (tt.routesAt l).Pairwise (· < ·)
  mem_routesAt_iff : ∀ l r, r ∈ tt.routesAt l ↔ ∃ stop ∈ tt.stops r, stop.location = l

namespace Builder

variable {b : Builder}

/-- The number of transports of closed routes. -/
def nbOfPlaced (b : Builder) : Nat :=
  (b.openRoute.map (·.firstTransport.val)).getD b.transports.size

/-- The transports of a builder are laid out route after route. -/
structure Laid (b : Builder) : Prop where
  tiles : IndexRange.Tiles (b.routes.toList.map (·.transports)) b.nbOfPlaced
  filled : ∀ r ∈ b.routes, r.Filled
  departs : ∀ o, b.openRoute = some o → o.Departs
  runs : ∀ x ∈ b.transports, ∃ days, b.serviceDays.get? x.serviceDays = some days ∧
    days.isEmpty = false

lemma laid_new (c : Calendar) : (new c).Laid := by
  refine ⟨.nil, ?_, ?_, ?_⟩
  · intro r hr
    simp [new] at hr
  · intro o ho
    cases ho
  · intro x hx
    simp [new] at hx

namespace Laid

lemma intern (h : b.Laid) (days : ServiceDays) : (b.intern days).Laid := by
  refine ⟨h.tiles, h.filled, h.departs, ?_⟩
  intro x hx
  obtain ⟨found, hfound, hruns⟩ := h.runs x hx
  exact ⟨found, ServiceDaysStore.get?_intern_of_get? hfound days, hruns⟩

lemma openRoute (h : b.Laid) {o : OpenRoute} (permissions : Sections Bool) (hopens : b.Opens o) :
    Laid { b with openRoute := some o, bikes := b.bikes.register permissions } := by
  refine ⟨?_, h.filled, ?_, h.runs⟩
  · have htiles := h.tiles
    rw [nbOfPlaced, hopens.closed] at htiles
    change IndexRange.Tiles _ o.firstTransport.val
    rw [hopens.first_eq]
    exact htiles
  · intro o' ho'
    cases ho'
    intro ts hts
    rw [hopens.schedules_eq] at hts
    simp at hts

variable {r : RouteIndex} {t : NewTransport} {o : OpenRoute} {days : ServiceDays}

lemma extend (h : b.Laid) (hadmits : b.Admits r t o days) : (b.extend r t o days).Laid := by
  have hkept := h.intern days
  refine ⟨?_, h.filled, ?_, ?_⟩
  · have htiles := h.tiles
    rw [nbOfPlaced, hadmits.opened] at htiles
    exact htiles
  · intro o' ho'
    cases ho'
    intro ts hts s hs
    rcases Array.mem_push.1 hts with hts | rfl
    · exact h.departs o hadmits.opened ts hts s hs
    · exact NewTransport.departure_normalized_lt hs
  · intro x hx
    rcases Array.mem_push.1 hx with hx | rfl
    · exact hkept.runs x hx
    · exact ⟨days, ServiceDaysStore.get?_intern _ _, hadmits.runs⟩

lemma closeRoute (h : b.Laid) (hsound : b.Sound) (hopen : b.openRoute = some o) {route : Route}
    (hclose : o.close = .ok route) :
    Laid { b with routes := b.routes.push route, openRoute := none } := by
  have hfits := hsound.opened o hopen
  have hcloses := OpenRoute.closes_of_close hclose
  refine ⟨?_, ?_, ?_, h.runs⟩
  · have htiles := h.tiles
    rw [nbOfPlaced, hopen] at htiles
    -- the range of the route begins where those of the closed routes end
    have hsnoc := htiles.snoc (r := route.transports) (by rw [hcloses.transports_eq]; rfl)
      (by rw [hcloses.transports_eq]; exact OpenRoute.size_pos_of_close hclose)
    rw [hcloses.transports_eq] at hsnoc
    change IndexRange.Tiles _ b.transports.size
    rw [Array.toList_push, List.map_append, List.map_singleton, hcloses.transports_eq,
      ← hfits.last]
    exact hsnoc
  · intro r hr
    rcases Array.mem_push.1 hr with hr | rfl
    · exact h.filled r hr
    · exact hcloses.filled hfits.two_le (h.departs o hopen)
  · intro o' ho'
    cases ho'

theorem step {b' : Builder} (h : b.Laid) (hsound : b.Sound) (hstep : b.Step b') : b'.Laid := by
  cases hstep with
  | stay => exact h
  | location _ => exact ⟨h.tiles, h.filled, h.departs, h.runs⟩
  | days _ => exact h.intern _
  | opened hopens => exact h.openRoute _ hopens
  | late _ _ => exact h.intern _
  | extended hadmits _ => exact h.extend hadmits
  | spoiled _ _ => exact ⟨h.tiles, h.filled, h.departs, h.runs⟩
  | closed hopen hclose => exact h.closeRoute hsound hopen hclose
  | footpath _ _ => exact ⟨h.tiles, h.filled, h.departs, h.runs⟩
  | timedFootpath _ _ => exact ⟨h.tiles, h.filled, h.departs, h.runs⟩

end Laid

theorem laid_run (c : Calendar) (calls : List Call) : ((new c).run calls).2.Laid :=
  (run_keeps (P := fun b => b.Sound ∧ b.Laid)
    (fun _ _ hstep h => ⟨h.1.step hstep, h.2.step h.1 hstep⟩) ⟨sound_new c, laid_new c⟩ calls).2

lemma getElem?_routes_of_lt {r : RouteIndex} (h : r.val < b.freeze.nbOfRoutes) :
    ∃ route, b.routes[r.val]? = some route ∧ route ∈ b.routes :=
  ⟨_, Array.getElem?_eq_getElem h, Array.getElem_mem h⟩

/-- The ranges of all routes, in order. -/
lemma map_transportsOf_freeze :
    (Index.firsts b.freeze.nbOfRoutes).map b.freeze.transportsOf =
      b.routes.toList.map (·.transports) := by
  apply List.ext_getElem
  · rw [List.length_map, List.length_map, Index.firsts, List.length_map, List.length_range]
    rfl
  · intro i _ hi
    rw [List.length_map] at hi
    simp only [Index.firsts, List.getElem_map, List.getElem_range]
    exact transportsOf_freeze (r := ⟨i⟩) (Array.getElem?_eq_getElem hi)

lemma departure_lt_freeze (h : b.Laid) (t : TransportIndex) :
    (b.freeze.eventTime t 0 .departure).minutes < minutesPerDay := by
  change (b.freeze.cell _ 0 _).minutes < minutesPerDay
  generalize b.freeze.routeOf t = r
  cases hroute : b.routes[r.val]? with
  | none =>
    have hnone : b.freeze.route? r = none := hroute
    rw [Timetable.cell, hnone, Option.bind_none]
    decide
  | some route =>
    rw [cell_freeze hroute]
    cases htime : route.times.get? 0 (t.val - (b.freeze.transportsOf r).start.val) with
    | none => decide
    | some time => exact (h.filled route (Array.mem_of_getElem? hroute)).departs htime

lemma along_events_freeze (hb : b.Sound) (hclosed : b.openRoute = none) {t : TransportIndex}
    (ht : t.val < b.freeze.nbOfTransports) :
    (StopEvent.all (b.freeze.stops (b.freeze.routeOf t)).size).Pairwise fun e f =>
      b.freeze.eventTime t e.1 e.2 ≤ b.freeze.eventTime t f.1 f.2 := by
  have hlisted := IndexRange.contains_iff.1 (listed_freeze hb hclosed ht)
  have hroute : (b.freeze.routeOf t).val < b.routes.size := by
    by_contra hge
    have hsize := size_transportsOf_of_none (Array.getElem?_eq_none (Nat.le_of_not_lt hge))
    omega
  have htwo : 2 ≤ (b.freeze.stops (b.freeze.routeOf t)).size := by
    have hget := Array.getElem?_eq_getElem hroute
    rw [stops_freeze, hget]
    exact (hb.routes _ _ hget).two_le
  rw [List.pairwise_iff_getElem]
  intro i j hi hj hij
  have hrow := StopEvent.getElem?_all_row htwo (List.getElem?_eq_getElem hi)
  have hrow' := StopEvent.getElem?_all_row htwo (List.getElem?_eq_getElem hj)
  rw [StopEvent.length_all htwo] at hj
  change (b.freeze.cell _ _ _).minutes ≤ (b.freeze.cell _ _ _).minutes
  rw [hrow, hrow']
  exact along_freeze hb (Nat.le_of_lt hij) hj (by omega)

lemma timesAt_freeze {r : RouteIndex} {route : Route} (h : b.routes[r.val]? = some route)
    (position : Nat) (event : StopEvent) :
    b.freeze.timesAt r position event = route.times.row (event.row position) := by
  have hroute : b.freeze.route? r = some route := h
  rw [Timetable.timesAt, hroute]
  rfl

lemma rows_full_freeze (h : b.Laid) {r : RouteIndex} {position : Nat}
    {event : StopEvent} (hevent : (position, event) ∈ StopEvent.all (b.freeze.stops r).size) :
    (b.freeze.timesAt r position event).length = (b.freeze.transportsOf r).size := by
  rw [stops_freeze] at hevent
  cases hroute : b.routes[r.val]? with
  | none =>
    rw [hroute] at hevent
    exact absurd hevent List.not_mem_nil
  | some route =>
    rw [hroute] at hevent
    have hfilled := h.filled route (Array.mem_of_getElem? hroute)
    have hrow := (StopEvent.row_lt hevent).1
    rw [timesAt_freeze hroute, transportsOf_freeze hroute, ← hfilled.columns_eq]
    exact Grid.length_row _ (by rw [hfilled.rows_eq]; exact hrow)

lemma rows_sorted_freeze (hb : b.Sound) (h : b.Laid) (r : RouteIndex) (position : Nat)
    (event : StopEvent) : (b.freeze.timesAt r position event).Pairwise (· ≤ ·) := by
  cases hroute : b.routes[r.val]? with
  | none =>
    have hnone : b.freeze.route? r = none := hroute
    rw [Timetable.timesAt, hnone]
    exact .nil
  | some route =>
    have hfilled := h.filled route (Array.mem_of_getElem? hroute)
    rw [timesAt_freeze hroute, List.pairwise_iff_getElem]
    intro c d hc hd hcd
    have hget := (Grid.getElem?_row _ _ _).symm.trans (List.getElem?_eq_getElem hc)
    have hget' := (Grid.getElem?_row _ _ _).symm.trans (List.getElem?_eq_getElem hd)
    have hin := Grid.get?_isSome_iff.1 (Option.isSome_of_eq_some hget')
    rw [hfilled.rows_eq, hfilled.columns_eq] at hin
    obtain ⟨x, y, hx, hy, hle⟩ := (hb.routes _ _ hroute).inOrder.across hin.1 (Nat.le_of_lt hcd)
      hin.2
    cases hget.symm.trans hx
    cases hget'.symm.trans hy
    exact hle

lemma runs_freeze (hb : b.Sound) (h : b.Laid) {t : TransportIndex}
    (ht : t.val < b.freeze.nbOfTransports) : ∃ d, b.freeze.isActive t d = true := by
  have ht : t.val < b.transports.size := ht
  obtain ⟨days, hdays, hruns⟩ := h.runs _ (Array.getElem_mem ht)
  have hsome : ∃ i, days.days.contains i = true := by
    by_contra hnone
    have hempty : days.isEmpty = true := BitSet.isEmpty_iff.2 fun i => by
      rw [← Bool.not_eq_true]
      exact fun hi => hnone ⟨i, hi⟩
    rw [hruns] at hempty
    cases hempty
  obtain ⟨i, hi⟩ := hsome
  have hcapacity : i < days.capacity := BitSet.lt_capacity_of_contains hi
  rw [hb.serviceDays _ _ hdays] at hcapacity
  refine ⟨⟨i, Nat.lt_trans hcapacity (Calendar.nbOfDays_lt _)⟩, ?_⟩
  have htransport : b.freeze.transport? t = some b.transports[t.val] := Array.getElem?_eq_getElem ht
  have hstore : b.freeze.serviceDays = b.serviceDays := rfl
  rw [Timetable.isActive, Timetable.daysOf?, htransport, Option.bind_some, hstore, hdays]
  exact hi

lemma parents_freeze (hparents : b.locations.danglingParent? = none) {l p : LocationIndex}
    (h : b.locations.parent? l = some p) : p.val < b.locations.size := by
  obtain ⟨location, hget, _⟩ := Option.bind_eq_some_iff.1 h
  have hl : l.val < b.locations.size := (Array.getElem?_eq_some_iff.1 hget).1
  have hnone := List.findSome?_eq_none_iff.1 hparents l (Index.mem_firsts.2 hl)
  rw [h, Option.bind_some] at hnone
  by_contra hge
  rw [if_neg hge] at hnone
  cases hnone

lemma nodup_eraseDups {α : Type} [BEq α] [LawfulBEq α] (l : List α) : l.eraseDups.Nodup := by
  induction hn : l.length using Nat.strong_induction_on generalizing l with
  | _ n ih =>
    cases l with
    | nil => exact List.nodup_nil
    | cons a l =>
      rw [List.eraseDups_cons, List.nodup_cons]
      constructor
      · intro hmem
        have htest := (List.mem_filter.1 (List.mem_eraseDups.1 hmem)).2
        simp at htest
      · have hle := List.length_filter_le (fun b => !b == a) l
        rw [List.length_cons] at hn
        exact ih _ (by omega) _ rfl

/-- Every route comes after the routes of lower index, and once for each location. -/
lemma pairwise_routeEntries (b : Builder) :
    b.routeEntries.Pairwise fun x y => x.2 < y.2 ∨ x.1 ≠ y.1 := by
  rw [routeEntries, List.pairwise_flatMap]
  constructor
  · intro entry _
    rw [List.pairwise_map]
    exact (nodup_eraseDups _).imp fun hne => .inr hne
  · have hindices : (b.routes.toList.zipIdx.map Prod.snd).Pairwise (· < ·) := by
      rw [List.zipIdx_map_snd]
      exact List.pairwise_lt_range' 1
    refine (List.pairwise_map.1 hindices).imp fun hlt => ?_
    intro x hx y hy
    obtain ⟨l, _, rfl⟩ := List.mem_map.1 hx
    obtain ⟨m, _, rfl⟩ := List.mem_map.1 hy
    exact .inl hlt

lemma routesAt_sorted_freeze (b : Builder) (l : LocationIndex) :
    (b.freeze.routesAt l).Pairwise (· < ·) := by
  change ((Buckets.ofKeyed _ b.routeEntries).get l).Pairwise (· < ·)
  rw [Buckets.get_ofKeyed]
  split
  · rw [Buckets.valuesOf, List.pairwise_map]
    refine List.Pairwise.imp_of_mem ?_ ((pairwise_routeEntries b).filter _)
    intro x y hx hy hxy
    have hxl := beq_iff_eq.1 (List.mem_filter.1 hx).2
    have hyl := beq_iff_eq.1 (List.mem_filter.1 hy).2
    exact hxy.resolve_right fun hne => hne (hxl.trans hyl.symm)
  · exact .nil

lemma mem_routesAt_freeze (hb : b.Sound) {l : LocationIndex} {r : RouteIndex} :
    r ∈ b.freeze.routesAt l ↔ ∃ stop ∈ b.freeze.stops r, stop.location = l := by
  refine Buckets.mem_get_ofKeyed.trans ?_
  rw [mem_routeEntries, stops_freeze]
  constructor
  · rintro ⟨_, route, hroute, stop, hstop, hl⟩
    rw [hroute]
    exact ⟨stop, hstop, hl⟩
  · rintro ⟨stop, hstop, rfl⟩
    cases hroute : b.routes[r.val]? with
    | none =>
      rw [hroute] at hstop
      simp at hstop
    | some route =>
      rw [hroute] at hstop
      exact ⟨(hb.routes _ _ hroute).known stop hstop, route, rfl, stop, hstop, rfl⟩

lemma coherent_freeze (hb : b.Sound) (h : b.Laid) (hclosed : b.openRoute = none)
    (hparents : b.locations.danglingParent? = none) : b.freeze.Coherent := by
  have hwell := wellFormed_freeze hb hclosed
  have htiles := h.tiles
  rw [nbOfPlaced, hclosed] at htiles
  constructor
  case ranges_nonempty =>
    intro r hr
    obtain ⟨route, hroute, hmem⟩ := getElem?_routes_of_lt hr
    have hpos := htiles.size_pos route.transports (List.mem_map.2 ⟨route, by simpa using hmem, rfl⟩)
    rw [transportsOf_freeze hroute]
    exact beq_false_of_ne (Nat.ne_of_gt hpos)
  case ranges_follow =>
    intro r hr
    obtain ⟨route, hroute, _⟩ := getElem?_routes_of_lt (r := r) (Nat.lt_of_succ_lt hr)
    obtain ⟨next, hnext, _⟩ := getElem?_routes_of_lt (r := ⟨r.val + 1⟩) hr
    rw [transportsOf_freeze hroute, transportsOf_freeze hnext]
    refine htiles.start_eq (i := r.val) ?_ ?_
    · rw [List.getElem?_map, Array.getElem?_toList, hroute]
      rfl
    · rw [List.getElem?_map, Array.getElem?_toList, hnext]
      rfl
  case ranges_partition =>
    rw [← List.flatMap_map b.freeze.transportsOf (·.toList), map_transportsOf_freeze]
    exact htiles.flatMap_toList
  case routeOf_eq_iff =>
    intro t r ht
    constructor
    · rintro rfl
      exact listed_freeze hb hclosed ht
    · exact hwell.route_of
  case two_le_stops =>
    intro r hr
    obtain ⟨route, hroute, _⟩ := getElem?_routes_of_lt hr
    rw [stops_freeze, hroute]
    exact (hb.routes _ _ hroute).two_le
  case time_lt => exact fun t position event => hwell.in_span _ _ _
  case departure_lt => exact departure_lt_freeze h
  case along => exact fun t ht => along_events_freeze hb hclosed ht
  case rows_full => exact fun r position event => rows_full_freeze h
  case rows_sorted => exact rows_sorted_freeze hb h
  case runs => exact fun t ht => runs_freeze hb h ht
  case days_lt => exact fun t d => hwell.active_lt
  case stops_known =>
    intro r stop hstop
    obtain ⟨p, hp⟩ := Array.getElem?_of_mem hstop
    exact hwell.known_stop hp
  case footpaths_known =>
    intro dir l f hf
    exact ⟨hwell.footpath_known (hwell.footpath_back hf), hwell.footpath_known hf⟩
  case timedFootpaths_known =>
    intro dir l f hf
    exact ⟨hwell.timed_known (hwell.timed_back hf), hwell.timed_known hf⟩
  case parents_known => exact fun l p hp => parents_freeze hparents hp
  case routesAt_sorted => exact routesAt_sorted_freeze b
  case mem_routesAt_iff => exact fun l r => mem_routesAt_freeze hb

end Builder

/-- Every built timetable is coherent, whatever calls have built it. -/
theorem Timetable.IsBuilt.coherent {tt : Timetable} (h : tt.IsBuilt) : tt.Coherent := by
  obtain ⟨c, calls, hbuild⟩ := h
  obtain ⟨_, hclosed, hparents, hfreeze⟩ := Builder.build_eq_ok_iff.1 hbuild
  rw [← hfreeze]
  exact Builder.coherent_freeze (Builder.sound_run (Builder.sound_new c) calls)
    (Builder.laid_run c calls) hclosed hparents

namespace NightLine

def calendar : Calendar := ⟨⟨18262⟩, ⟨18264⟩, by decide, by decide⟩

def place (id : String) (parent : Option LocationIndex) : Location :=
  ⟨⟨⟨0⟩, id⟩, "", .station, parent, none, .zero⟩

def days (first second : Nat) : ServiceDays :=
  ([first, second].filterMap Day.ofNat?).foldl .insert (.empty calendar)

def vehicle (name : String) (days : ServiceDaysIndex) (departure arrival : Nat) : NewTransport :=
  { name := name
    serviceDays := days
    stopTimes := [⟨.midnight, .ofNat departure⟩, ⟨.ofNat arrival, .midnight⟩]
    lines := [] }

/-- A line with two stops, and a first vehicle, which is refused before the line is there. -/
def opening : List Call :=
  [.location (place "a" none), .location (place "b" none), .location (place "c" (some ⟨1⟩)),
    .serviceDays (days 6 7), .serviceDays (days 5 6),
    .transport ⟨0⟩ (vehicle "first" ⟨0⟩ 480 490),
    .route [⟨⟨0⟩, true, true⟩, ⟨⟨1⟩, true, true⟩] [.bus] [false],
    .transport ⟨0⟩ (vehicle "first" ⟨0⟩ 480 490)]

/-- A second vehicle leaves twenty minutes after the first one, and needs more than a day. It is
told from the day before. -/
def second : NewTransport := vehicle "second" ⟨1⟩ 1940 4440

def closing : List Call := [.finishRoute, .footpath ⟨1⟩ ⟨2⟩ .zero]

def builder : Builder := ((Builder.new calendar).run (opening ++ .transport ⟨0⟩ second :: closing)).2

def timetable : Timetable := builder.freeze

lemma build_eq : builder.build = .ok timetable :=
  Builder.build_eq_ok_iff.2 ⟨by cbv, by cbv, by cbv, rfl⟩

lemma isBuilt : timetable.IsBuilt := ⟨calendar, _, build_eq⟩

theorem coherent_timetable : timetable.IsBuilt ∧ timetable.Coherent :=
  ⟨isBuilt, Timetable.IsBuilt.coherent isBuilt⟩

end NightLine

end JourneyPlanner
