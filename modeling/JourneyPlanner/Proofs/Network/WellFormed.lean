import JourneyPlanner.Proofs.Data.Keyed
import JourneyPlanner.Proofs.Network.Building
import JourneyPlanner.Proofs.Network.TimedRuns

/-!
# Well-formed timetables

What a search relies on without looking: the tables of times are in order, the routes of
a location are all listed, and every footpath is seen from both of its ends. Every built
timetable is well formed.
-/

namespace JourneyPlanner

/-- A timed footpath to another target. -/
def TimedFootpath.to (l : LocationIndex) (f : TimedFootpath) : TimedFootpath := { f with target := l }

namespace Timetable

/-- The time in a row and a column of the table of a route. -/
def cell (tt : Timetable) (r : RouteIndex) (row column : Nat) : ServiceTime :=
  ((tt.route? r).bind (·.times.get? row column)).getD .midnight

lemma columnTime_eq_cell (tt : Timetable) (r : RouteIndex) (column position : Nat)
    (event : StopEvent) :
    tt.columnTime r column position event = tt.cell r (event.row position) column := rfl

/-- The number of rows of the table of a route. -/
def nbOfEvents (tt : Timetable) (r : RouteIndex) : Nat := 2 * ((tt.stops r).size - 1)

structure WellFormed (tt : Timetable) : Prop where
  route_of : ∀ {r t}, (tt.transportsOf r).contains t = true → tt.routeOf t = r
  known_stop : ∀ {r : RouteIndex} {p : Nat} {stop : RouteStop}, (tt.stops r)[p]? = some stop →
    stop.location.val < tt.nbOfLocations
  listed : ∀ {r : RouteIndex} {p : Nat} {stop : RouteStop}, (tt.stops r)[p]? = some stop →
    r ∈ tt.routesAt stop.location
  listed_lt : ∀ {r : RouteIndex} {l : LocationIndex}, r ∈ tt.routesAt l → r.val < tt.nbOfRoutes
  along : ∀ {r i j c}, i ≤ j → j < tt.nbOfEvents r → c < (tt.transportsOf r).size →
    (tt.cell r i c).minutes ≤ (tt.cell r j c).minutes
  across : ∀ {r i c d}, i < tt.nbOfEvents r → c ≤ d → d < (tt.transportsOf r).size →
    (tt.cell r i c).minutes ≤ (tt.cell r i d).minutes
  in_span : ∀ r i c, (tt.cell r i c).minutes < maxDaysInTrip * minutesPerDay
  active_lt : ∀ {t d}, tt.isActive t d = true → d.number < tt.calendar.nbOfDays
  active_listed : ∀ {t d}, tt.isActive t d = true →
    (tt.transportsOf (tt.routeOf t)).contains t = true
  footpath_back : ∀ {dir l f}, f ∈ tt.footpaths dir l →
    ⟨l, f.duration⟩ ∈ tt.footpaths dir.opposite f.target
  footpath_known : ∀ {dir l f}, f ∈ tt.footpaths dir l → f.target.val < tt.nbOfLocations
  timed_back : ∀ {dir l f}, f ∈ tt.timedFootpaths dir l →
    ⟨l, f.validFrom, f.duration⟩ ∈ tt.timedFootpaths dir.opposite f.target
  timed_known : ∀ {dir l f}, f ∈ tt.timedFootpaths dir l → f.target.val < tt.nbOfLocations
  timed_sorted : ∀ dir l, TimedFootpath.SortedByTarget (tt.timedFootpaths dir l)
  timed_runs : ∀ l m, TimedFootpath.entriesTo (tt.timedFootpaths .backward m) l =
    (TimedFootpath.entriesTo (tt.timedFootpaths .forward l) m).map (TimedFootpath.to l)

end Timetable

namespace Builder

lemma mem_routeEntries {b : Builder} {l : LocationIndex} {r : RouteIndex} :
    (l, r) ∈ b.routeEntries ↔
      ∃ route, b.routes[r.val]? = some route ∧ ∃ stop ∈ route.stops, stop.location = l := by
  simp only [routeEntries, List.mem_flatMap, List.mem_map, Prod.mk.injEq, Prod.exists,
    List.mem_zipIdx_iff_getElem?]
  constructor
  · rintro ⟨route, i, hroute, l', hl', rfl, rfl⟩
    have hmem := List.mem_eraseDups.1 hl'
    obtain ⟨stop, hstop, rfl⟩ := List.mem_map.1 hmem
    exact ⟨route, by simpa using hroute, stop, by simpa using hstop, rfl⟩
  · rintro ⟨route, hroute, stop, hstop, rfl⟩
    refine ⟨route, r.val, by simpa using hroute, stop.location, ?_, rfl, rfl⟩
    exact List.mem_eraseDups.2 (List.mem_map.2 ⟨stop, by simpa using hstop, rfl⟩)

lemma mem_footpathsFrom {b : Builder} {l : LocationIndex} {f : Footpath} :
    f ∈ b.freeze.footpathsFrom.get l ↔ l.val < b.locations.size ∧ (l, f) ∈ b.footpaths := by
  unfold freeze
  rw [Buckets.mem_get_ofKeyed, List.mem_mergeSort]
  exact and_congr_right fun _ => Array.mem_toList_iff

lemma reversed_involutive : Function.Involutive reversed := fun _ => rfl

lemma reversedTimed_involutive : Function.Involutive reversedTimed := fun _ => rfl

lemma mem_footpathsTo {b : Builder} {l : LocationIndex} {f : Footpath} :
    f ∈ b.freeze.footpathsTo.get l ↔
      l.val < b.locations.size ∧ (f.target, ⟨l, f.duration⟩) ∈ b.footpaths := by
  unfold freeze
  rw [Buckets.mem_get_ofKeyed, List.mem_mergeSort, List.mem_map,
    reversed_involutive.exists_mem_and_apply_eq_iff, List.mem_mergeSort]
  exact and_congr_right fun _ => Array.mem_toList_iff

lemma mem_timedFootpathsFrom {b : Builder} {l : LocationIndex} {f : TimedFootpath} :
    f ∈ b.freeze.timedFootpathsFrom.get l ↔
      l.val < b.locations.size ∧ (l, f) ∈ b.timedFootpaths := by
  unfold freeze
  rw [Buckets.mem_get_ofKeyed, List.mem_mergeSort]
  exact and_congr_right fun _ => Array.mem_toList_iff

lemma mem_timedFootpathsTo {b : Builder} {l : LocationIndex} {f : TimedFootpath} :
    f ∈ b.freeze.timedFootpathsTo.get l ↔ l.val < b.locations.size ∧
      (f.target, ⟨l, f.validFrom, f.duration⟩) ∈ b.timedFootpaths := by
  unfold freeze
  rw [Buckets.mem_get_ofKeyed, List.mem_mergeSort, List.mem_map,
    reversedTimed_involutive.exists_mem_and_apply_eq_iff, List.mem_mergeSort]
  exact and_congr_right fun _ => Array.mem_toList_iff

lemma timedFootpathLe_iff {x y : LocationIndex × TimedFootpath} :
    timedFootpathLe x y = true ↔ x.1.val < y.1.val ∨ (x.1.val = y.1.val ∧
      (x.2.target.val < y.2.target.val ∨ (x.2.target.val = y.2.target.val ∧
        x.2.validFrom.minutes ≤ y.2.validFrom.minutes))) := by
  have hval : ∀ l m : LocationIndex, l = m ↔ l.val = m.val :=
    fun l m => ⟨fun h => by rw [h], Index.ext⟩
  simp only [timedFootpathLe, Bool.or_eq_true, Bool.and_eq_true, decide_eq_true_eq, beq_iff_eq,
    hval]
  exact Iff.rfl

lemma timedFootpathLe_trans (x y z : LocationIndex × TimedFootpath)
    (hxy : timedFootpathLe x y = true) (hyz : timedFootpathLe y z = true) :
    timedFootpathLe x z = true := by
  rw [timedFootpathLe_iff] at *
  omega

lemma timedFootpathLe_total (x y : LocationIndex × TimedFootpath) :
    (timedFootpathLe x y || timedFootpathLe y x) = true := by
  rw [Bool.or_eq_true, timedFootpathLe_iff, timedFootpathLe_iff]
  omega

/-- The timed footpaths of one location are in the order of their targets. -/
lemma sortedByTarget_get (n : Nat) (entries : List (LocationIndex × TimedFootpath))
    (l : LocationIndex) :
    TimedFootpath.SortedByTarget
      ((Buckets.ofKeyed n (entries.mergeSort timedFootpathLe)).get l) := by
  have hsorted := List.pairwise_mergeSort timedFootpathLe_trans timedFootpathLe_total entries
  refine Buckets.pairwise_get_ofKeyed (hsorted.imp fun {x y} hxy hkey => ?_) n l
  have hval : x.1.val = y.1.val := congrArg Index.val hkey
  rw [timedFootpathLe_iff] at hxy
  omega

/-- The entries of one location to another one, with the location. -/
def entriesBetween (entries : List (LocationIndex × TimedFootpath)) (l m : LocationIndex) :
    List (LocationIndex × TimedFootpath) :=
  entries.filter fun x => x.1 == l && x.2.target == m

lemma entriesTo_valuesOf (entries : List (LocationIndex × TimedFootpath)) (l m : LocationIndex) :
    TimedFootpath.entriesTo (Buckets.valuesOf entries l) m =
      (entriesBetween entries l m).map Prod.snd := by
  unfold TimedFootpath.entriesTo Buckets.valuesOf entriesBetween
  rw [List.filter_map, List.filter_filter]
  congr 2
  funext x
  exact Bool.and_comm _ _

/-- The entries of one location to another one are sorted by their instants alone. -/
lemma timedFootpathLe_iff_of_between {entries : List (LocationIndex × TimedFootpath)}
    {l m : LocationIndex} {x y : LocationIndex × TimedFootpath} (hx : x ∈ entriesBetween entries l m)
    (hy : y ∈ entriesBetween entries l m) :
    timedFootpathLe x y = true ↔ x.2.validFrom ≤ y.2.validFrom := by
  have hx := Bool.and_eq_true_iff.1 (List.mem_filter.1 hx).2
  have hy := Bool.and_eq_true_iff.1 (List.mem_filter.1 hy).2
  have hle : x.2.validFrom ≤ y.2.validFrom ↔
      x.2.validFrom.minutes ≤ y.2.validFrom.minutes := Iff.rfl
  rw [timedFootpathLe_iff, beq_iff_eq.1 hx.1, beq_iff_eq.1 hx.2, beq_iff_eq.1 hy.1,
    beq_iff_eq.1 hy.2, hle]
  omega

lemma pairwise_entriesBetween (entries : List (LocationIndex × TimedFootpath))
    (l m : LocationIndex) : (entriesBetween (entries.mergeSort timedFootpathLe) l m).Pairwise
      fun x y => x.2.validFrom ≤ y.2.validFrom :=
  ((List.pairwise_mergeSort timedFootpathLe_trans timedFootpathLe_total entries).filter _).imp_of_mem
    fun hx hy hxy => (timedFootpathLe_iff_of_between hx hy).1 hxy

lemma entriesBetween_map_reversed (entries : List (LocationIndex × TimedFootpath))
    (l m : LocationIndex) : entriesBetween (entries.map reversedTimed) m l =
      (entriesBetween entries l m).map reversedTimed := by
  unfold entriesBetween
  rw [List.filter_map]
  congr 2
  funext x
  exact Bool.and_comm _ _

/-- The footpaths from one location to another one are in the same order at both of them. -/
lemma entriesBetween_reversed (entries : List (LocationIndex × TimedFootpath))
    (l m : LocationIndex) :
    entriesBetween (((entries.mergeSort timedFootpathLe).map reversedTimed).mergeSort
        timedFootpathLe) m l =
      (entriesBetween (entries.mergeSort timedFootpathLe) l m).map reversedTimed := by
  rw [← entriesBetween_map_reversed]
  refine filter_mergeSort_of_pairwise timedFootpathLe_trans timedFootpathLe_total _ ?_
  have hbetween : (entriesBetween ((entries.mergeSort timedFootpathLe).map reversedTimed) m
      l).Pairwise fun x y => x.2.validFrom ≤ y.2.validFrom := by
    rw [entriesBetween_map_reversed, List.pairwise_map]
    exact pairwise_entriesBetween entries l m
  exact hbetween.imp_of_mem fun hx hy hxy => (timedFootpathLe_iff_of_between hx hy).2 hxy

variable {b : Builder}

lemma stops_freeze (r : RouteIndex) :
    b.freeze.stops r = ((b.routes[r.val]?).map (·.stops)).getD #[] := rfl

lemma stop_of_freeze {r : RouteIndex} {p : Nat} {stop : RouteStop}
    (h : (b.freeze.stops r)[p]? = some stop) :
    ∃ route, b.routes[r.val]? = some route ∧ stop ∈ route.stops := by
  rw [stops_freeze] at h
  cases hroute : b.routes[r.val]? with
  | none => simp [hroute] at h
  | some route =>
    rw [hroute] at h
    exact ⟨route, rfl, Array.mem_of_getElem? h⟩

lemma cell_freeze {r : RouteIndex} {route : Route} (h : b.routes[r.val]? = some route)
    (i c : Nat) : b.freeze.cell r i c = (route.times.get? i c).getD .midnight := by
  have hroute : b.freeze.route? r = some route := h
  rw [Timetable.cell, hroute, Option.bind_some]

lemma size_transportsOf_of_none {r : RouteIndex} (h : b.routes[r.val]? = none) :
    (b.freeze.transportsOf r).size = 0 := by
  have hroute : b.freeze.route? r = none := h
  rw [Timetable.transportsOf, hroute]
  rfl

lemma transportsOf_freeze {r : RouteIndex} {route : Route} (h : b.routes[r.val]? = some route) :
    b.freeze.transportsOf r = route.transports := by
  have hroute : b.freeze.route? r = some route := h
  rw [Timetable.transportsOf, hroute]
  rfl

lemma nbOfEvents_freeze {r : RouteIndex} {route : Route} (h : b.routes[r.val]? = some route) :
    b.freeze.nbOfEvents r = 2 * (route.stops.size - 1) := by
  rw [Timetable.nbOfEvents, stops_freeze, h]
  rfl

lemma along_freeze (hb : b.Sound) {r : RouteIndex} {i j c : Nat} (hij : i ≤ j)
    (hj : j < b.freeze.nbOfEvents r) (hc : c < (b.freeze.transportsOf r).size) :
    (b.freeze.cell r i c).minutes ≤ (b.freeze.cell r j c).minutes := by
  cases hroute : b.routes[r.val]? with
  | none =>
    rw [size_transportsOf_of_none hroute] at hc
    exact absurd hc (Nat.not_lt_zero _)
  | some route =>
    rw [nbOfEvents_freeze hroute] at hj
    rw [transportsOf_freeze hroute] at hc
    obtain ⟨t, u, ht, hu, hle⟩ := (hb.routes _ _ hroute).inOrder.along hij hj hc
    rw [cell_freeze hroute, cell_freeze hroute, ht, hu]
    exact hle

lemma across_freeze (hb : b.Sound) {r : RouteIndex} {i c d : Nat}
    (hi : i < b.freeze.nbOfEvents r) (hcd : c ≤ d) (hd : d < (b.freeze.transportsOf r).size) :
    (b.freeze.cell r i c).minutes ≤ (b.freeze.cell r i d).minutes := by
  cases hroute : b.routes[r.val]? with
  | none =>
    rw [size_transportsOf_of_none hroute] at hd
    exact absurd hd (Nat.not_lt_zero _)
  | some route =>
    rw [nbOfEvents_freeze hroute] at hi
    rw [transportsOf_freeze hroute] at hd
    obtain ⟨t, u, ht, hu, hle⟩ := (hb.routes _ _ hroute).inOrder.across hi hcd hd
    rw [cell_freeze hroute, cell_freeze hroute, ht, hu]
    exact hle

lemma in_span_freeze (hb : b.Sound) (r : RouteIndex) (i c : Nat) :
    (b.freeze.cell r i c).minutes < maxDaysInTrip * minutesPerDay := by
  cases hroute : b.routes[r.val]? with
  | none =>
    have hnone : b.freeze.route? r = none := hroute
    rw [Timetable.cell, hnone]
    exact Nat.mul_pos (by decide) (by decide)
  | some route =>
    rw [cell_freeze hroute]
    cases ht : route.times.get? i c with
    | none => exact Nat.mul_pos (by decide) (by decide)
    | some t => exact (hb.routes _ _ hroute).inOrder.in_span ht

lemma routeOf_freeze (hb : b.Sound) {r : RouteIndex} {t : TransportIndex}
    (h : (b.freeze.transportsOf r).contains t = true) : b.freeze.routeOf t = r := by
  cases hroute : b.routes[r.val]? with
  | none =>
    rw [IndexRange.contains_iff, size_transportsOf_of_none hroute] at h
    omega
  | some route =>
    rw [transportsOf_freeze hroute] at h
    obtain ⟨x, hx, hxr⟩ := (hb.routes _ _ hroute).served t h
    have hx' : b.freeze.transport? t = some x := hx
    rw [Timetable.routeOf, hx']
    exact Index.ext hxr

lemma active_lt_freeze (hb : b.Sound) {t : TransportIndex} {d : Day}
    (h : b.freeze.isActive t d = true) : d.number < b.freeze.calendar.nbOfDays := by
  unfold Timetable.isActive Timetable.daysOf? at h
  cases hx : b.freeze.transport? t with
  | none =>
    rw [hx] at h
    cases h
  | some x =>
    rw [hx, Option.bind_some] at h
    cases hdays : b.freeze.serviceDays.get? x.serviceDays with
    | none =>
      rw [hdays] at h
      cases h
    | some days =>
      rw [hdays, Option.map_some, Option.getD_some] at h
      have hlt : d.number < days.capacity := BitSet.lt_capacity_of_contains h
      rw [hb.serviceDays _ _ hdays] at hlt
      exact hlt

/-- A transport is among the transports of its route. -/
lemma listed_freeze (hb : b.Sound) (hclosed : b.openRoute = none) {t : TransportIndex}
    (ht : t.val < b.freeze.nbOfTransports) :
    (b.freeze.transportsOf (b.freeze.routeOf t)).contains t = true := by
  have hx : b.freeze.transport? t = some b.transports[t.val] := Array.getElem?_eq_getElem ht
  have hroute : b.freeze.routeOf t = b.transports[t.val].route := by
    rw [Timetable.routeOf, hx]
    rfl
  rcases hb.placed t.val _ hx with ⟨route, hget, hcontains⟩ | ⟨o, ho, _⟩
  · rw [hroute, transportsOf_freeze hget]
    exact hcontains
  · rw [hclosed] at ho
    cases ho

lemma active_listed_freeze (hb : b.Sound) (hclosed : b.openRoute = none) {t : TransportIndex}
    {d : Day} (h : b.freeze.isActive t d = true) :
    (b.freeze.transportsOf (b.freeze.routeOf t)).contains t = true := by
  unfold Timetable.isActive Timetable.daysOf? at h
  cases hx : b.freeze.transport? t with
  | none =>
    rw [hx] at h
    cases h
  | some x => exact listed_freeze hb hclosed (Array.getElem?_eq_some_iff.1 hx).1

/-- Timed footpaths are sorted by the location where they begin, and then by target and instant. -/
lemma entriesTo_forward (hb : b.Sound) (l m : LocationIndex) :
    TimedFootpath.entriesTo (b.freeze.timedFootpaths .forward l) m =
      (entriesBetween (b.timedFootpaths.toList.mergeSort timedFootpathLe) l m).map Prod.snd := by
  rw [← entriesTo_valuesOf, ← Buckets.get_ofKeyed_of_lt (n := b.locations.size)]
  · rfl
  · intro x hx
    exact (hb.timedFootpaths x (by simpa using hx)).1

/-- What was sorted is sorted once more, by the location where the timed footpaths end. -/
lemma entriesTo_backward (hb : b.Sound) (l m : LocationIndex) :
    TimedFootpath.entriesTo (b.freeze.timedFootpaths .backward m) l =
      (entriesBetween (((b.timedFootpaths.toList.mergeSort timedFootpathLe).map
        reversedTimed).mergeSort timedFootpathLe) m l).map Prod.snd := by
  rw [← entriesTo_valuesOf, ← Buckets.get_ofKeyed_of_lt (n := b.locations.size)]
  · rfl
  · intro x hx
    rw [List.mem_mergeSort, List.mem_map] at hx
    obtain ⟨y, hy, rfl⟩ := hx
    exact (hb.timedFootpaths y (by simpa using hy)).2

lemma timed_runs_freeze (hb : b.Sound) (l m : LocationIndex) :
    TimedFootpath.entriesTo (b.freeze.timedFootpaths .backward m) l =
      (TimedFootpath.entriesTo (b.freeze.timedFootpaths .forward l) m).map (TimedFootpath.to l) := by
  rw [entriesTo_backward hb, entriesTo_forward hb, entriesBetween_reversed, List.map_map,
    List.map_map]
  refine List.map_congr_left fun x hx => ?_
  have hx' := Bool.and_eq_true_iff.1 (List.mem_filter.1 hx).2
  rw [← beq_iff_eq.1 hx'.1]
  rfl

theorem wellFormed_freeze (hb : b.Sound) (hclosed : b.openRoute = none) :
    b.freeze.WellFormed where
  route_of := routeOf_freeze hb
  known_stop := by
    intro r p stop h
    obtain ⟨route, hroute, hstop⟩ := stop_of_freeze h
    exact (hb.routes _ _ hroute).known stop hstop
  listed := by
    intro r p stop h
    obtain ⟨route, hroute, hstop⟩ := stop_of_freeze h
    exact Buckets.mem_get_ofKeyed.2 ⟨(hb.routes _ _ hroute).known stop hstop,
      mem_routeEntries.2 ⟨route, hroute, stop, hstop, rfl⟩⟩
  listed_lt := by
    intro r l h
    obtain ⟨route, hroute, _⟩ := mem_routeEntries.1 (Buckets.mem_get_ofKeyed.1 h).2
    exact (Array.getElem?_eq_some_iff.1 hroute).1
  along := along_freeze hb
  across := across_freeze hb
  in_span := in_span_freeze hb
  active_lt := active_lt_freeze hb
  active_listed := active_listed_freeze hb hclosed
  footpath_back := by
    intro dir l f h
    cases dir with
    | forward =>
      have hf := (mem_footpathsFrom.1 h).2
      exact mem_footpathsTo.2 ⟨(hb.footpaths _ hf).2, hf⟩
    | backward =>
      have hf := (mem_footpathsTo.1 h).2
      exact mem_footpathsFrom.2 ⟨(hb.footpaths _ hf).1, hf⟩
  footpath_known := by
    intro dir l f h
    cases dir with
    | forward => exact (hb.footpaths _ (mem_footpathsFrom.1 h).2).2
    | backward => exact (hb.footpaths _ (mem_footpathsTo.1 h).2).1
  timed_back := by
    intro dir l f h
    cases dir with
    | forward =>
      have hf := (mem_timedFootpathsFrom.1 h).2
      exact mem_timedFootpathsTo.2 ⟨(hb.timedFootpaths _ hf).2, hf⟩
    | backward =>
      have hf := (mem_timedFootpathsTo.1 h).2
      exact mem_timedFootpathsFrom.2 ⟨(hb.timedFootpaths _ hf).1, hf⟩
  timed_known := by
    intro dir l f h
    cases dir with
    | forward => exact (hb.timedFootpaths _ (mem_timedFootpathsFrom.1 h).2).2
    | backward => exact (hb.timedFootpaths _ (mem_timedFootpathsTo.1 h).2).1
  timed_sorted := by
    intro dir l
    cases dir with
    | forward => exact sortedByTarget_get _ _ _
    | backward => exact sortedByTarget_get _ _ _
  timed_runs := timed_runs_freeze hb

end Builder

theorem Timetable.IsBuilt.wellFormed {tt : Timetable} (h : tt.IsBuilt) : tt.WellFormed := by
  obtain ⟨b, hb, hclosed, rfl⟩ := Builder.exists_sound_of_isBuilt h
  exact Builder.wellFormed_freeze hb hclosed

end JourneyPlanner
