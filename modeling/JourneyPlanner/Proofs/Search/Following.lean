import JourneyPlanner.Proofs.Search.Leeway
import JourneyPlanner.Proofs.Search.Itineraries

/-!
# Following an itinerary

The legs of an itinerary, in search order, are a way that the rounds of a search cover.
-/

namespace JourneyPlanner

namespace Search

variable {s : Search} {k : Nat} {x y : SearchLeg} {leg next : Leg}

/-- An instant as a time of the search. -/
def timeOf (s : Search) (t : Instant) : RelTime := s.timetable.calendar.relative s.baseDay t

/-- A leg in search order. -/
def searchLeg (s : Search) (leg : Leg) : SearchLeg :=
  match s.dir with
  | .forward => ⟨leg.source, leg.target, s.timeOf leg.departure, s.timeOf leg.arrival, leg.kind⟩
  | .backward => ⟨leg.target, leg.source, s.timeOf leg.arrival, s.timeOf leg.departure, leg.kind⟩

@[simp] lemma kind_searchLeg (leg : Leg) : (s.searchLeg leg).kind = leg.kind := by
  unfold searchLeg
  split <;> rfl

lemma Told.minutes_dayStart (htold : s.Told) :
    (s.timetable.calendar.dayStart s.baseDay).minutes = s.midnight := by
  have hfits := htold.fit s.baseDay 0 htold.known (by decide) (by decide)
  unfold midnight Calendar.midnight Calendar.dayStart
  exact Instant.minutes_wrap (by omega) (by omega)

lemma Told.cost_timeOf (htold : s.Told) {t : Instant} (h : (s.timeOf t).isFeasible = true) :
    s.dir.cost (s.timeOf t) = s.dir.sign t.minutes - s.dir.sign s.midnight := by
  unfold timeOf at *
  rw [Calendar.relative_eq] at *
  rw [Direction.cost_ofMinutes h, htold.minutes_dayStart]
  cases s.dir
  · rfl
  · simp only [Direction.sign_backward]
    omega

lemma notAfter_iff_sign {t u : Instant} :
    s.query.NotAfter t u ↔ s.dir.sign t.minutes ≤ s.dir.sign u.minutes := by
  have hle : t ≤ u ↔ t.minutes ≤ u.minutes := Iff.rfl
  have hge : u ≤ t ↔ u.minutes ≤ t.minutes := Iff.rfl
  unfold Query.NotAfter dir
  cases s.query.direction with
  | forward =>
    simp only [Direction.sign_forward, hle]
  | backward =>
    simp only [Direction.sign_backward, hge]
    omega

/-- The times of a search are in the order of their instants. -/
lemma Told.notAfter_iff (htold : s.Told) {t u : Instant} (ht : (s.timeOf t).isFeasible = true)
    (hu : (s.timeOf u).isFeasible = true) :
    s.query.NotAfter t u ↔ s.dir.cost (s.timeOf t) ≤ s.dir.cost (s.timeOf u) := by
  rw [notAfter_iff_sign, htold.cost_timeOf ht, htold.cost_timeOf hu]
  omega

/-- A leg that follows another one in travel order can be taken after it, or before it when time
runs backward. -/
lemma Told.precedes (htold : s.Told) (h : Leg.Continues s.timetable leg next)
    (hleg : (s.searchLeg leg).Timed) (hnext : (s.searchLeg next).Timed) :
    match s.dir with
    | .forward => s.Precedes (s.searchLeg leg) (s.searchLeg next)
    | .backward => s.Precedes (s.searchLeg next) (s.searchLeg leg) := by
  have hsource := h.follows.source_eq
  have hle : leg.arrival.minutes ≤ next.departure.minutes := h.follows.departure_ge
  have htransfer := h.transfer
  unfold searchLeg at *
  cases hdir : s.dir with
  | forward =>
    simp only [hdir] at hleg hnext ⊢
    have harrival := htold.cost_timeOf hleg.2
    have hdeparture := htold.cost_timeOf hnext.1
    simp only [hdir, Direction.sign_forward] at harrival hdeparture
    refine ⟨hsource, ?_, fun hx hy => ?_, h.one_walk⟩
    · rw [hdir]
      dsimp only
      omega
    · have hwait := htransfer hx hy
      rw [hdir]
      dsimp only
      omega
  | backward =>
    simp only [hdir] at hleg hnext ⊢
    have harrival := htold.cost_timeOf hleg.1
    have hdeparture := htold.cost_timeOf hnext.2
    simp only [hdir, Direction.sign_backward] at harrival hdeparture
    refine ⟨hsource.symm, ?_, fun hx hy => ?_, fun hx hy => h.one_walk hy hx⟩
    · rw [hdir]
      dsimp only
      omega
    · have hwait := htransfer hy hx
      rw [hdir, hsource]
      dsimp only
      omega

lemma Told.timeOf_eventInstant (htold : s.Told) (hw : s.timetable.WellFormed)
    {transport : TransportIndex} {day : Day} (hday : day.number < s.timetable.calendar.nbOfDays)
    (position : Nat) (event : StopEvent) :
    s.timeOf (s.timetable.eventInstant transport day position event) =
      s.eventTime ⟨transport, day⟩ position event := by
  have hspan : (s.timetable.eventTime transport position event).minutes <
      maxDaysInTrip * minutesPerDay := hw.in_span _ _ _
  have hdays : maxDaysInTrip * minutesPerDay = 7200 := rfl
  have hfirst := htold.fit day 0 hday (by decide) (by decide)
  have hfits := htold.fit day (s.timetable.eventTime transport position event).minutes hday
    (by omega) (by omega)
  have hinstant : (s.timetable.eventInstant transport day position event).minutes =
      s.timetable.calendar.origin.minutes + day.number * 1440 +
        (s.timetable.eventTime transport position event).minutes := by
    unfold Timetable.eventInstant Calendar.instantOf Calendar.dayStart
    rw [Instant.wrap_add]
    exact Instant.minutes_wrap hfits.1 hfits.2
  unfold timeOf eventTime Calendar.eventTime Day.daysSince
  rw [Calendar.relative_eq, htold.minutes_dayStart, hinstant]
  unfold midnight Calendar.midnight
  dsimp only
  congr 1
  omega

lemma allows_onSome {b : BikeAccess} {position : Nat} (h : b.allows position = true) :
    b.onSome = true := by
  cases b with
  | everywhere => rfl
  | nowhere => cases h
  | onSections _ => rfl

lemma admits_of_isRide {tt : Timetable} {q : Query} {transport : TransportIndex} {day : Day}
    {board alight : Nat} (h : leg.IsRide tt q transport day board alight) :
    q.admits tt (tt.routeOf transport) = true := by
  obtain ⟨c, hc, hallowed⟩ := h.class_allowed
  have hboard := h.goes_on
  unfold Query.admits
  rw [Option.mem_def.1 hc, Option.map_some, Option.getD_some, hallowed, Bool.true_and]
  cases hbikes : q.requireBikes with
  | false => rfl
  | true =>
    have hsection : board ∈ leg.sections := by
      unfold Leg.sections
      rw [h.kind_eq]
      exact List.mem_range'_1.2 ⟨Nat.le_refl _, by omega⟩
    rw [allows_onSome (h.bikes_allowed hbikes board hsection)]
    rfl

lemma canLeave_of_allows {r : RouteIndex} {position : Nat}
    (h : s.query.requireBikes = true →
      (s.timetable.bikeAccess r).allows (s.dir.sectionFrom position) = true) :
    s.query.canLeave s.timetable r position = true := by
  unfold Query.canLeave
  cases hbikes : s.query.requireBikes with
  | false => rfl
  | true => exact h hbikes

lemma passesVias_refl (s : Search) (r : RouteIndex) {first step : Nat} (v : Nat)
    (hle : first ≤ step) (hstep : step ≤ s.nbOfStops r) : s.PassesVias r first v step v := by
  induction hle with
  | refl => exact .nil
  | step hle ih =>
    obtain ⟨stop, hstop⟩ := exists_stopAt? (Nat.lt_of_succ_le hstep)
    exact (ih (Nat.le_of_succ_le hstep)).snoc hstop (PassesAt.refl s _ v)

lemma allows_of_isRide {tt : Timetable} {q : Query} {transport : TransportIndex} {day : Day}
    {board alight i : Nat} (h : leg.IsRide tt q transport day board alight)
    (hbikes : q.requireBikes = true) (hle : board ≤ i) (hlt : i < alight) :
    (tt.bikeAccess (tt.routeOf transport)).allows i = true := by
  refine h.bikes_allowed hbikes i ?_
  unfold Leg.sections
  rw [h.kind_eq]
  exact List.mem_range'_1.2 ⟨hle, by omega⟩

lemma positionAt_forward (hdir : s.dir = .forward) (r : RouteIndex) (i : Nat) :
    s.positionAt r i = i := by
  unfold positionAt
  rw [hdir]
  rfl

lemma positionAt_backward (hdir : s.dir = .backward) (r : RouteIndex) (i : Nat) :
    s.positionAt r i = s.nbOfStops r - 1 - i := by
  unfold positionAt
  rw [hdir]
  rfl

lemma boardTime_forward (hdir : s.dir = .forward) (trip : Trip) (position : Nat) :
    s.boardTime trip position = s.eventTime trip position .departure := by
  unfold boardTime
  rw [hdir]
  rfl

lemma boardTime_backward (hdir : s.dir = .backward) (trip : Trip) (position : Nat) :
    s.boardTime trip position = s.eventTime trip position .arrival := by
  unfold boardTime
  rw [hdir]
  rfl

lemma alightTime_forward (hdir : s.dir = .forward) (trip : Trip) (position : Nat) :
    s.alightTime trip position = s.eventTime trip position .arrival := by
  unfold alightTime
  rw [hdir]
  rfl

lemma alightTime_backward (hdir : s.dir = .backward) (trip : Trip) (position : Nat) :
    s.alightTime trip position = s.eventTime trip position .departure := by
  unfold alightTime
  rw [hdir]
  rfl

lemma positionAt_lt {r : RouteIndex} {position : Nat} (h : position < s.nbOfStops r) :
    s.positionAt r position < s.nbOfStops r := by
  unfold positionAt
  cases s.dir <;> simp only [Direction.position] <;> omega

lemma positionAt_positionAt {r : RouteIndex} {position : Nat} (h : position < s.nbOfStops r) :
    s.positionAt r (s.positionAt r position) = position := by
  unfold positionAt
  cases s.dir with
  | forward => rfl
  | backward =>
    simp only [Direction.position]
    omega

lemma bringsNear_of_positions {r : RouteIndex} {trip : Trip} {board alight : Nat}
    {start stop : RouteStop} (hadmits : s.query.admits s.timetable r = true)
    (hruns : s.Runs r trip) (hnear : s.Near trip)
    (hgoes : s.positionAt r board < s.positionAt r alight)
    (hstart : (s.timetable.stops r)[board]? = some start) (hcan : start.canStart s.dir = true)
    (hstop : (s.timetable.stops r)[alight]? = some stop) (hcan' : stop.canFinish s.dir = true)
    (hallows : s.query.requireBikes = true → ∀ i, s.positionAt r board ≤ i →
      i < s.positionAt r alight →
        (s.timetable.bikeAccess r).allows (s.dir.sectionFrom (s.positionAt r i)) = true)
    (hf : (s.boardTime trip board).isFeasible = true) (v : Nat) :
    s.BringsNear start.location v (s.boardTime trip board)
      ⟨stop.location, v, s.alightTime trip alight⟩ := by
  have hboard : board < s.nbOfStops r := (Array.getElem?_eq_some_iff.1 hstart).1
  have halight : alight < s.nbOfStops r := (Array.getElem?_eq_some_iff.1 hstop).1
  have hat := positionAt_positionAt hboard
  have hat' := positionAt_positionAt halight
  refine ⟨r, trip, _, _, ⟨hadmits, ⟨hruns, hgoes, ⟨start, ?_, rfl, hcan⟩, ?_, ?_⟩,
    positionAt_lt halight, ⟨stop, ?_, rfl, hcan'⟩, ?_⟩, ⟨?_, ?_⟩, hnear⟩
  · unfold stopAt?
    rw [hat]
    exact hstart
  · exact fun i hle hlt => canLeave_of_allows fun hbikes => hallows hbikes i hle hlt
  · exact passesVias_refl s r v hgoes (Nat.le_of_lt (positionAt_lt halight))
  · unfold stopAt?
    rw [hat']
    exact hstop
  · rw [hat']
  · rw [hat]
    exact hf
  · rw [hat]

lemma Told.timeOf_departure (htold : s.Told) (hw : s.timetable.WellFormed)
    {transport : TransportIndex} {day : Day} {first last : Nat}
    (h : leg.IsRide s.timetable s.query transport day first last) :
    s.timeOf leg.departure = s.eventTime ⟨transport, day⟩ first .departure := by
  rw [h.departure_eq]
  exact htold.timeOf_eventInstant hw (hw.active_lt h.active) first .departure

lemma Told.timeOf_arrival (htold : s.Told) (hw : s.timetable.WellFormed)
    {transport : TransportIndex} {day : Day} {first last : Nat}
    (h : leg.IsRide s.timetable s.query transport day first last) :
    s.timeOf leg.arrival = s.eventTime ⟨transport, day⟩ last .arrival := by
  rw [h.arrival_eq]
  exact htold.timeOf_eventInstant hw (hw.active_lt h.active) last .arrival

/-- A ride of an itinerary, in search order. -/
lemma Told.brings (htold : s.Told) (hw : s.timetable.WellFormed) {transport : TransportIndex}
    {day : Day} {first last : Nat} (h : leg.IsRide s.timetable s.query transport day first last)
    (htimed : (s.searchLeg leg).Timed) (hnear : s.Near ⟨transport, day⟩) (v : Nat) :
    s.BringsNear (s.searchLeg leg).source v (s.searchLeg leg).start
      ⟨(s.searchLeg leg).target, v, (s.searchLeg leg).finish⟩ := by
  have hruns : s.Runs (s.timetable.routeOf transport) ⟨transport, day⟩ :=
    ⟨hw.active_listed h.active, h.active⟩
  have hgoes := h.goes_on
  have hadmits := admits_of_isRide h
  have hallows := fun {i} => allows_of_isRide h (i := i)
  obtain ⟨start, hstart, hsource, hboarding⟩ := h.boarding
  obtain ⟨stop, hstop, htarget, halighting⟩ := h.alighting
  have hlt : last < s.nbOfStops (s.timetable.routeOf transport) :=
    (Array.getElem?_eq_some_iff.1 hstop).1
  have hdeparture := htold.timeOf_departure hw h
  have harrival := htold.timeOf_arrival hw h
  generalize s.timetable.routeOf transport = r at *
  unfold searchLeg at *
  cases hdir : s.dir with
  | forward =>
    simp only [hdir] at htimed ⊢
    have hposition := positionAt_forward hdir r
    have hboard := (boardTime_forward hdir ⟨transport, day⟩ first).trans hdeparture.symm
    have halight := (alightTime_forward hdir ⟨transport, day⟩ last).trans harrival.symm
    have hahead : s.positionAt r first < s.positionAt r last := by
      rw [hposition, hposition]
      exact hgoes
    have hbrings := bringsNear_of_positions hadmits hruns hnear hahead hstart
      (by rw [hdir]; exact hboarding) hstop (by rw [hdir]; exact halighting) ?_
      (hboard ▸ htimed.1) v
    · rw [hsource, htarget, hboard, halight] at hbrings
      exact hbrings
    · intro hbikes i hle hi
      rw [hposition] at hle hi ⊢
      rw [hdir]
      exact hallows hbikes hle hi
  | backward =>
    simp only [hdir] at htimed ⊢
    have hposition := positionAt_backward hdir r
    have hboard := (boardTime_backward hdir ⟨transport, day⟩ last).trans harrival.symm
    have halight := (alightTime_backward hdir ⟨transport, day⟩ first).trans hdeparture.symm
    have hahead : s.positionAt r last < s.positionAt r first := by
      rw [hposition, hposition]
      omega
    have hbrings := bringsNear_of_positions hadmits hruns hnear hahead hstop
      (by rw [hdir]; exact halighting) hstart (by rw [hdir]; exact hboarding) ?_
      (hboard ▸ htimed.1) v
    · rw [hsource, htarget, hboard, halight] at hbrings
      exact hbrings
    · intro hbikes i hle hi
      rw [hposition] at hle hi ⊢
      rw [hdir]
      exact hallows hbikes (i := s.nbOfStops r - 1 - i - 1) (by omega) (by omega)

lemma Told.lasts (htold : s.Told) {d : Duration} (htimed : (s.searchLeg leg).Timed)
    (h : leg.arrival.minutes = leg.departure.minutes + d.minutes) :
    s.dir.cost (s.searchLeg leg).finish = s.dir.cost (s.searchLeg leg).start + d.minutes := by
  unfold searchLeg at *
  cases hdir : s.dir with
  | forward =>
    simp only [hdir] at htimed ⊢
    have hdeparture := htold.cost_timeOf htimed.1
    have harrival := htold.cost_timeOf htimed.2
    simp only [hdir, Direction.sign_forward] at hdeparture harrival
    omega
  | backward =>
    simp only [hdir] at htimed ⊢
    have hdeparture := htold.cost_timeOf htimed.2
    have harrival := htold.cost_timeOf htimed.1
    simp only [hdir, Direction.sign_backward] at hdeparture harrival
    omega

/-- A leg of a search is a walk on a plain footpath. -/
structure WalksOn (s : Search) (w : SearchLeg) (f : Footpath) : Prop where
  kind_eq : w.kind = .footpath
  mem : f ∈ s.timetable.footpaths s.dir w.source
  target_eq : f.target = w.target
  lasts : s.dir.cost w.finish = s.dir.cost w.start + f.duration.minutes

lemma Told.walksOn (htold : s.Told) (hw : s.timetable.WellFormed) (hkind : leg.kind = .footpath)
    (h : leg.IsPlainWalk s.timetable) (htimed : (s.searchLeg leg).Timed) :
    ∃ f, s.WalksOn (s.searchLeg leg) f := by
  obtain ⟨f, hf, htarget, hlasts⟩ := h
  have hcost := htold.lasts htimed hlasts
  have hforward : f ∈ s.timetable.footpaths .forward leg.source := hf
  have hback := hw.footpath_back hforward
  rw [htarget] at hback
  cases hdir : s.dir with
  | forward =>
    refine ⟨f, (kind_searchLeg leg).trans hkind, ?_, ?_, hcost⟩
    · unfold searchLeg
      rw [hdir]
      exact hf
    · unfold searchLeg
      rw [hdir]
      exact htarget
  | backward =>
    refine ⟨⟨leg.source, f.duration⟩, (kind_searchLeg leg).trans hkind, ?_, ?_, hcost⟩
    · unfold searchLeg
      rw [hdir]
      exact hback
    · unfold searchLeg
      rw [hdir]

/-- A walk on a plain footpath, in search order. -/
lemma exists_footpath_of_isPlainWalk (hw : s.timetable.WellFormed) {x : SearchLeg}
    (h : (s.travelLeg x).IsPlainWalk s.timetable) :
    ∃ f ∈ s.timetable.footpaths s.dir x.source, f.target = x.target ∧
      s.dir.sign (s.instantOf x.finish).minutes =
        s.dir.sign (s.instantOf x.start).minutes + f.duration.minutes := by
  obtain ⟨f, hf, htarget, hlasts⟩ := h
  unfold travelLeg at hf htarget hlasts
  cases hdir : s.dir with
  | forward =>
    simp only [hdir] at hf htarget hlasts
    exact ⟨f, hf, htarget, hlasts⟩
  | backward =>
    simp only [hdir] at hf htarget hlasts
    have hforward : f ∈ s.timetable.footpaths .forward x.target := hf
    have hback := hw.footpath_back hforward
    rw [htarget] at hback
    refine ⟨_, hback, rfl, ?_⟩
    simp only [Direction.sign_backward]
    omega

/-- A leg of a search begins and ends at an offset, and lasts as long as the offset. -/
structure TakesOffset (s : Search) (x : SearchLeg) (o : Offset) : Prop where
  source_eq : x.source = o.location
  target_eq : x.target = o.location
  lasts : s.dir.cost x.finish = s.dir.cost x.start + o.duration.minutes

lemma Told.takesOffset (htold : s.Told) {o : Offset} (h : leg.IsOffset o)
    (htimed : (s.searchLeg leg).Timed) : s.TakesOffset (s.searchLeg leg) o := by
  have hcost := htold.lasts htimed h.lasts
  refine ⟨?_, ?_, hcost⟩
  · unfold searchLeg
    split
    · exact h.source_eq
    · exact h.target_eq
  · unfold searchLeg
    split
    · exact h.target_eq
    · exact h.source_eq

/-! ### From leg to leg -/

/-- After a leg that ends a number of rides, someone can ride on, or arrive by an offset. -/
structure Moves (s : Search) (k : Nat) (x : SearchLeg) : Prop where
  rides : ∀ y, s.Precedes x y → y.Timed → y.kind.isRide = true →
    s.ReadyAfter k y.source 0 y.start
  ends : ∀ n y o, k = n + 1 → s.Precedes x y → y.Timed → o ∈ s.query.destination →
    s.TakesOffset y o → s.ArrivesBy n y.finish

/-- After a leg, someone can move on, also by walking first. -/
structure Onward (s : Search) (k : Nat) (x : SearchLeg) : Prop where
  moves : s.Moves k x
  walks : ∀ w f, s.Precedes x w → w.Timed → s.WalksOn w f → s.Moves k w

variable {o : Offset} {f : Footpath} {w : SearchLeg}

lemma onward_access (ho : o ∈ s.query.start) (htakes : s.TakesOffset x o)
    (hstart : s.dir.cost s.start ≤ s.dir.cost x.start) : s.Onward 0 x := by
  have hlasts := htakes.lasts
  refine ⟨⟨fun y hxy hy _ => ?_, fun n _ _ hn => nomatch hn⟩, fun w f hxw hw hwalk =>
    ⟨fun y hwy hy _ => ?_, fun n _ _ hn => nomatch hn⟩⟩
  · have hcost := hxy.cost_le
    rw [hxy.source_eq, htakes.target_eq]
    exact readyAfter_start ho (self_mem_stays _ _) hy.1 (by rw [Duration.minutes_zero]; omega)
  · have hcost := hxw.cost_le
    have hcost' := hwy.cost_le
    have hwalks := hwalk.lasts
    have hmem := hwalk.mem
    rw [hxw.source_eq, htakes.target_eq] at hmem
    rw [hwy.source_eq, ← hwalk.target_eq]
    exact readyAfter_startOnFoot ho
      (walksBy_footpath hmem hy.1 (Int.le_refl (s.dir.cost x.finish + f.duration.minutes)) (by omega))
      (self_mem_stays _ _) hy.1 (by omega) (by omega) (by rw [Duration.minutes_zero]; omega)

/-- A ride lets someone move on who could move on to it. -/
lemma Moves.ride (h : s.Moves k x) (hlevels : s.levels = 1) (hxy : s.Precedes x y)
    (hy : y.Timed) (hride : y.kind.isRide = true)
    (hbrings : s.BringsNear y.source 0 y.start ⟨y.target, 0, y.finish⟩) :
    s.Onward (k + 1) y := by
  have hready := h.rides y hxy hy hride
  have hlast : 0 + 1 = s.levels := hlevels.symm
  have hstay : (0, Duration.zero) ∈ s.stays y.target 0 := self_mem_stays _ _
  refine ⟨⟨fun z hyz hz hzride => ?_, fun n z o hn hyz hz ho htakes => ?_⟩,
    fun w f hyw hw hwalk => ⟨fun z hwz hz hzride => ?_, fun n z o hn hwz hz ho htakes => ?_⟩⟩
  · have htransfer := hyz.transfer hride hzride
    have hlonger : Duration.zero.longer (s.timetable.locations.transferTime y.target) =
        s.timetable.locations.transferTime y.target := if_pos (Nat.zero_le _)
    rw [hyz.source_eq]
    refine .change hready hbrings (readiesBy_transfer hstay hz.1 ?_)
    rw [hlonger]
    exact htransfer
  · cases hn
    have hcost := hyz.cost_le
    have hlasts := htakes.lasts
    have hstands : s.StandsBy ⟨y.target, 0, y.finish⟩ y.target 0 z.start :=
      standsBy_here hstay hz.1 (by rw [Duration.minutes_zero]; dsimp only; omega)
    exact arrivesBy_of_standsBy hready hbrings hstands hlast ho
      (htakes.source_eq.symm.trans hyz.source_eq) hz.2 (Int.le_of_eq hlasts.symm)
  · have hcost := hyw.cost_le
    have hcost' := hwz.cost_le
    have hlasts := hwalk.lasts
    have hmem := hwalk.mem
    rw [hyw.source_eq] at hmem
    rw [hwz.source_eq, ← hwalk.target_eq]
    have hwalks := walksBy_footpath hmem hz.1
      (Int.le_refl (s.dir.cost y.finish + f.duration.minutes)) (by omega)
    exact .change hready hbrings (readiesBy_onFoot hstay hwalks (self_mem_stays _ _) hz.1
      (by rw [Duration.minutes_zero]; dsimp only; omega) (by omega)
      (by rw [Duration.minutes_zero]; omega))
  · cases hn
    have hcost := hyw.cost_le
    have hcost' := hwz.cost_le
    have hwalks := hwalk.lasts
    have hlasts := htakes.lasts
    have hmem := hwalk.mem
    rw [hyw.source_eq] at hmem
    have hleaves := walksBy_footpath hmem hz.1
      (Int.le_refl (s.dir.cost y.finish + f.duration.minutes)) (by omega)
    have hstands : s.StandsBy ⟨y.target, 0, y.finish⟩ f.target 0 z.start :=
      standsBy_walked hstay hleaves (self_mem_stays _ _) hz.1
        (by rw [Duration.minutes_zero]; dsimp only; omega) (by omega)
        (by rw [Duration.minutes_zero]; omega)
    exact arrivesBy_of_standsBy hready hbrings hstands hlast ho
      (htakes.source_eq.symm.trans (hwz.source_eq.trans hwalk.target_eq.symm)) hz.2
      (Int.le_of_eq hlasts.symm)

/-- A walk lets someone move on who could walk it; nobody walks twice in a row. -/
lemma Onward.walk (h : s.Onward k x) (hxw : s.Precedes x w) (hw : w.Timed)
    (hwalk : s.WalksOn w f) : s.Onward k w :=
  ⟨h.walks w f hxw hw hwalk, fun _ _ hwy _ hwalk' =>
    absurd hwalk'.kind_eq (hwy.one_walk hwalk.kind_eq)⟩

/-- A leg between the offsets can be taken by the rules of the search. -/
def Follows (s : Search) (y : SearchLeg) : Prop :=
  (y.kind.isRide = true ∧ s.BringsNear y.source 0 y.start ⟨y.target, 0, y.finish⟩) ∨
    ∃ f, s.WalksOn y f

/-- Legs that follow each other up to an offset lead to the destination. -/
lemma Onward.arrivesBy (hlevels : s.levels = 1) {e : SearchLeg} (ho : o ∈ s.query.destination)
    (he : s.TakesOffset e o) {legs : List SearchLeg} {n : Nat} (h : s.Onward k x)
    (hchain : (x :: (legs ++ [e])).IsChain s.Precedes) (htimed : ∀ y ∈ legs ++ [e], y.Timed)
    (hlegs : ∀ y ∈ legs, s.Follows y) (hn : k + legs.countP (·.kind.isRide) = n + 1) :
    s.ArrivesBy n e.finish := by
  induction legs generalizing k x with
  | nil =>
    have hxe := List.isChain_pair.1 hchain
    exact h.moves.ends n e o hn hxe (htimed e List.mem_cons_self) ho he
  | cons y legs ih =>
    obtain ⟨hxy, hchain⟩ := List.isChain_cons_cons.1 hchain
    have hy := htimed y List.mem_cons_self
    have htimed' : ∀ z ∈ legs ++ [e], z.Timed := fun z hz =>
      htimed z (List.mem_cons_of_mem _ hz)
    have hlegs' : ∀ z ∈ legs, s.Follows z := fun z hz => hlegs z (List.mem_cons_of_mem _ hz)
    rcases hlegs y List.mem_cons_self with ⟨hride, hbrings⟩ | ⟨f, hwalk⟩
    · rw [List.countP_cons, if_pos hride] at hn
      exact ih (h.moves.ride hlevels hxy hy hride hbrings) hchain htimed' hlegs' (by omega)
    · have hnot : ¬y.kind.isRide = true := by
        rw [hwalk.kind_eq]
        decide
      rw [List.countP_cons, if_neg hnot] at hn
      exact ih (h.walk hxy hy hwalk) hchain htimed' hlegs' hn

/-- Legs that follow each other from an offset to an offset are a way that a search covers. -/
lemma arrivesBy_of_legs (hlevels : s.levels = 1) {o' : Offset} {e : SearchLeg}
    {legs : List SearchLeg} {n : Nat} (ho : o ∈ s.query.start) (ho' : o' ∈ s.query.destination)
    (hx : s.TakesOffset x o) (he : s.TakesOffset e o')
    (hstart : s.dir.cost s.start ≤ s.dir.cost x.start) (hlegs : ∀ y ∈ legs, s.Follows y)
    (htimed : ∀ y ∈ legs ++ [e], y.Timed) (hchain : (x :: (legs ++ [e])).IsChain s.Precedes)
    (hn : legs.countP (·.kind.isRide) = n + 1) : s.ArrivesBy n e.finish :=
  (onward_access ho hx hstart).arrivesBy hlevels ho' he hchain htimed hlegs (by omega)

end Search

namespace Journey

variable {j : Journey} {tt : Timetable} {q : Query} {first last : Leg} {inner : List Leg}

/-- The legs of an itinerary are those of two offsets, with rides and walks in between. -/
structure Parts (j : Journey) (q : Query) (first : Leg) (inner : List Leg) (last : Leg) :
    Prop where
  legs_eq : j.legs = first :: (inner ++ [last])
  access : ∃ o ∈ accessOffsets q, first.IsOffset o ∧ first.departure = j.departure
  egress : ∃ o ∈ egressOffsets q, last.IsOffset o ∧ last.arrival = j.arrival
  between : ∀ leg ∈ inner, leg.kind.isRide = true ∨ leg.kind = .footpath
  countP_inner : inner.countP (·.kind.isRide) = j.transports.length

lemma not_isRide_of_isOffset {leg : Leg} {o : Offset} (h : leg.IsOffset o) :
    ¬leg.kind.isRide = true := by
  rw [h.kind_eq]
  exact Bool.false_ne_true

lemma IsItinerary.exists_parts (h : j.IsItinerary tt q) :
    ∃ first inner last, j.Parts q first inner last := by
  obtain ⟨first, hfirst, haccess⟩ := h.feasible.access
  obtain ⟨last, hlast, hegress⟩ := h.feasible.egress
  obtain ⟨o, ho, hoffset, hdeparture⟩ := haccess
  obtain ⟨o', ho', hoffset', harrival⟩ := hegress
  have hrides := h.feasible.nbOfRides
  have hbetween := h.between
  obtain ⟨rest, hlegs⟩ := List.head?_eq_some_iff.1 hfirst
  have hcount := Search.length_transports j
  rw [hlegs, List.countP_cons, if_neg (not_isRide_of_isOffset hoffset)] at hcount
  rcases List.eq_nil_or_concat rest with rfl | ⟨inner, last', rfl⟩
  · rw [hcount] at hrides
    cases hrides
  · rw [hlegs, List.concat_eq_append, ← List.cons_append] at hlast
    have heq : last' = last := Option.some.inj ((List.getLast?_concat ..).symm.trans hlast)
    subst heq
    rw [List.concat_eq_append, List.countP_append, List.countP_cons, List.countP_nil,
      if_neg (not_isRide_of_isOffset hoffset')] at hcount
    rw [hlegs, List.tail_cons, List.concat_eq_append, List.dropLast_concat] at hbetween
    rw [List.concat_eq_append] at hlegs
    exact ⟨first, inner, last', hlegs, ⟨o, ho, hoffset, hdeparture⟩,
      ⟨o', ho', hoffset', harrival⟩, hbetween, hcount.symm⟩

end Journey

namespace Search

variable {s : Search} {j : Journey} {t : Instant}

lemma timed_searchLeg (h : (s.timeOf leg.departure).isFeasible = true ∧
    (s.timeOf leg.arrival).isFeasible = true) : (s.searchLeg leg).Timed := by
  unfold searchLeg
  split
  · exact h
  · exact h.symm

/-- Every trip of the timetable is looked at by a search around whose base day transports run. -/
lemma near_of_runsAround (h : s.timetable.RunsAround s.dir s.baseDay) {transport : TransportIndex}
    {day : Day} (hactive : s.timetable.isActive transport day = true) :
    s.Near ⟨transport, day⟩ := by
  have hday := h transport day hactive
  unfold Near Day.daysSince
  cases hdir : s.dir <;> rw [hdir] at hday <;> dsimp only at hday ⊢ <;> omega

lemma Told.follows (htold : s.Told) (hw : s.timetable.WellFormed)
    (hruns : s.timetable.RunsAround s.dir s.baseDay) (h : j.IsItinerary s.timetable s.query)
    (hplain : j.WalksPlainly s.timetable) (hleg : leg ∈ j.legs)
    (htimed : (s.searchLeg leg).Timed)
    (hkind : leg.kind.isRide = true ∨ leg.kind = .footpath) : s.Follows (s.searchLeg leg) := by
  rcases hkind with hkind | hkind
  · refine Or.inl ⟨(congrArg _ (kind_searchLeg leg)).trans hkind, ?_⟩
    cases heq : leg.kind with
    | ride transport day board alight =>
      have hride := h.feasible.rides leg hleg transport day board alight heq
      exact htold.brings hw hride htimed (near_of_runsAround hruns hride.active) 0
    | offset _ =>
      rw [heq] at hkind
      cases hkind
    | footpath =>
      rw [heq] at hkind
      cases hkind
  · exact Or.inr (htold.walksOn hw hkind (hplain leg hleg hkind) htimed)

/-- The legs of an itinerary can be taken one after the other, in search order. -/
lemma Told.isChain_searchLegs (htold : s.Told) (h : j.IsItinerary s.timetable s.query)
    (htimed : ∀ leg ∈ j.legs, (s.searchLeg leg).Timed) :
    match s.dir with
    | .forward => (j.legs.map s.searchLeg).IsChain s.Precedes
    | .backward => (j.legs.map s.searchLeg).reverse.IsChain s.Precedes := by
  have hcontinues : j.legs.IsChain (Leg.Continues s.timetable) :=
    List.isChain_iff_getElem.2 fun i hi => h.continues i _ _
      (List.getElem?_eq_getElem (by omega)) (List.getElem?_eq_getElem hi)
  have hchain := List.IsChain.imp_of_mem_imp
    (fun leg next hleg hnext hc => htold.precedes hc (htimed leg hleg) (htimed next hnext))
    hcontinues
  cases hdir : s.dir with
  | forward =>
    simp only [hdir] at hchain
    exact (List.isChain_map _).2 hchain
  | backward =>
    simp only [hdir] at hchain
    exact List.isChain_reverse.2 ((List.isChain_map _).2 hchain)

/-- The legs of a journey in search order: those of two offsets, with rides and walks in between. -/
structure Goes (s : Search) (j : Journey) (x : SearchLeg) (legs : List SearchLeg) (e : SearchLeg) :
    Prop where
  access : ∃ o ∈ s.query.start, s.TakesOffset x o
  egress : ∃ o ∈ s.query.destination, s.TakesOffset e o
  start_eq : x.start = s.timeOf (s.query.givenEnd j)
  finish_eq : e.finish = s.timeOf (s.query.foundEnd j)
  chain : (x :: (legs ++ [e])).IsChain s.Precedes
  follows : ∀ y ∈ legs, s.Follows y
  timed : ∀ y ∈ x :: (legs ++ [e]), y.Timed
  countP_legs : legs.countP (·.kind.isRide) = j.transports.length

lemma countP_map_searchLeg (s : Search) (legs : List Leg) :
    (legs.map s.searchLeg).countP (·.kind.isRide) = legs.countP (·.kind.isRide) := by
  rw [List.countP_map]
  congr 1
  funext leg
  exact congrArg _ (kind_searchLeg leg)

lemma Told.follows_of_parts (htold : s.Told) (hw : s.timetable.WellFormed)
    (hruns : s.timetable.RunsAround s.dir s.baseDay) (h : j.IsItinerary s.timetable s.query)
    (hplain : j.WalksPlainly s.timetable) (htimed : ∀ leg ∈ j.legs, (s.searchLeg leg).Timed)
    {first last : Leg} {inner : List Leg} (hparts : j.Parts s.query first inner last) :
    ∀ y ∈ inner.map s.searchLeg, s.Follows y := by
  intro y hy
  obtain ⟨leg, hleg, rfl⟩ := List.mem_map.1 hy
  have hmem : leg ∈ j.legs := by
    rw [hparts.legs_eq]
    exact List.mem_cons_of_mem _ (List.mem_append_left _ hleg)
  exact htold.follows hw hruns h hplain hmem (htimed leg hmem) (hparts.between leg hleg)

lemma Told.exists_goes (htold : s.Told) (hw : s.timetable.WellFormed)
    (hruns : s.timetable.RunsAround s.dir s.baseDay) (h : j.IsItinerary s.timetable s.query)
    (hplain : j.WalksPlainly s.timetable) (hj : j.IsTold s.timetable s.baseDay) :
    ∃ x legs e, s.Goes j x legs e := by
  have htimed : ∀ leg ∈ j.legs, (s.searchLeg leg).Timed := fun leg hleg =>
    timed_searchLeg (hj leg hleg)
  have hchain := htold.isChain_searchLegs h htimed
  obtain ⟨first, inner, last, hparts⟩ := h.exists_parts
  have hfollows := htold.follows_of_parts hw hruns h hplain htimed hparts
  have hcount := (countP_map_searchLeg s inner).trans hparts.countP_inner
  obtain ⟨hlegs, haccess, hegress, _, _⟩ := hparts
  rw [hlegs] at htimed
  obtain ⟨o, ho, hoffset, hdeparture⟩ := haccess
  obtain ⟨o', ho', hoffset', harrival⟩ := hegress
  have htakes := htold.takesOffset hoffset (htimed first List.mem_cons_self)
  have htakes' := htold.takesOffset hoffset' (htimed last
    (List.mem_cons_of_mem _ (List.mem_append_right _ List.mem_cons_self)))
  have htimed' : ∀ y ∈ (first :: (inner ++ [last])).map s.searchLeg, y.Timed :=
    List.forall_mem_map.2 htimed
  rw [hlegs] at hchain
  rw [List.map_cons, List.map_append, List.map_singleton] at htimed' hchain
  unfold Journey.accessOffsets at ho
  unfold Journey.egressOffsets at ho'
  cases hdir : s.query.direction with
  | forward =>
    have hdir' : s.dir = .forward := hdir
    simp only [hdir] at ho ho'
    simp only [hdir'] at hchain
    refine ⟨_, _, _, ⟨o, ho, htakes⟩, ⟨o', ho', htakes'⟩, ?_, ?_, hchain, hfollows, htimed', hcount⟩
    · unfold searchLeg Query.givenEnd
      rw [hdir', hdir, ← hdeparture]
    · unfold searchLeg Query.foundEnd
      rw [hdir', hdir, ← harrival]
  | backward =>
    have hdir' : s.dir = .backward := hdir
    simp only [hdir] at ho ho'
    simp only [hdir'] at hchain
    have hreverse : (s.searchLeg first :: (inner.map s.searchLeg ++ [s.searchLeg last])).reverse =
        s.searchLeg last :: ((inner.map s.searchLeg).reverse ++ [s.searchLeg first]) := by
      rw [List.reverse_cons, List.reverse_append, List.reverse_singleton, List.singleton_append,
        List.cons_append]
    rw [hreverse] at hchain
    refine ⟨_, _, _, ⟨o', ho', htakes'⟩, ⟨o, ho, htakes⟩, ?_, ?_, hchain,
      fun y hy => hfollows y (List.mem_reverse.1 hy),
      fun y hy => htimed' y (List.mem_reverse.1 (hreverse ▸ hy)), ?_⟩
    · unfold searchLeg Query.givenEnd
      rw [hdir', hdir, ← harrival]
    · unfold searchLeg Query.foundEnd
      rw [hdir', hdir, ← hdeparture]
    · rw [List.countP_reverse]
      exact hcount

/-- An itinerary that does not begin too early, in search order, is a way that a search covers. -/
theorem Told.arrivesBy (htold : s.Told) (hw : s.timetable.WellFormed) (hlevels : s.levels = 1)
    (hruns : s.timetable.RunsAround s.dir s.baseDay) (hstart : s.start = s.timeOf t)
    (hfeasible : s.start.isFeasible = true) (h : j.IsItinerary s.timetable s.query)
    (hplain : j.WalksPlainly s.timetable) (hj : j.IsTold s.timetable s.baseDay)
    (hafter : s.query.NotAfter t (s.query.givenEnd j)) {n : Nat}
    (hn : j.transports.length = n + 1) : s.ArrivesBy n (s.timeOf (s.query.foundEnd j)) := by
  obtain ⟨x, legs, e, hgoes⟩ := htold.exists_goes hw hruns h hplain hj
  obtain ⟨o, ho, hx⟩ := hgoes.access
  obtain ⟨o', ho', he⟩ := hgoes.egress
  have hbegins : (s.timeOf (s.query.givenEnd j)).isFeasible = true := by
    rw [← hgoes.start_eq]
    exact (hgoes.timed x List.mem_cons_self).1
  have hafter' := (htold.notAfter_iff (hstart ▸ hfeasible) hbegins).1 hafter
  rw [← hstart, ← hgoes.start_eq] at hafter'
  rw [← hgoes.finish_eq]
  exact arrivesBy_of_legs hlevels ho ho' hx he hafter' hgoes.follows
    (fun y hy => hgoes.timed y (List.mem_cons_of_mem _ hy)) hgoes.chain (hgoes.countP_legs.trans hn)

end Search

end JourneyPlanner
