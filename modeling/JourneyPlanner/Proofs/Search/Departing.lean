import JourneyPlanner.Proofs.Journey.Filtering
import JourneyPlanner.Proofs.Search.Completeness
import JourneyPlanner.Proofs.Search.Forgetting

/-!
# The departures of an interval

A query for an interval is searched from the instants at which a vehicle can be caught without
waiting, at an offset of the start or one plain footpath away. A journey from any instant of the
interval that begins in this way is found by one of these searches, and is matched by what is kept.
-/

namespace JourneyPlanner

namespace Instant

lemma mem_distinct_of_mem {ts : List Instant} {t : Instant} (h : t ∈ ts) : t ∈ distinct ts := by
  fun_induction distinct ts with
  | case1 a rest ih =>
    rcases List.mem_cons.1 h with rfl | h
    · exact ih List.mem_cons_self
    · exact ih h
  | case2 a b rest hne ih =>
    rcases List.mem_cons.1 h with rfl | h
    · exact List.mem_cons_self
    · exact List.mem_cons_of_mem _ (ih h)
  | case3 ts _ => exact h

lemma exists_minutes_wrap (n : Int) : ∃ turns : Int, (wrap n).minutes = n + turns * 4294967296 := by
  have heq : (wrap n).minutes = n.bmod 4294967296 := rfl
  rw [Int.bmod_def] at heq
  split at heq
  · exact ⟨-(n / 4294967296), by omega⟩
  · exact ⟨-(n / 4294967296) - 1, by omega⟩

end Instant

namespace ServiceDays

lemma mem_toList {days : ServiceDays} {day : Day} (h : days.contains day = true) :
    day ∈ days.toList := by
  refine List.mem_filterMap.2 ⟨day.number, BitSet.mem_toList.2 h, ?_⟩
  exact dif_pos day.number_lt

end ServiceDays

namespace Timetable

lemma mem_daysOf {tt : Timetable} {transport : TransportIndex} {day : Day}
    (h : tt.isActive transport day = true) : day ∈ tt.daysOf transport := by
  unfold isActive at h
  unfold daysOf
  cases hdays : tt.daysOf? transport with
  | none =>
    rw [hdays] at h
    cases h
  | some days =>
    rw [hdays] at h
    exact ServiceDays.mem_toList h

end Timetable

namespace Query

variable {q : Query} {tt : Timetable} {l : LocationIndex} {lead : Duration} {r : RouteIndex}
  {position : Nat} {transport : TransportIndex} {day : Day} {t first last : Instant}

lemma mem_accesses {o : Offset} (ho : o ∈ q.start) : (o.location, o.duration) ∈ q.accesses tt :=
  List.mem_flatMap.2 ⟨o, ho, List.mem_cons_self⟩

lemma mem_accesses_onFoot {o : Offset} {f : Footpath} (ho : o ∈ q.start)
    (hf : f ∈ tt.footpaths q.direction o.location) :
    (f.target, o.duration.add f.duration) ∈ q.accesses tt :=
  List.mem_flatMap.2 ⟨o, ho, List.mem_cons_of_mem _ (List.mem_map.2 ⟨f, hf, rfl⟩)⟩

lemma mem_startInstants (haccess : (l, lead) ∈ q.accesses tt) (hlisted : r ∈ tt.routesAt l)
    (hadmits : q.admits tt r = true) (hposition : position ∈ q.boardPositions tt r l)
    (htransport : (tt.transportsOf r).contains transport = true)
    (hactive : tt.isActive transport day = true)
    (heq : q.direction.opposite.addInstant (tt.calendar.instantOf day
      (tt.eventTime transport position q.direction.boardEvent)) lead = t)
    (hfirst : first ≤ t) (hlast : t ≤ last) : t ∈ q.startInstants tt first last := by
  apply Instant.mem_distinct_of_mem
  rw [List.mem_mergeSort]
  have hinside : (decide (first ≤ t) && decide (t ≤ last)) = true := by
    rw [Bool.and_eq_true, decide_eq_true_iff, decide_eq_true_iff]
    exact ⟨hfirst, hlast⟩
  refine List.mem_filter.2 ⟨?_, hinside⟩
  refine List.mem_flatMap.2 ⟨(l, lead), haccess, List.mem_flatMap.2 ⟨r, ?_, ?_⟩⟩
  · exact List.mem_filter.2 ⟨hlisted, hadmits⟩
  · refine List.mem_map.2 ⟨_, List.mem_flatMap.2 ⟨position, hposition, ?_⟩, heq⟩
    refine List.mem_flatMap.2 ⟨transport, IndexRange.mem_toList.2 htransport, ?_⟩
    exact List.mem_map.2 ⟨day, Timetable.mem_daysOf hactive, rfl⟩

lemma contains_of_checkStartTime (h : checkStartTime tt (.interval first last) = .ok ())
    (hfirst : first ≤ t) (hlast : t ≤ last) : tt.calendar.contains t = true := by
  have hcheck : ∀ u, checkInstant tt u = .ok () → tt.calendar.contains u = true := by
    intro u hu
    unfold checkInstant at hu
    split at hu
    · assumption
    · cases hu
  have hends : tt.calendar.contains first = true ∧ tt.calendar.contains last = true := by
    unfold checkStartTime at h
    dsimp only at h
    split at h
    · cases h
    · cases hu : checkInstant tt first with
      | error e =>
        rw [hu] at h
        cases h
      | ok _ =>
        rw [hu] at h
        exact ⟨hcheck first hu, hcheck last h⟩
  unfold Calendar.contains at hends ⊢
  simp only [Bool.and_eq_true, decide_eq_true_eq] at hends ⊢
  exact ⟨Int.le_trans hends.1.1 hfirst, Int.lt_of_le_of_lt hlast hends.2.2⟩

end Query

namespace Search

variable {s : Search} {k : Nat} {legs before : List SearchLeg} {a : Arrival} {l : LocationIndex}
  {t : RelTime}

/-- The legs that lead to an arrival begin with an offset of the start, a walk or none, and a
ride. -/
lemma Leads.exists_first (h : s.Leads k legs a) : ∃ others ride w o l level t b,
    legs = others ++ (ride :: Walk.legs w ++ [s.accessLeg o]) ∧
      s.Readies (.fromStart o w) l level t ∧ s.RidesBy l level t b ride := by
  induction h with
  | first hready hrides => exact ⟨[], _, _, _, _, _, _, _, rfl, hready, hrides⟩
  | next _ _ _ ih =>
    rename_i ride legs _
    obtain ⟨others, ride', w', o, l, level, t, b, rfl, hready, hrides⟩ := ih
    exact ⟨_, ride', w', o, l, level, t, b, (List.append_assoc _ _ _).symm, hready, hrides⟩

lemma searchLegs_journey (s : Search) (k : Nat) (h : Hit) (before : List SearchLeg) :
    (s.journey k h before).searchLegs s.query.direction =
      ((h.legs before).map s.travelLeg).reverse := by
  have hlegs := s.legs_journey k h before
  unfold travelLegs dir at hlegs
  unfold Journey.searchLegs
  cases hdir : s.query.direction with
  | forward =>
    rw [hdir] at hlegs
    exact hlegs
  | backward =>
    rw [hdir] at hlegs
    exact congrArg List.reverse hlegs

lemma begins_travelLeg (leg : SearchLeg) :
    (s.travelLeg leg).begins s.query.direction = s.instantOf leg.start := by
  unfold travelLeg dir Leg.begins
  cases s.query.direction <;> rfl

lemma ends_travelLeg (leg : SearchLeg) :
    (s.travelLeg leg).ends s.query.direction = s.instantOf leg.finish := by
  unfold travelLeg dir Leg.ends Leg.begins
  cases s.query.direction <;> rfl

/-- A ride begins in a position where a vehicle can be boarded, at the instant of its event. -/
lemma RidesBy.boards (hw : s.timetable.WellFormed) {level : Nat} {ride : SearchLeg}
    (h : s.RidesBy l level t a ride) : ∃ r position transport day,
      r ∈ s.timetable.routesAt l ∧ s.query.admits s.timetable r = true ∧
      position ∈ s.query.boardPositions s.timetable r l ∧
      (s.timetable.transportsOf r).contains transport = true ∧
      s.timetable.isActive transport day = true ∧
      s.instantOf ride.start = s.timetable.calendar.instantOf day
        (s.timetable.eventTime transport position s.query.direction.boardEvent) := by
  obtain ⟨r, trip, i, j, hride, hintime, rfl⟩ := h
  obtain ⟨stop, hstop, rfl, hcan⟩ := hride.boarded.begins
  have hget : (s.timetable.stops r)[s.positionAt r i]? = some stop := hstop
  obtain ⟨hlt, _⟩ := Array.getElem?_eq_some_iff.1 hget
  have hboards := hride.boarded.goes_on
  have halights := hride.alight_lt
  refine ⟨r, s.positionAt r i, trip.transport, trip.day, hw.listed hget, hride.admitted, ?_,
    hride.boarded.runs.of_route, hride.boarded.runs.active, ?_⟩
  · refine List.mem_filter.2 ⟨List.mem_range.2 hlt, ?_⟩
    rw [hget, Option.map_some, Option.getD_some, beq_self_eq_true, Bool.true_and, Bool.and_eq_true]
    refine ⟨hcan, ?_⟩
    unfold positionAt dir nbOfStops at *
    cases hdir : s.query.direction with
    | forward =>
      rw [hdir] at hlt
      exact decide_eq_true (Nat.lt_of_le_of_lt hboards halights)
    | backward =>
      refine decide_eq_true ?_
      show 0 < (s.timetable.stops r).size - 1 - i
      omega
  · unfold instantOf instant?
    exact congrArg (Option.getD · .epoch)
      (Calendar.absolute?_eventTime (c := s.timetable.calendar) hintime.feasible)

/-- A time of a search is that of its instant, up to whole turns. -/
lemma exists_minutes_instantOf {n : Int} (ht : t.minutes? = some n) :
    ∃ turns : Int, (s.instantOf t).minutes = s.midnight + n + turns * 4294967296 := by
  rw [instantOf_of_minutes? ht]
  exact Instant.exists_minutes_wrap _

variable {tt : Timetable} {q : Query} {instant first last : Instant} {h : Hit}

/-- The instant from which a vehicle is caught without waiting leads back to the start. -/
lemma addInstant_opposite (dir : Direction) {e t : Instant} {lead : Duration}
    (h : dir.sign e.minutes = dir.sign t.minutes + lead.minutes) :
    dir.opposite.addInstant e lead = t := by
  have hge := t.minutes_ge
  have hlt := t.minutes_lt
  apply Instant.ext
  cases dir with
  | forward =>
    have hclamp : (Direction.backward.addInstant e lead).minutes =
        max (-2147483648) (min (e.minutes - lead.minutes) 2147483647) := rfl
    simp only [Direction.sign_forward] at h
    show (Direction.backward.addInstant e lead).minutes = _
    omega
  | backward =>
    have hclamp : (Direction.forward.addInstant e lead).minutes =
        max (-2147483648) (min (e.minutes + lead.minutes) 2147483647) := rfl
    simp only [Direction.sign_backward] at h
    show (Direction.forward.addInstant e lead).minutes = _
    omega

/-- A first vehicle that is caught without waiting is among those from which the interval is
searched. -/
lemma RidesBy.mem_startInstants (hw : s.timetable.WellFormed)
    (hsearch : Search.at? s.timetable q instant = some s) {level : Nat} {ride : SearchLeg}
    {lead : Nat} (h : s.RidesBy l level t a ride) {d : Duration}
    (hd : d.minutes = min lead 65535)
    (haccess : (l, d) ∈ s.query.accesses s.timetable)
    (hlead : s.dir.sign (s.instantOf ride.start).minutes = s.dir.sign instant.minutes + lead)
    (hle : lead ≤ 131070) (hfirst : first ≤ instant) (hlast : instant ≤ last) :
    instant ∈ s.query.startInstants s.timetable first last := by
  obtain ⟨r, position, transport, day, hlisted, hadmits, hposition, htransport, hactive, hevent⟩ :=
    h.boards hw
  obtain ⟨hminutes, _, _⟩ := minutes_of_at? hsearch
  obtain ⟨n, hn⟩ := Direction.exists_minutes h.times.1
  obtain ⟨turns, hturns⟩ := exists_minutes_instantOf (s := s) hn
  have hrange := RelTime.range_of_minutes? hminutes
  have hrange' := RelTime.range_of_minutes? hn
  -- Both ends are told by the search, so they are less than a turn apart, and the lead is exact.
  have hexact : s.dir.sign (s.instantOf ride.start).minutes =
      s.dir.sign instant.minutes + d.minutes := by
    cases hdir : s.dir <;> rw [hdir] at hlead <;>
      simp only [Direction.sign_forward, Direction.sign_backward] at hlead ⊢ <;> omega
  rw [hevent] at hexact
  exact Query.mem_startInstants haccess hlisted hadmits hposition htransport hactive
    (addInstant_opposite s.dir hexact) hfirst hlast

/-- The legs of a journey, in search order, begin with those to its first vehicle. -/
lemma exists_searchLegs (s : Search) (k : Nat) (h : Hit) (others : List SearchLeg)
    (ride : SearchLeg) (w : Option Walk) (o : Offset) : ∃ rest,
      (s.journey k h (others ++ (ride :: Walk.legs w ++ [s.accessLeg o]))).searchLegs
        s.query.direction = s.travelLeg (s.accessLeg o) :: (Walk.legs w).map s.travelLeg ++
          s.travelLeg ride :: rest := by
  rw [searchLegs_journey]
  unfold Hit.legs
  cases w with
  | none =>
    refine ⟨((h.egressLeg :: Walk.legs h.walk ++ others).map s.travelLeg).reverse, ?_⟩
    simp [Walk.legs]
  | some w =>
    refine ⟨((h.egressLeg :: Walk.legs h.walk ++ others).map s.travelLeg).reverse, ?_⟩
    simp [Walk.legs]

lemma sign_ends_of_isOffset {leg : Leg} {o : Offset} (dir : Direction) (h : leg.IsOffset o) :
    dir.sign (leg.ends dir).minutes = dir.sign (leg.begins dir).minutes + o.duration.minutes := by
  have hlasts := h.lasts
  unfold Leg.ends Leg.begins
  cases dir with
  | forward => exact hlasts
  | backward =>
    show -leg.departure.minutes = -leg.arrival.minutes + o.duration.minutes
    omega

lemma source_accessLeg {o o' : Offset} (h : (s.travelLeg (s.accessLeg o)).IsOffset o') :
    o.location = o'.location := by
  have hsource := h.source_eq
  unfold travelLeg accessLeg at hsource
  cases hdir : s.dir <;> rw [hdir] at hsource <;> exact hsource

/-- A journey that boards its first vehicle at once begins at an instant that is searched. -/
lemma mem_startInstants_of_boardsAtOnce (hw : s.timetable.WellFormed)
    (hsearch : Search.at? s.timetable q instant = some s) (hleads : s.Leads k before a)
    (hinstant : s.instantOf s.start = instant)
    (honce : BoardsAtOnce s.timetable s.query
      ((s.journey k h before).searchLegs s.query.direction))
    (hfirst : first ≤ instant) (hlast : instant ≤ last) :
    instant ∈ s.query.startInstants s.timetable first last := by
  obtain ⟨others, ride, w, o, l, level, t, b, rfl, hready, hrides⟩ := hleads.exists_first
  obtain ⟨rest, hlegs⟩ := s.exists_searchLegs k h others ride w o
  rw [hlegs] at honce
  have hbegins : (s.travelLeg (s.accessLeg o)).begins s.query.direction = instant :=
    (begins_travelLeg _).trans hinstant
  have hride : (s.travelLeg ride).kind ≠ .footpath := by
    rw [kind_travelLeg]
    exact ne_footpath_of_isRide hrides.isRide
  cases hready with
  | start _ _ =>
    cases honce with
    | direct ho hoffset _ hat =>
      have hends := sign_ends_of_isOffset s.query.direction hoffset
      rw [← hat, hbegins, begins_travelLeg] at hends
      rw [source_accessLeg hoffset] at hrides
      rename_i o' _
      have hle := o'.duration.minutes_le
      exact hrides.mem_startInstants hw hsearch (Nat.min_eq_left hle).symm (Query.mem_accesses ho)
        hends (by omega) hfirst hlast
    | onFoot _ _ hwalk _ _ _ _ => exact absurd hwalk hride
  | @startOnFoot _ w _ _ _ hwalk _ =>
    cases honce with
    | direct _ _ hwalk _ =>
      rw [kind_travelLeg] at hwalk
      cases hwalk
    | onFoot ho hoffset _ hplain hat _ hat' =>
      have hends := sign_ends_of_isOffset s.query.direction hoffset
      obtain ⟨f, hf, htarget, hlasts⟩ := exists_footpath_of_isPlainWalk hw hplain
      rw [← hat, hbegins, begins_travelLeg] at hends
      rw [begins_travelLeg, ends_travelLeg] at hat'
      have hsource : w.leg.source = o.location := source_of_mem_walks hwalk
      rw [hsource, source_accessLeg hoffset] at hf
      have htarget' : f.target = w.target := htarget
      rw [← htarget'] at hrides
      rename_i o' _ _
      have hle := o'.duration.minutes_le
      have hle' := f.duration.minutes_le
      have hlead : s.dir.sign (s.instantOf ride.start).minutes = s.dir.sign instant.minutes +
          ((o'.duration.minutes + f.duration.minutes : Nat) : Int) := by
        have hends' : s.dir.sign (s.instantOf w.leg.start).minutes =
            s.dir.sign instant.minutes + o'.duration.minutes := hends
        rw [hat', hlasts, hends']
        omega
      exact hrides.mem_startInstants hw hsearch (Duration.minutes_add _ _)
        (Query.mem_accesses_onFoot ho hf) hlead (by omega) hfirst hlast

end Search

namespace TwoVehicles

def morning : Query := { query with startTime := .interval (clock 470) (clock 520) }

def morningPlanner : Planner := ⟨timetable 540, morning, state, 0⟩

/-- From the first stop, when the first vehicle leaves, to an hour from the second one. -/
def firstJourney : Journey :=
  ⟨clock 480, clock 600, 0, [⟨⟨0⟩, ⟨0⟩, clock 480, clock 480, .offset 0⟩,
    ⟨⟨0⟩, ⟨1⟩, clock 480, clock 540, .ride ⟨0⟩ serviceDay 0 1⟩,
    ⟨⟨1⟩, ⟨1⟩, clock 540, clock 600, .offset 0⟩]⟩

end TwoVehicles

namespace TimedAccess

open TwoVehicles (calendar place serviceDay clock)

/-- A line that can be reached from a place by a walk of five minutes only, on a timed footpath. -/
def calls : List Call :=
  [.location (place "a"), .location (place "b"), .location (place "c"),
    .serviceDays ((ServiceDays.empty calendar).insert serviceDay),
    .route [⟨⟨1⟩, true, true⟩, ⟨⟨2⟩, true, true⟩] [.bus] [false],
    .transport ⟨0⟩ ⟨"only", ⟨0⟩, [540, 600].map fun time => ⟨.ofNat time, .ofNat time⟩, []⟩,
    .finishRoute, .timedFootpath ⟨0⟩ ⟨1⟩ (clock 0) (.clamp 5)]

def timetable : Timetable :=
  let b := ((Builder.new calendar).run calls).2
  { calendar := b.calendar
    locations := b.locations
    children := .ofKeyed 3 []
    serviceDays := b.serviceDays
    routes := b.routes
    bikes := .ofRegister b.bikes
    transports := b.transports
    routesByLocation := ⟨#[⟨0⟩, ⟨0⟩], #[0, 1, 2], by decide, rfl⟩
    footpathsFrom := .ofKeyed 3 []
    footpathsTo := .ofKeyed 3 []
    timedFootpathsFrom := ⟨#[⟨⟨1⟩, clock 0, .clamp 5⟩], #[1, 1, 1], by decide, rfl⟩
    timedFootpathsTo := ⟨#[⟨⟨0⟩, clock 0, .clamp 5⟩], #[0, 1, 1], by decide, rfl⟩ }

lemma isBuilt : timetable.IsBuilt := ⟨calendar, calls, by cbv⟩

/-- From the place to the end of the line. -/
def query (time : StartTime) : Query :=
  { TwoVehicles.query with
    startTime := time
    destination := [⟨⟨2⟩, .zero, 0⟩] }

def planner (time : StartTime) : Planner := ⟨timetable, query time, TwoVehicles.state, 0⟩

/-- Five minutes on foot, and the vehicle leaves when the walk is over. -/
def journey : Journey :=
  ⟨clock 535, clock 600, 0, [⟨⟨0⟩, ⟨0⟩, clock 535, clock 535, .offset 0⟩,
    ⟨⟨0⟩, ⟨1⟩, clock 535, clock 540, .footpath⟩,
    ⟨⟨1⟩, ⟨2⟩, clock 540, clock 600, .ride ⟨0⟩ serviceDay 0 1⟩,
    ⟨⟨2⟩, ⟨2⟩, clock 600, clock 600, .offset 0⟩]⟩

end TimedAccess

end JourneyPlanner
