import JourneyPlanner.Proofs.Network.Sections
import JourneyPlanner.Proofs.Search.Answers

/-!
# The classes of the sections that are ridden

A query admits a route by the class of its first section. Every ride of an answer is on a route
whose first section is of an allowed class; the class of another section of the same route is not
looked at.
-/

namespace JourneyPlanner

namespace Search

variable {s : Search} {k : Nat}

lemma mem_travelLegs {legs : List SearchLeg} {leg : Leg} :
    leg ∈ s.travelLegs legs ↔ ∃ x ∈ legs, s.travelLeg x = leg := by
  unfold travelLegs
  cases s.dir with
  | forward => exact List.mem_reverse.trans List.mem_map
  | backward => exact List.mem_map

lemma Arrives.between_of_isRide {h : Hit} (harrives : s.Arrives h) {before : List SearchLeg}
    (hleads : s.Leads k before h.arrival) {x : SearchLeg} (hx : x ∈ h.legs before)
    (hride : x.kind.isRide = true) : s.Between x := by
  obtain ⟨level, _, hstands⟩ := harrives.stands
  obtain ⟨middle, o, rfl, _, hbetween⟩ := hleads.between
  rcases List.mem_append.1 hx with hx | hx
  · rcases List.mem_cons.1 hx with rfl | hx
    · exact absurd hride Bool.false_ne_true
    · exact hstands.between x hx
  · rcases List.mem_append.1 hx with hx | hx
    · exact hbetween x hx
    · rw [List.mem_singleton.1 hx] at hride
      exact absurd hride Bool.false_ne_true

lemma Arrives.isRide_of_mem_journey (hw : s.timetable.WellFormed) {h : Hit}
    (harrives : s.Arrives h) {before : List SearchLeg} (hleads : s.Leads k before h.arrival)
    (htimed : ∀ leg ∈ before, leg.Timed) {leg : Leg} (hleg : leg ∈ (s.journey k h before).legs)
    {transport : TransportIndex} {day : Day} {board alight : Nat}
    (hkind : leg.kind = .ride transport day board alight) :
    leg.IsRide s.timetable s.query transport day board alight := by
  rw [legs_journey] at hleg
  obtain ⟨x, hx, rfl⟩ := mem_travelLegs.1 hleg
  have hxkind := (kind_travelLeg (s := s) x).symm.trans hkind
  have hride : x.kind.isRide = true := by rw [hxkind]; rfl
  rcases harrives.between_of_isRide hleads hx hride with
    ⟨l, level, t, a, r, trip, boardStep, alightStep, hrides, hintime, rfl⟩ | ⟨l, t, w, _, rfl⟩
  · have hfinish := (harrives.timed_legs htimed _ hx).2
    obtain ⟨first, last, hisRide⟩ := hrides.isRide hw hintime.feasible hfinish
    cases hisRide.kind_eq.symm.trans hkind
    exact hisRide
  · cases hxkind

/-- A ride of a journey that a search tells is one that the timetable offers and the query admits. -/
theorem isRide_of_mem_journeys (hw : s.timetable.WellFormed) (hanchored : s.Anchored)
    (hmax : s.query.maxTransfers ≤ maxTransfers) {st : SearchState} {j : Journey}
    (hj : j ∈ s.journeys (s.explore st).1) {leg : Leg} (hleg : leg ∈ j.legs)
    {transport : TransportIndex} {day : Day} {board alight : Nat}
    (hkind : leg.kind = .ride transport day board alight) :
    leg.IsRide s.timetable s.query transport day board alight := by
  obtain ⟨k, h, before, _, harrives, hleads, htimed, rfl⟩ :=
    exists_way_of_mem_journeys hw hanchored hmax hj
  exact harrives.isRide_of_mem_journey hw hleads htimed hleg hkind

end Search

/-- A ride of an answer is one that the timetable offers and the query admits. -/
theorem isRide_of_mem_run {tt : Timetable} (hbuilt : tt.IsBuilt) {accepting : SearchState}
    {q : Query} {planner : Planner} (haccept : Planner.accept tt accepting q = .ok planner)
    {j : Journey} (hj : j ∈ planner.run.1) {leg : Leg} (hleg : leg ∈ j.legs)
    {transport : TransportIndex} {day : Day} {board alight : Nat}
    (hkind : leg.kind = .ride transport day board alight) :
    leg.IsRide tt q transport day board alight := by
  obtain ⟨rfl, hfits, _⟩ := Planner.accept_eq_ok_iff.1 haccept
  obtain ⟨t, _, s, st, hsearch, hanswer⟩ := Planner.answers_of_mem_run hj
  obtain ⟨rfl, rfl, hanchored, _, _⟩ := Search.at?_sound hsearch
  exact Search.isRide_of_mem_journeys hbuilt.wellFormed hanchored hfits.maxTransfers_le hanswer
    hleg hkind

namespace Leg

variable {leg : Leg} {tt : Timetable} {q : Query}

/-- Every section that a leg rides is of a class that the query allows. -/
def KeepsToClasses (leg : Leg) (tt : Timetable) (q : Query) : Prop :=
  ∀ transport ∈ leg.transport?, ∀ position ∈ leg.sections,
    ∃ c ∈ tt.sectionClass? (tt.routeOf transport) position, q.allowedClasses.contains c = true

/-- The first section of the route of a leg is of a class that the query allows, and so is every
section that the leg rides, unless it is of another class than the first one. -/
structure KeepsToMainClass (leg : Leg) (tt : Timetable) (q : Query) (r : RouteIndex) : Prop where
  main_allowed : ∃ c ∈ tt.sectionClass? r 0, q.allowedClasses.contains c = true
  allowed_or_other : ∀ position ∈ leg.sections, ∃ c ∈ tt.sectionClass? r position,
    q.allowedClasses.contains c = true ∨ tt.sectionClass? r 0 ≠ some c

instance (leg : Leg) (tt : Timetable) (q : Query) : Decidable (leg.KeepsToClasses tt q) :=
  inferInstanceAs (Decidable (∀ transport ∈ leg.transport?, ∀ position ∈ leg.sections,
    ∃ c ∈ tt.sectionClass? (tt.routeOf transport) position, q.allowedClasses.contains c = true))

lemma exists_kind_of_transport? {transport : TransportIndex}
    (h : leg.transport? = some transport) :
    ∃ day board alight, leg.kind = .ride transport day board alight := by
  unfold transport? at h
  cases hkind : leg.kind with
  | ride t day board alight =>
    rw [hkind] at h
    cases h
    exact ⟨day, board, alight, rfl⟩
  | offset | footpath =>
    rw [hkind] at h
    cases h

/-- The sections of a ride are between two stops of its route. -/
lemma IsRide.section_lt {transport : TransportIndex} {day : Day} {board alight : Nat}
    (h : leg.IsRide tt q transport day board alight) {position : Nat}
    (hposition : position ∈ leg.sections) :
    position + 1 < (tt.stops (tt.routeOf transport)).size := by
  obtain ⟨stop, hstop, _⟩ := h.alighting
  have halight := (Array.getElem?_eq_some_iff.1 hstop).1
  rw [sections, h.kind_eq] at hposition
  have hrange := List.mem_range'_1.1 hposition
  omega

/-- A ride that a query admits keeps to the class of its route. -/
lemma IsRide.keepsToMainClass {transport : TransportIndex} {day : Day} {board alight : Nat}
    (h : leg.IsRide tt q transport day board alight) (hbuilt : tt.IsBuilt) :
    leg.KeepsToMainClass tt q (tt.routeOf transport) := by
  obtain ⟨main, hmain, hallowed⟩ := h.class_allowed
  rw [← Timetable.sectionClass?_zero] at hmain
  refine ⟨⟨main, hmain, hallowed⟩, fun position hposition => ?_⟩
  obtain ⟨c, hc⟩ := hbuilt.exists_sectionClass? (h.section_lt hposition)
  refine ⟨c, hc, ?_⟩
  by_cases heq : tt.sectionClass? (tt.routeOf transport) 0 = some c
  · left
    cases heq.symm.trans hmain
    exact hallowed
  · exact Or.inr heq

end Leg

/-- Whoever rides is on a route whose first section is of a class that the query allows. A section
of a class that is not allowed is ridden only on a route that changes its class. -/
theorem keepsToMainClass_of_mem_run {tt : Timetable} (hbuilt : tt.IsBuilt)
    {accepting : SearchState} {q : Query} {planner : Planner}
    (haccept : Planner.accept tt accepting q = .ok planner) {j : Journey}
    (hj : j ∈ planner.run.1) {leg : Leg} (hleg : leg ∈ j.legs) {transport : TransportIndex}
    (htransport : leg.transport? = some transport) :
    leg.KeepsToMainClass tt q (tt.routeOf transport) := by
  obtain ⟨day, board, alight, hkind⟩ := Leg.exists_kind_of_transport? htransport
  exact (isRide_of_mem_run hbuilt haccept hj hleg hkind).keepsToMainClass hbuilt

/-- Every section that is ridden in an answer is of a class that the query allows. -/
def Planner.KeepsToClasses (p : Planner) : Prop :=
  ∀ j ∈ p.run.1, ∀ leg ∈ j.legs, leg.KeepsToClasses p.timetable p.query

instance (p : Planner) : Decidable p.KeepsToClasses :=
  inferInstanceAs (Decidable (∀ j ∈ p.run.1, ∀ leg ∈ j.legs, leg.KeepsToClasses p.timetable p.query))

namespace MixedLine

open TwoVehicles (calendar place vehicle serviceDay clock)

/-- A line that is a bus to its second stop and a tram from there on. -/
def calls : List Call :=
  [.location (place "a"), .location (place "b"), .location (place "c"),
    .serviceDays ((ServiceDays.empty calendar).insert serviceDay),
    .route [⟨⟨0⟩, true, true⟩, ⟨⟨1⟩, true, true⟩, ⟨⟨2⟩, true, true⟩] [.bus, .tram] [false],
    .transport ⟨0⟩ (vehicle "mixed" 480 540 600),
    .finishRoute]

def timetable : Timetable :=
  let b := ((Builder.new calendar).run calls).2
  { TwoVehicles.timetable 540 with
    routes := b.routes
    bikes := .ofRegister b.bikes
    transports := b.transports }

lemma isBuilt : timetable.IsBuilt := ⟨calendar, calls, by cbv⟩

/-- To the last stop, by bus. -/
def query : Query :=
  { TwoVehicles.query with
    startTime := .instant (clock 470)
    destination := [⟨⟨2⟩, .zero, 0⟩]
    allowedClasses := .ofList [.bus] }

def state : SearchState := .sized 1 3 1 0

def planner : Planner := ⟨timetable, query, state, 0⟩

lemma accept_eq : Planner.accept timetable state query = .ok planner := by cbv

/-- The whole line, past the stop at which its class changes. -/
def ride : Leg := ⟨⟨0⟩, ⟨2⟩, clock 480, clock 600, .ride ⟨0⟩ serviceDay 0 2⟩

def journey : Journey :=
  ⟨clock 470, clock 600, 0, [⟨⟨0⟩, ⟨0⟩, clock 470, clock 470, .offset 0⟩, ride,
    ⟨⟨2⟩, ⟨2⟩, clock 600, clock 600, .offset 0⟩]⟩

/-- The line is ridden to its last stop, and its first section is a bus. -/
theorem keepsToMainClass_ride : journey ∈ planner.run.1 ∧ ride.transport? = some ⟨0⟩ ∧
    ride.KeepsToMainClass timetable query (timetable.routeOf ⟨0⟩) := by
  have hmem : journey ∈ planner.run.1 := by decide +kernel
  exact ⟨hmem, rfl, keepsToMainClass_of_mem_run isBuilt accept_eq hmem (by decide) rfl⟩

/-- The tram is ridden as well, and only buses are allowed. -/
theorem not_keepsToClasses_planner : timetable.IsBuilt ∧
    Planner.accept timetable state query = .ok planner ∧ ¬planner.KeepsToClasses :=
  ⟨isBuilt, accept_eq, by decide +kernel⟩

end MixedLine

end JourneyPlanner
