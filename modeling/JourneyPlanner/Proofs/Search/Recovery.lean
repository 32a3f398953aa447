import Mathlib
import JourneyPlanner.Network.Construction
import JourneyPlanner.Proofs.Search.Accepting
import JourneyPlanner.Proofs.Search.Reconstruction

/-!
# No journey is lost

Every way to the destination that a search has found becomes a journey.
-/

namespace JourneyPlanner

lemma Query.allowsStays_of_maxStay_eq_none {q : Query} (h : ∀ via ∈ q.vias, via.maxStay = none)
    (tt : Timetable) (j : Journey) : q.allowsStays tt j = true := by
  unfold allowsStays
  rw [Bool.or_eq_true, List.all_eq_true]
  exact Or.inl fun via hvia => Option.isNone_iff_eq_none.2 (h via hvia)

namespace Search

variable {s : Search} {p : Progress} {k round : Nat} {h : Hit}

lemma Anchored.isFeasible (h : s.Anchored) : s.start.isFeasible = true := by
  obtain ⟨n, hn, _⟩ := h
  rw [RelTime.isFeasible, hn]
  rfl

/-- The legs that lead to the arrival of a recorded way to the destination are found again. -/
lemma Traced.exists_journeyOf? (hw : s.timetable.WellFormed) (hanchored : s.Anchored)
    (ht : s.Traced k p) (hh : p.hit? round = some h) :
    ∃ before, s.Leads round before h.arrival ∧ (∀ leg ∈ before, leg.Timed) ∧
      s.journeyOf? p.state round h = some (s.journey round h before) := by
  obtain ⟨_, harrives, htime, hf⟩ := ht.hits round h hh
  obtain ⟨before, hbefore, hleads⟩ := ht.legsTo? hw hanchored round h.arrival htime hf
  have htimed := hleads.timed hf hanchored.isFeasible
  exact ⟨before, hleads, htimed, journeyOf?_eq harrives hbefore htimed hanchored.isFeasible⟩

lemma Traced.round_range (ht : s.Traced k p) (hh : p.hit? round = some h) :
    1 ≤ round ∧ round ≤ k := by
  refine ⟨Nat.one_le_iff_ne_zero.2 (ht.hits round h hh).1, ?_⟩
  by_contra hlt
  rw [ht.hit_none round (by omega)] at hh
  cases hh

lemma foundEnd_journey (hf : h.destinationTime.isFeasible = true) (round : Nat)
    (before : List SearchLeg) :
    s.instant? h.destinationTime = some (s.query.foundEnd (s.journey round h before)) := by
  rw [instant?_eq hf]
  unfold Query.foundEnd journey dir
  cases s.query.direction <;> rfl

lemma givenEnd_journey (hf : s.start.isFeasible = true) (round : Nat) (before : List SearchLeg) :
    s.instant? s.start = some (s.query.givenEnd (s.journey round h before)) := by
  rw [instant?_eq hf]
  unfold Query.givenEnd journey dir
  cases s.query.direction <;> rfl

lemma mem_journeys {j : Journey} : j ∈ s.journeys p ↔ ∃ round h,
    (1 ≤ round ∧ round < 1 + (s.query.maxTransfers + 1)) ∧ p.hit? round = some h ∧
      s.journeyOf? p.state round h = some j ∧ s.query.allowsStays s.timetable j = true := by
  unfold journeys
  simp only [List.mem_filterMap, List.mem_range'_1, Option.bind_eq_bind, Option.bind_eq_some_iff,
    Option.filter_eq_some_iff]
  constructor
  · rintro ⟨round, hrange, h, hh, hj, hstays⟩
    exact ⟨round, h, hrange, hh, hj, hstays⟩
  · rintro ⟨round, h, hrange, hh, hj, hstays⟩
    exact ⟨round, hrange, h, hh, hj, hstays⟩

/-- A journey is that of a way to the destination. -/
lemma exists_way_of_mem_journeys (hw : s.timetable.WellFormed) (hanchored : s.Anchored)
    (hmax : s.query.maxTransfers ≤ maxTransfers) {st : SearchState} {j : Journey}
    (hj : j ∈ s.journeys (s.explore st).1) : ∃ k h before, (1 ≤ k ∧ k ≤ s.query.maxTransfers + 1) ∧
      s.Arrives h ∧ s.Leads k before h.arrival ∧ (∀ leg ∈ before, leg.Timed) ∧
        j = s.journey k h before := by
  obtain ⟨round, h, _, hh, hjourney, _⟩ := mem_journeys.1 hj
  obtain ⟨k, hk, htraced⟩ := traced_explore hw hmax st
  obtain ⟨before, hleads, htimed, hfound⟩ := htraced.exists_journeyOf? hw hanchored hh
  obtain ⟨hpositive, hround⟩ := htraced.round_range hh
  exact ⟨round, h, before, ⟨hpositive, Nat.le_trans hround hk⟩, (htraced.hits round h hh).2.1,
    hleads, htimed, Option.some.inj (hjourney.symm.trans hfound)⟩

/-- A way to the destination that a round has found becomes a journey, with one ride for each
round, that ends when that way does, not before the search begins. -/
lemma exists_mem_journeys (hw : s.timetable.WellFormed) (hanchored : s.Anchored)
    (hmax : s.query.maxTransfers ≤ maxTransfers) (hstays : ∀ via ∈ s.query.vias, via.maxStay = none)
    (st : SearchState) (hh : (s.explore st).1.hit? round = some h) :
    ∃ j, s.journeyOf? (s.explore st).1.state round h = some j ∧ j ∈ s.journeys (s.explore st).1 ∧
      j.transports.length = round ∧ j.nbOfTransfers + 1 = round ∧
        s.instant? h.destinationTime = some (s.query.foundEnd j) ∧
          s.dir.cost s.start ≤ s.dir.cost h.destinationTime := by
  obtain ⟨k, hk, htraced⟩ := traced_explore hw hmax st
  obtain ⟨before, hleads, _, hjourney⟩ := htraced.exists_journeyOf? hw hanchored hh
  have hround := htraced.round_range hh
  have hallowed := Query.allowsStays_of_maxStay_eq_none hstays s.timetable (s.journey round h before)
  have harrives := (htraced.hits round h hh).2.1
  refine ⟨_, hjourney, mem_journeys.2 ⟨round, h, by omega, hh, hjourney, hallowed⟩,
    length_transports_journey hleads, ?_, foundEnd_journey harrives.feasible _ _,
    Int.le_trans (hleads.start_le hw) harrives.cost_le⟩
  rw [nbOfTransfers_journey]
  omega

end Search

namespace TwoVehicles

def calendar : Calendar := ⟨⟨18262⟩, ⟨18263⟩, by decide, by decide⟩

def place (id : String) : Location := ⟨⟨⟨0⟩, id⟩, "", .station, none, none, .zero⟩

def vehicle (name : String) (first second third : Nat) : NewTransport :=
  ⟨name, ⟨0⟩, [first, second, third].map fun time => ⟨.ofNat time, .ofNat time⟩, []⟩

def serviceDay : Day := ⟨5, by decide⟩

/-- A line with three stops, on the first day of the calendar. The second vehicle leaves half an hour
after the first one, and is at the second stop at the given time of the day. -/
def calls (second : Nat) : List Call :=
  [.location (place "a"), .location (place "b"), .location (place "c"),
    .serviceDays ((ServiceDays.empty calendar).insert serviceDay),
    .route [⟨⟨0⟩, true, true⟩, ⟨⟨1⟩, true, true⟩, ⟨⟨2⟩, true, true⟩] [.bus] [false],
    .transport ⟨0⟩ (vehicle "first" 480 540 600),
    .transport ⟨0⟩ (vehicle "second" 510 second 660),
    .finishRoute]

def timetable (second : Nat) : Timetable :=
  let b := ((Builder.new calendar).run (calls second)).2
  { calendar := b.calendar
    locations := b.locations
    children := .ofKeyed 3 []
    serviceDays := b.serviceDays
    routes := b.routes
    bikes := .ofRegister b.bikes
    transports := b.transports
    routesByLocation := ⟨#[⟨0⟩, ⟨0⟩, ⟨0⟩], #[1, 2, 3], by decide, rfl⟩
    footpathsFrom := .ofKeyed 3 []
    footpathsTo := .ofKeyed 3 []
    timedFootpathsFrom := .ofKeyed 3 []
    timedFootpathsTo := .ofKeyed 3 [] }

/-- An instant of the first day of the calendar. -/
def clock (minutes : Nat) : Instant := .clamp (18262 * 1440 + minutes)

/-- From the first stop, at ten past eight, to the last one, or to an hour from the second one. -/
def query : Query :=
  { startTime := .instant (clock 490)
    direction := .forward
    start := [⟨⟨0⟩, .zero, 0⟩]
    destination := [⟨⟨1⟩, .clamp 60, 0⟩, ⟨⟨2⟩, .zero, 0⟩]
    vias := []
    allowedClasses := .all
    requireBikes := false
    maxTransfers := 1 }

def state : SearchState := .sized 1 3 1 0

def planner (second : Nat) : Planner := ⟨timetable second, query, state, 0⟩

def search (second : Nat) : Search := ⟨timetable second, query, serviceDay, .ofMinutes 490⟩

/-- The way to the destination by way of the second stop, with the second vehicle. -/
def hit : Hit :=
  ⟨⟨⟨1⟩, 0, .ofMinutes 540⟩, none, ⟨1⟩, .ofMinutes 540, ⟨⟨1⟩, .clamp 60, 0⟩, .ofMinutes 600⟩

lemma isBuilt {second : Nat} (h : second = 540 ∨ second = 545) : (timetable second).IsBuilt := by
  refine ⟨calendar, calls second, ?_⟩
  rcases h with rfl | rfl <;> cbv

lemma accept_eq {second : Nat} (h : second = 540 ∨ second = 545) :
    Planner.accept (timetable second) state query = .ok (planner second) := by
  rcases h with rfl | rfl <;> cbv

lemma at?_eq : Search.at? (timetable 540) query (clock 490) = some (search 540) := by cbv

end TwoVehicles

end JourneyPlanner
