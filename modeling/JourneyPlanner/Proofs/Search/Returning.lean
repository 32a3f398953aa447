import JourneyPlanner.Proofs.Search.Completeness
import JourneyPlanner.Proofs.Search.Mirroring

/-!
# There and back

What a query answers is answered as well by the query in the other direction from where it ends.
-/

namespace JourneyPlanner

namespace Query

variable {q : Query} {tt : Timetable} {t : Instant} {n : Nat}

/-- The query in the other direction can be asked when the one in this direction can. -/
lemma Fits.mirrored (h : q.Fits tt n) (ht : tt.calendar.contains t = true) :
    (q.mirrored t).Fits tt n := by
  refine ⟨h.ends, h.starts, fun l hl => h.known l ?_, h.vias_le, h.vias_eq, h.consistent,
    h.maxTransfers_le, if_pos ht⟩
  unfold Query.locations Query.mirrored at *
  simp only [List.map_append, List.mem_append] at hl ⊢
  tauto

lemma foundEnd_mirrored (q : Query) (t : Instant) (j : Journey) :
    (q.mirrored t).foundEnd j = q.givenEnd j := by
  unfold foundEnd givenEnd mirrored
  cases q.direction <;> rfl

lemma notAfter_mirrored {u v : Instant} : (q.mirrored t).NotAfter u v ↔ q.NotAfter v u := by
  unfold NotAfter mirrored
  cases q.direction <;> exact Iff.rfl

end Query

namespace Search

variable {s : Search} {t u : Instant} {finish x : RelTime} {k : Nat} {leg : SearchLeg} {base : Day}
  {h : Hit} {before : List SearchLeg}

lemma travelLeg_mem_journey (hleg : leg ∈ h.legs before) :
    s.travelLeg leg ∈ (s.journey k h before).legs := by
  rw [legs_journey]
  unfold travelLegs
  cases s.dir with
  | forward => exact List.mem_reverse.2 (List.mem_map_of_mem hleg)
  | backward => exact List.mem_map_of_mem hleg

/-- A forward search back can always tell where a way begins. -/
lemma Spans.isFeasible_relative {time : ServiceTime} (h : s.Spans finish t u)
    (hbase : s.timetable.calendar.split? u = some (base, time)) (hdir : s.dir = .forward)
    (hge : s.midnight ≤ t.minutes) (hle : s.dir.cost s.start ≤ s.dir.cost finish) :
    (s.timetable.calendar.relative base t).isFeasible = true := by
  obtain ⟨hfirst, hlast, _, _⟩ := Calendar.split?_sound hbase
  have hrange := RelTime.range_of_minutes? h.finish_eq
  rw [h.cost_start, h.cost_finish, hdir] at hle
  simp only [Direction.sign_forward] at hle
  rw [Calendar.relative_eq, Calendar.minutes_dayStart hfirst, RelTime.isFeasible_ofMinutes_iff]
  omega

/-- The walks of a journey on plain footpaths are plain walks of its search. -/
lemma Spans.plain (hspans : s.Spans h.destinationTime t u) (hw : s.timetable.WellFormed)
    (harrives : s.Arrives h) (hleads : s.Leads k before h.arrival)
    (hplain : (s.journey k h before).WalksPlainly s.timetable) :
    s.Plain (Walk.legs h.walk ++ before) := by
  intro leg hleg hkind
  have hlies : s.LiesIn leg s.start h.destinationTime := by
    rcases List.mem_append.1 hleg with hleg | hleg
    · exact (harrives.liesIn leg hleg).mono (hleads.start_le hw) (Int.le_refl _)
    · exact (hleads.liesIn hw leg hleg).mono (Int.le_refl _) harrives.cost_le
  have hmem : s.travelLeg leg ∈ (s.journey k h before).legs :=
    travelLeg_mem_journey (List.mem_cons_of_mem _ hleg)
  exact hspans.walksOn hw hlies hkind (hplain _ hmem ((kind_travelLeg leg).trans hkind))

lemma allNear_mirrored (hnear : (s.journey k h before).LeavesNear s.dir.opposite base)
    (instant : Instant) : (s.mirrored base instant).AllNear before := by
  intro leg hleg transport day board alight hkind
  have hmem : s.travelLeg leg ∈ (s.journey k h before).legs :=
    travelLeg_mem_journey (List.mem_append_right _ hleg)
  have hday := hnear _ hmem transport day board alight ((kind_travelLeg leg).trans hkind)
  have hdays : maxDaysInTrip = 5 := rfl
  unfold Near Day.daysSince
  rw [dir_mirrored, baseDay_mirrored]
  cases hdir : s.dir with
  | forward =>
    simp only [hdir, Direction.opposite] at hday ⊢
    omega
  | backward =>
    simp only [hdir, Direction.opposite] at hday ⊢
    omega

/-- The last via stop is not where a journey walks to at its end. -/
lemma location_ne_of_not_walksToVia (hend : ¬(s.journey k h before).WalksToVia s.query) :
    ∀ w ∈ h.walk, ∀ via ∈ s.query.searchVias.getLast?, via.location ≠ w.target := by
  intro w hw via hvia heq
  apply hend
  have hlegs : h.legs before = h.egressLeg :: w.leg :: before := by
    unfold Hit.legs
    rw [Option.mem_def.1 hw]
    rfl
  unfold Journey.WalksToVia
  rw [legs_journey, hlegs]
  unfold travelLegs
  unfold Query.searchVias at hvia
  cases hdir : s.query.direction with
  | forward =>
    have hdir' : s.dir = .forward := hdir
    simp only [hdir] at hvia
    simp only [hdir', List.map_cons, List.reverse_cons, List.dropLast_concat, List.getLast?_concat]
    refine ⟨_, rfl, kind_travelLeg _, via, hvia, ?_⟩
    unfold travelLeg
    rw [hdir']
    exact heq
  | backward =>
    have hdir' : s.dir = .backward := hdir
    simp only [hdir, List.getLast?_reverse] at hvia
    simp only [hdir', List.map_cons, List.tail_cons, List.head?_cons]
    refine ⟨_, rfl, kind_travelLeg _, via, hvia, ?_⟩
    unfold travelLeg
    rw [hdir']
    exact heq

/-- The search back from where a journey ends covers a way back to where it begins. -/
lemma exists_journey_mirrored {time : ServiceTime} {st : SearchState} (hw : s.timetable.WellFormed)
    (hordered : s.timetable.StrictlyOrdered) (hspans : s.Spans h.destinationTime t u)
    (hbase : s.timetable.calendar.split? u = some (base, time))
    (hrange : (s.timetable.calendar.relative base t).isFeasible = true)
    (hmax : s.query.maxTransfers ≤ maxTransfers) (hstays : ∀ via ∈ s.query.vias, via.maxStay = none)
    (hsuits : (s.mirrored base u).Suits st) (hk : 1 ≤ k ∧ k ≤ s.query.maxTransfers + 1)
    (harrives : s.Arrives h) (hleads : s.Leads k before h.arrival)
    (hwalks : (s.journey k h before).WalksPlainly s.timetable ∨
      (s.query.direction = .forward ∧ 0 < t.minutes))
    (hnear : (s.journey k h before).LeavesNear s.dir.opposite base)
    (hend : ¬(s.journey k h before).WalksToVia s.query) :
    ∃ j ∈ (s.mirrored base u).journeys ((s.mirrored base u).explore st).1,
      j.nbOfTransfers ≤ k - 1 ∧ s.query.NotAfter t (s.query.givenEnd j) := by
  have hm := hspans.mirrors hbase hrange
  have hsearch : Search.at? s.timetable (s.query.mirrored u) u = some (s.mirrored base u) :=
    exists_at? hbase
  obtain ⟨_, _, hanchored, _, _⟩ := at?_sound hsearch
  have hback := hspans.mirrored hbase hrange
  have hlegs : s.WalksBack base u h.destinationTime (Walk.legs h.walk ++ before) := by
    rcases hwalks with hplain | ⟨hdir, hpos⟩
    · exact hm.walksBack_of_plain hw (hspans.plain hw harrives hleads hplain)
    · exact hm.walksBack_of_forward hw hspans hback hdir hpos _
  have hready := hm.readyAfter harrives rfl (hleads.start_le hw)
    (hlegs.mono (List.subset_append_left _ _)) (location_ne_of_not_walksToVia hend)
  have hway := hm.arrivesBy hw hleads harrives.cost_le (hlegs.mono (List.subset_append_right _ _))
    (allNear_mirrored hnear u) hready
  rw [Nat.zero_add] at hway
  have hk' : k - 1 ≤ (s.mirrored base u).query.maxTransfers := Nat.sub_le_of_le_add hk.2
  obtain ⟨j, hj, _, htransfers, x, hstart, hle, hx⟩ := exists_journey_of_arrivesBy
    (s := s.mirrored base u) hw hordered hanchored hsuits hmax hstays hk' hway
  refine ⟨j, hj, htransfers, ?_⟩
  have hsign := hback.sign_instantOf hstart hle
  have hinstant : (s.mirrored base u).instantOf x = s.query.givenEnd j := by
    unfold instantOf
    rw [hx, Option.getD_some]
    exact Query.foundEnd_mirrored s.query u j
  rw [hinstant] at hsign
  rw [hback.cost_finish] at hle
  have hafter : (s.mirrored base u).query.NotAfter (s.query.givenEnd j) t := by
    have hsum := (s.mirrored base u).dir.sign_add (s.mirrored base u).midnight
      (t.minutes - (s.mirrored base u).midnight)
    have hcancel : (s.mirrored base u).midnight + (t.minutes - (s.mirrored base u).midnight) =
        t.minutes := by omega
    rw [hcancel] at hsum
    rw [notAfter_iff_sign]
    omega
  exact Query.notAfter_mirrored.1 hafter

end Search

namespace TwoVehicles

/-- From the first stop to an hour from the second one, by the second vehicle. -/
def secondJourney : Journey :=
  ⟨clock 490, clock 605, 0, [⟨⟨0⟩, ⟨0⟩, clock 490, clock 490, .offset 0⟩,
    ⟨⟨0⟩, ⟨1⟩, clock 510, clock 545, .ride ⟨1⟩ serviceDay 0 1⟩,
    ⟨⟨1⟩, ⟨1⟩, clock 545, clock 605, .offset 0⟩]⟩

end TwoVehicles

namespace Planner

variable {p : Planner} {j : Journey}

/-- The query in the other direction, from where a journey ends, can be asked, and no answer matches
the journey. -/
def IsOneWay (p : Planner) (j : Journey) : Prop :=
  match (solve p.timetable p.state (p.query.mirrored (p.query.foundEnd j))).1 with
  | .error _ => False
  | .ok journeys => ∀ j' ∈ journeys, j'.nbOfTransfers ≤ j.nbOfTransfers →
      ¬p.query.NotAfter (p.query.givenEnd j) (p.query.givenEnd j')

instance : Decidable (p.IsOneWay j) :=
  match h : (solve p.timetable p.state (p.query.mirrored (p.query.foundEnd j))).1 with
  | .error _ => .isFalse (by unfold IsOneWay; rw [h]; exact id)
  | .ok journeys => decidable_of_iff (∀ j' ∈ journeys, j'.nbOfTransfers ≤ j.nbOfTransfers →
      ¬p.query.NotAfter (p.query.givenEnd j) (p.query.givenEnd j')) (by unfold IsOneWay; rw [h])

/-- A query from an instant, without limits for its stays, is answered by a journey that nothing
matches on the way back. -/
structure HasOneWay (p : Planner) : Prop where
  isBuilt : p.timetable.IsBuilt
  accept_eq : Planner.accept p.timetable p.state p.query = .ok p
  start_eq : ∃ t, p.query.startTime = .instant t
  stays : ∀ via ∈ p.query.vias, via.maxStay = none
  exists_isOneWay : ∃ j ∈ p.run.1, p.IsOneWay j

end Planner

namespace OneWay

open TwoVehicles (place)

/-- The first month of 2020. -/
def recent : Calendar := ⟨⟨18262⟩, ⟨18292⟩, by decide, by decide⟩

/-- The first month of 1960. -/
def early : Calendar := ⟨⟨-3653⟩, ⟨-3623⟩, by decide, by decide⟩

def serviceDay : Day := ⟨30, by decide⟩

def nextDay : Day := ⟨31, by decide⟩

/-- An instant of the service day. -/
def clock (c : Calendar) (minutes : Int) : Instant :=
  .clamp ((c.firstDate.dayNumber + 25) * 1440 + minutes)

def vehicle (name : String) (days : ServiceDaysIndex) (times : List Nat) : NewTransport :=
  ⟨name, days, times.map fun time => ⟨.ofNat time, .ofNat time⟩, []⟩

/-- A vehicle of the service day from `a` to `b`. One of the next day is at `b` only four days later,
and goes on to `d`. From `b` one walks to `e` at any time, to `f` faster when it is later, and to `g`
for two hours only. -/
def calls (c : Calendar) : List Call :=
  (["a", "b", "c", "d", "e", "f", "g"].map fun id => Call.location (place id)) ++
    [.serviceDays ((ServiceDays.empty c).insert serviceDay),
      .serviceDays ((ServiceDays.empty c).insert nextDay),
      .route [⟨⟨0⟩, true, true⟩, ⟨⟨1⟩, true, true⟩] [.bus] [false],
      .transport ⟨0⟩ (vehicle "first" ⟨0⟩ [480, 540]),
      .finishRoute,
      .route [⟨⟨2⟩, true, true⟩, ⟨⟨1⟩, true, true⟩, ⟨⟨3⟩, true, true⟩] [.bus] [false],
      .transport ⟨1⟩ (vehicle "second" ⟨1⟩ [0, 6360, 6420]),
      .finishRoute,
      .footpath ⟨1⟩ ⟨4⟩ (.clamp 10),
      .timedFootpath ⟨1⟩ ⟨5⟩ (clock c 480) (.clamp 50),
      .timedFootpath ⟨1⟩ ⟨5⟩ (clock c 580) (.clamp 50),
      .timedFootpath ⟨1⟩ ⟨5⟩ (clock c 590) (.clamp 1),
      .timedFootpath ⟨1⟩ ⟨6⟩ (clock c 480) (.clamp 5),
      .timedFootpath ⟨1⟩ ⟨6⟩ (clock c 600) .unusable]

/-- The timed footpaths of the network, with what is at their other ends. -/
def timedFootpaths (c : Calendar) (f g : LocationIndex) : Array TimedFootpath :=
  #[⟨f, clock c 480, .clamp 50⟩, ⟨f, clock c 580, .clamp 50⟩, ⟨f, clock c 590, .clamp 1⟩,
    ⟨g, clock c 480, .clamp 5⟩, ⟨g, clock c 600, .unusable⟩]

def timetable (c : Calendar) : Timetable :=
  let b := ((Builder.new c).run (calls c)).2
  { calendar := b.calendar
    locations := b.locations
    children := .ofKeyed 7 []
    serviceDays := b.serviceDays
    routes := b.routes
    bikes := .ofRegister b.bikes
    transports := b.transports
    routesByLocation := ⟨#[⟨0⟩, ⟨0⟩, ⟨1⟩, ⟨1⟩, ⟨1⟩], #[1, 3, 4, 5, 5, 5, 5], by decide, rfl⟩
    footpathsFrom := ⟨#[⟨⟨4⟩, .clamp 10⟩], #[0, 1, 1, 1, 1, 1, 1], by decide, rfl⟩
    footpathsTo := ⟨#[⟨⟨1⟩, .clamp 10⟩], #[0, 0, 0, 0, 1, 1, 1], by decide, rfl⟩
    timedFootpathsFrom := ⟨timedFootpaths c ⟨5⟩ ⟨6⟩, #[0, 5, 5, 5, 5, 5, 5], by decide, rfl⟩
    timedFootpathsTo := ⟨timedFootpaths c ⟨1⟩ ⟨1⟩, #[0, 0, 0, 0, 0, 3, 5], by decide, rfl⟩ }

def query (dir : Direction) (t : Instant) (start destination : Offset) (vias : List ViaStop) :
    Query :=
  { startTime := .instant t
    direction := dir
    start := [start]
    destination := [destination]
    vias := vias
    allowedClasses := .all
    requireBikes := false
    maxTransfers := 1 }

def planner (c : Calendar) (q : Query) : Planner :=
  ⟨timetable c, q, .sized (q.vias.length + 1) 7 2 0, 0⟩

/-- From `a` to `d`, where the day on which the first vehicle leaves is long over. -/
def far : Planner :=
  planner recent (query .forward (clock recent 480) ⟨⟨0⟩, .zero, 0⟩ ⟨⟨3⟩, .zero, 0⟩ [])

/-- To `b`, from somewhere more than three weeks before `a`. -/
def long : Planner :=
  planner recent (query .backward (clock recent 540) ⟨⟨1⟩, .zero, 0⟩ ⟨⟨0⟩, .clamp 33000, 0⟩ [])

/-- From `a` to `e`, where the last stay is. -/
def toVia : Planner :=
  planner recent (query .forward (clock recent 480) ⟨⟨0⟩, .zero, 0⟩ ⟨⟨4⟩, .zero, 0⟩
    [⟨⟨4⟩, .clamp 5, none⟩])

/-- To `f`, where one can walk at the last minute. -/
def lastMinute : Planner :=
  planner recent (query .backward (clock recent 591) ⟨⟨5⟩, .zero, 0⟩ ⟨⟨0⟩, .zero, 0⟩ [])

/-- From `a` to `g`, before the epoch. -/
def beforeEpoch : Planner :=
  planner early (query .forward (clock early 480) ⟨⟨0⟩, .zero, 0⟩ ⟨⟨6⟩, .zero, 0⟩ [])

end OneWay

end JourneyPlanner
