import Mathlib
import JourneyPlanner.Proofs.Search.Assigning
import JourneyPlanner.Proofs.Search.Recovery

/-!
# Journeys that stay too long

A visit is given as many via stops as it is long enough for. Nobody gives it more, so a journey is
discarded at the first visit that is too long for a via stop which no earlier visit could serve. Its
via stops cannot be given in another way, unless one of them is served later, when the journey
comes back.
-/

namespace JourneyPlanner

namespace ViaStop

variable {vias : List ViaStop} {visits : List Visit} {visit : Visit} {via : ViaStop}

/-- A visit is long enough for a via stop, and longer than it allows. -/
structure IsExceededBy (via : ViaStop) (visit : Visit) : Prop where
  at_location : via.location = visit.location
  long_enough : via.stay ≤ visit.stay
  not_permitted : ¬via.Permits visit

/-- No visit serves a via stop after one that is too long for it. -/
def NotServedLater (via : ViaStop) (visits : List Visit) : Prop :=
  visits.Pairwise fun visit later => via.IsExceededBy visit → ¬ServedBy [via] later

instance (via : ViaStop) (visit : Visit) : Decidable (via.Permits visit) :=
  inferInstanceAs (Decidable (∀ longest ∈ via.maxStay, _))

instance (vias : List ViaStop) (visit : Visit) : Decidable (ServedBy vias visit) :=
  decidable_of_iff ((∀ via ∈ vias, via.location = visit.location) ∧
      totalStay vias ≤ visit.stay.minutes ∧ ∀ via ∈ vias, via.Permits visit)
    ⟨fun h => ⟨h.1, h.2.1, h.2.2⟩, fun h => ⟨h.at_location, h.long_enough, h.permitted⟩⟩

instance (via : ViaStop) (visit : Visit) : Decidable (via.IsExceededBy visit) :=
  decidable_of_iff (via.location = visit.location ∧ via.stay ≤ visit.stay ∧ ¬via.Permits visit)
    ⟨fun h => ⟨h.1, h.2.1, h.2.2⟩, fun h => ⟨h.at_location, h.long_enough, h.not_permitted⟩⟩

instance (via : ViaStop) (visits : List Visit) : Decidable (via.NotServedLater visits) :=
  inferInstanceAs (Decidable (visits.Pairwise _))

lemma stay_le_totalStay (hvia : via ∈ vias) : via.stay.minutes ≤ totalStay vias := by
  induction vias with
  | nil => cases hvia
  | cons first vias ih =>
    rw [totalStay_cons]
    rcases List.mem_cons.1 hvia with rfl | hvia
    · exact Nat.le_add_right _ _
    · exact Nat.le_trans (ih hvia) (Nat.le_add_left _ _)

/-- A visit that serves several via stops serves each of them. -/
lemma ServedBy.of_mem (h : ServedBy vias visit) (hvia : via ∈ vias) : ServedBy [via] visit := by
  refine ⟨fun other hother => ?_, ?_, fun other hother => ?_⟩
  · rw [List.mem_singleton.1 hother]
    exact h.at_location via hvia
  · rw [totalStay_cons, totalStay_nil, Nat.add_zero]
    exact Nat.le_trans (stay_le_totalStay hvia) h.long_enough
  · rw [List.mem_singleton.1 hother]
    exact h.permitted via hvia

/-- A visit that cannot be given via stops is too long for one of them. -/
lemma exists_isExceededBy_of_serve {required : Duration}
    (h : serve visit required vias = none) :
    ∃ via ∈ vias, via.IsExceededBy visit := by
  induction vias generalizing required with
  | nil => cases h
  | cons via vias ih =>
    rw [serve] at h
    split at h
    · cases h
    · rename_i hfits
      obtain ⟨hlocation, hlong⟩ := not_or.1 hfits
      split at h
      · rename_i hexceeded
        have hadd := Duration.minutes_add required via.stay
        have hle : (required.add via.stay).minutes ≤ visit.stay.minutes := Nat.le_of_not_lt hlong
        have hbound := via.stay.minutes_le
        refine ⟨via, List.mem_cons_self, not_not.1 hlocation, ?_, not_permits_iff.2 hexceeded⟩
        show via.stay.minutes ≤ visit.stay.minutes
        omega
      · obtain ⟨other, hother, hexceeded⟩ := ih h
        exact ⟨other, List.mem_cons_of_mem _ hother, hexceeded⟩

lemma Assigned.exists_servedBy (h : Assigned vias visits) (hvia : via ∈ vias) :
    ∃ visit ∈ visits, ServedBy [via] visit := by
  induction h with
  | done _ => cases hvia
  | pass visit _ ih =>
    obtain ⟨later, hlater, hserved⟩ := ih hvia
    exact ⟨later, List.mem_cons_of_mem _ hlater, hserved⟩
  | give visit hserved _ ih =>
    rcases List.mem_append.1 hvia with hvia | hvia
    · exact ⟨visit, List.mem_cons_self, hserved.of_mem hvia⟩
    · obtain ⟨later, hlater, hserved⟩ := ih hvia
      exact ⟨later, List.mem_cons_of_mem _ hlater, hserved⟩

/-- Visits that are found too long for the via stops do not serve them in any way, when none of
the via stops is served after a visit that is too long for it. -/
theorem not_assigned_of_not_respected (h : respected vias visits = false)
    (hlater : ∀ via ∈ vias, via.NotServedLater visits) : ¬Assigned vias visits := by
  -- what is left over along the visits is a suffix of what any assignment has left
  induction visits generalizing vias with
  | nil => cases h
  | cons visit visits ih =>
    intro hassigned
    obtain ⟨served, rest, rfl, hserved, hrest⟩ := assigned_cons_iff.1 hassigned
    rw [respected] at h
    cases hserve : serve visit .zero (served ++ rest) with
    | none =>
      obtain ⟨via, hvia, hexceeded⟩ := exists_isExceededBy_of_serve hserve
      rcases List.mem_append.1 hvia with hgiven | hleft
      · exact hexceeded.not_permitted (hserved.permitted via hgiven)
      · obtain ⟨later, hmem, hserves⟩ := hrest.exists_servedBy hleft
        exact (List.pairwise_cons.1 (hlater via hvia)).1 later hmem hexceeded hserves
    | some left =>
      rw [hserve] at h
      have hlong := hserved.long_enough
      obtain ⟨more, rfl⟩ := suffix_of_serve_append hserve hserved.at_location
        (by rw [Duration.minutes_zero]; omega)
      exact ih h (fun via hvia => (List.pairwise_cons.1
        (hlater via (List.mem_append_right _ (List.mem_append_right _ hvia)))).2) hrest.suffix

end ViaStop

/-- A journey that is discarded for its stays does not serve the via stops of its query in any way,
unless one of them is served by a visit after another one that is too long for it. -/
theorem Journey.not_serves_of_not_allowsStays {tt : Timetable} {q : Query} {j : Journey}
    (hdiscarded : q.allowsStays tt j = false)
    (hlater : ∀ via ∈ q.vias, via.NotServedLater (j.visits tt)) : ¬j.Serves tt q :=
  ViaStop.not_assigned_of_not_respected (Bool.or_eq_false_iff.1 hdiscarded).2 hlater

namespace LoopLine

open TwoVehicles (calendar place serviceDay clock)

def vehicle (name : String) (times : List Nat) : NewTransport :=
  ⟨name, ⟨0⟩, times.map fun time => ⟨.ofNat time, .ofNat time⟩, []⟩

/-- A line to the second stop, and another one that leaves there twenty minutes later, comes back
after as many minutes without letting anybody in or out, and goes on to the last stop. -/
def calls : List Call :=
  [.location (place "a"), .location (place "b"), .location (place "c"), .location (place "d"),
    .serviceDays ((ServiceDays.empty calendar).insert serviceDay),
    .route [⟨⟨0⟩, true, true⟩, ⟨⟨1⟩, true, true⟩] [.bus] [false],
    .transport ⟨0⟩ (vehicle "feeder" [480, 540]),
    .finishRoute,
    .route [⟨⟨1⟩, true, true⟩, ⟨⟨2⟩, true, true⟩, ⟨⟨1⟩, false, false⟩, ⟨⟨3⟩, true, true⟩] [.bus]
      [false],
    .transport ⟨1⟩ (vehicle "loop" [560, 570, 580, 600]),
    .finishRoute]

def timetable : Timetable :=
  let b := ((Builder.new calendar).run calls).2
  { calendar := b.calendar
    locations := b.locations
    children := .ofKeyed 4 []
    serviceDays := b.serviceDays
    routes := b.routes
    bikes := .ofRegister b.bikes
    transports := b.transports
    routesByLocation := ⟨#[⟨0⟩, ⟨0⟩, ⟨1⟩, ⟨1⟩, ⟨1⟩], #[1, 3, 4, 5], by decide, rfl⟩
    footpathsFrom := .ofKeyed 4 []
    footpathsTo := .ofKeyed 4 []
    timedFootpathsFrom := .ofKeyed 4 []
    timedFootpathsTo := .ofKeyed 4 [] }

/-- From the first stop to the last one, with a stay of at least so many minutes at the second one,
and of at most five. -/
def query (stay : Nat) : Query :=
  { TwoVehicles.query with
    startTime := .instant (clock 480)
    destination := [⟨⟨3⟩, .zero, 0⟩]
    vias := [⟨⟨1⟩, .clamp stay, some (.clamp 5)⟩] }

def state : SearchState := .sized 2 4 2 0

def planner (stay : Nat) : Planner := ⟨timetable, query stay, state, 0⟩

def search (stay : Nat) : Search := ⟨timetable, query stay, serviceDay, .ofMinutes 480⟩

/-- At the last stop, by both lines. -/
def hit : Hit :=
  ⟨⟨⟨3⟩, 1, .ofMinutes 600⟩, none, ⟨3⟩, .ofMinutes 600, ⟨⟨3⟩, .zero, 0⟩, .ofMinutes 600⟩

def journey : Journey :=
  ⟨clock 480, clock 600, 1, [⟨⟨0⟩, ⟨0⟩, clock 480, clock 480, .offset 0⟩,
    ⟨⟨0⟩, ⟨1⟩, clock 480, clock 540, .ride ⟨0⟩ serviceDay 0 1⟩,
    ⟨⟨1⟩, ⟨3⟩, clock 560, clock 600, .ride ⟨1⟩ serviceDay 0 3⟩,
    ⟨⟨3⟩, ⟨3⟩, clock 600, clock 600, .offset 0⟩]⟩

lemma isBuilt : timetable.IsBuilt := ⟨calendar, calls, by cbv⟩

/-- Riding through the second stop is too short for a stay of a minute there, and the wait for the
second line is too long. -/
theorem not_serves_journey :
    (search 1).journeyOf? ((search 1).explore state).1.state 2 hit = some journey ∧
      (query 1).allowsStays timetable journey = false ∧ ¬journey.Serves timetable (query 1) := by
  have hdiscarded : (query 1).allowsStays timetable journey = false := by decide +kernel
  exact ⟨by decide +kernel, hdiscarded,
    Journey.not_serves_of_not_allowsStays hdiscarded (by decide +kernel)⟩

/-- Where no stay is asked for, riding through is good enough, and the journey is discarded all the
same. -/
theorem serves_journey_discarded : timetable.IsBuilt ∧
    Planner.accept timetable state (query 0) = .ok (planner 0) ∧
      (search 0).journeyOf? ((search 0).explore state).1.state 2 hit = some journey ∧
        (query 0).allowsStays timetable journey = false ∧ journey.Serves timetable (query 0) ∧
          (planner 0).run.1 = [] := by
  have hserved : ViaStop.ServedBy (query 0).vias ⟨⟨1⟩, .zero⟩ := by decide
  have hvisits : journey.visits timetable = [⟨⟨0⟩, .zero⟩, ⟨⟨1⟩, .clamp 20⟩, ⟨⟨2⟩, .zero⟩,
    ⟨⟨1⟩, .zero⟩, ⟨⟨3⟩, .zero⟩] := by decide +kernel
  have hserves : journey.Serves timetable (query 0) := by
    unfold Journey.Serves
    rw [hvisits]
    exact .pass _ (.pass _ (.pass _ (.give _ hserved (.done _))))
  exact ⟨isBuilt, by cbv, by decide +kernel, by decide +kernel, hserves, by decide +kernel⟩

end LoopLine

end JourneyPlanner
