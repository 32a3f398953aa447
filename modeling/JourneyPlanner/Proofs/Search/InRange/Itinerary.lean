import JourneyPlanner.Proofs.Search.Classes
import JourneyPlanner.Proofs.Search.InRange.Transfer
import JourneyPlanner.Search.Checked.Itinerary

/-!
# Telling journeys in range

The reconstruction of a journey steps back from arrivals that have a place in the tables to other
ones, along routes that stop where it looks. What a ride passes lies between the two stops of its
route where it begins and ends.
-/

namespace JourneyPlanner

open Checked

namespace Search

variable {s : Search} {k v level : Nat} {l target source : LocationIndex} {t deadline : RelTime}
  {a : Arrival} {st : SearchState} {r : RouteIndex} {trip : Trip} {board alight : Nat}

lemma walksToM_eq_ok (hg : s.Grounded) (hl : l.val < s.timetable.nbOfLocations)
    (target : LocationIndex) (t : RelTime) :
    s.walksToM l target t = .ok (s.walksTo l target t) := by
  rw [walksToM, Timetable.footpathsM_eq_ok hg.filled hl, ok_bind,
    Timetable.timedFootpathsM_eq_ok hg.filled hl, ok_bind,
    TimedFootpath.runToM_eq_ok (hg.wellFormed.timed_sorted s.dir l)]
  rfl

lemma walkSourcesM_eq_ok (hg : s.Grounded) (hl : l.val < s.timetable.nbOfLocations) :
    s.walkSourcesM l = .ok (s.walkSources l) ∧
      ∀ source ∈ s.walkSources l, source.val < s.timetable.nbOfLocations := by
  refine ⟨?_, fun source hsource => ?_⟩
  · rw [walkSourcesM, Timetable.footpathsM_eq_ok hg.filled hl, ok_bind,
      Timetable.timedFootpathsM_eq_ok hg.filled hl]
    rfl
  · unfold walkSources at hsource
    rw [List.mem_eraseDups, List.mem_mergeSort, List.mem_append, List.mem_map, List.mem_map]
      at hsource
    rcases hsource with ⟨f, hf, rfl⟩ | ⟨f, hf, rfl⟩
    · exact hg.wellFormed.footpath_known hf
    · exact hg.wellFormed.timed_known hf

lemma approachFromStartM?_eq_ok (hg : s.Grounded) (l : LocationIndex) (level : Nat)
    (deadline : RelTime) :
    s.approachFromStartM? l level deadline = .ok (s.approachFromStart? l level deadline) := by
  unfold approachFromStartM? approachFromStart?
  cases s.stay? l 0 level with
  | none => rfl
  | some stay =>
    refine findSomeM?_eq_ok fun o ho => ?_
    rw [walksToM_eq_ok hg (hg.start_known o ho)]
    split <;> rfl

lemma approachByTransferM?_eq_ok (hst : st.Shaped s.timetable.nbOfLocations s.levels)
    (hk : k < maxRounds) (hl : l.val < s.timetable.nbOfLocations) (hlevel : level < s.levels)
    (deadline : RelTime) : s.approachByTransferM? st k l level deadline =
      .ok (s.approachByTransfer? st k l level deadline) := by
  rw [approachByTransferM?, Timetable.transferTimeM_eq_ok hl, ok_bind]
  refine findSomeM?_eq_ok fun before hbefore => ?_
  have hle := mem_downFrom.1 hbefore
  rw [SearchState.finishM_eq_ok hst hk hl (by omega)]
  rfl

lemma approachByWalkM?_eq_ok (hg : s.Grounded) (hsource : source.val < s.timetable.nbOfLocations)
    (l : LocationIndex) (level : Nat) (deadline time : RelTime) (before between : Nat) :
    s.approachByWalkM? source l level deadline time before between =
      .ok (s.approachByWalk? source l level deadline time before between) := by
  unfold approachByWalkM? approachByWalk?
  cases s.stay? source before between with
  | none => rfl
  | some sourceStay =>
    cases s.stay? l between level with
    | none => rfl
    | some stay =>
      dsimp only
      rw [walksToM_eq_ok hg hsource]
      rfl

lemma approachOnFootM?_eq_ok (hg : s.Grounded)
    (hst : st.Shaped s.timetable.nbOfLocations s.levels) (hk : k < maxRounds)
    (hl : l.val < s.timetable.nbOfLocations) (hlevel : level < s.levels) (deadline : RelTime) :
    s.approachOnFootM? st k l level deadline =
      .ok (s.approachOnFoot? st k l level deadline) := by
  obtain ⟨hsources, hknown⟩ := walkSourcesM_eq_ok hg hl
  rw [approachOnFootM?, hsources, ok_bind]
  refine findSomeM?_eq_ok fun source hsource => findSomeM?_eq_ok fun before hbefore => ?_
  have hle := mem_downFrom.1 hbefore
  rw [SearchState.finishM_eq_ok hst hk (hknown source hsource) (by omega), ok_bind]
  dsimp only
  split
  · exact findSomeM?_eq_ok fun between _ =>
      approachByWalkM?_eq_ok hg (hknown source hsource) _ _ _ _ _ _
  · rfl

lemma approachM?_eq_ok (hg : s.Grounded) (hst : st.Shaped s.timetable.nbOfLocations s.levels)
    (hk : k < maxRounds) (hl : l.val < s.timetable.nbOfLocations) (hlevel : level < s.levels)
    (deadline : RelTime) :
    s.approachM? st k l level deadline = .ok (s.approach? st k l level deadline) := by
  unfold approachM? approach?
  split
  · exact approachFromStartM?_eq_ok hg l level deadline
  · rw [approachByTransferM?_eq_ok hst hk hl hlevel, ok_bind]
    cases s.approachByTransfer? st k l level deadline with
    | none => exact approachOnFootM?_eq_ok hg hst hk hl hlevel deadline
    | some approach => rfl

lemma ridesThroughM_eq_ok (hr : r.val < s.timetable.nbOfRoutes) (halight : alight ≤ s.nbOfStops r)
    (board level target : Nat) :
    s.ridesThroughM r board alight level target =
      .ok (s.ridesThrough r board alight level target) := by
  rw [ridesThroughM, Timetable.stopsM_eq_ok hr, ok_bind, ridesThrough]
  have hloop := foldlM_eq_ok (P := fun _ : Nat => True)
    (l := List.range' (board + 1) (alight - (board + 1))) (b := level)
    (f := fun level step => do
      let position ← s.dir.positionM (s.timetable.stops r).size step
      let stop ← item (s.timetable.stops r) position
      return s.passVias stop.location target (target - level) level)
    (g := s.passStop r target) (fun level step hstep _ => ⟨?_, trivial⟩) trivial
  · dsimp only
    rw [hloop.1]
    rfl
  · have hlt : step < s.nbOfStops r := by
      have := List.mem_range'_1.1 hstep
      omega
    obtain ⟨stop, hstop⟩ := exists_stopAt? hlt
    rw [positionM_eq_ok hlt, ok_bind, item_eq_ok hstop, ok_bind, passStop, hstop]
    rfl

lemma tripArrivingM?_eq_ok (hg : s.Grounded) {transport : TransportIndex} {position : Nat}
    (ht : (s.timetable.transportsOf r).contains transport = true) (ha : s.AlightsAt r position)
    (a : Arrival) :
    s.tripArrivingM? r transport position a = .ok (s.tripArriving? transport position a) := by
  rw [tripArrivingM?, Timetable.eventTimeM_eq_ok hg.wellFormed hg.filled ht ha, ok_bind,
    tripArriving?]
  cases a.time.minutes? with
  | none => rfl
  | some time =>
    dsimp only [Option.bind_eq_bind, Option.bind_some]
    split
    · cases s.baseDay.shift? _ with
      | none => rfl
      | some day =>
        dsimp only [Option.bind_some]
        rw [Timetable.isActiveM_eq_ok hg.filled ht]
        rfl
    · rfl

lemma approachAtM?_eq_ok (hg : s.Grounded) (hst : st.Shaped s.timetable.nbOfLocations s.levels)
    (hk : k ≠ 0 ∧ k ≤ maxRounds) (ha : a.level < s.levels) (hr : r.val < s.timetable.nbOfRoutes)
    (hl : l.val < s.timetable.nbOfLocations) (halight : alight ≤ s.nbOfStops r) (t : RelTime) :
    s.approachAtM? st k a r l t alight board =
      .ok (((downFrom a.level).filter fun level =>
        s.ridesThrough r board alight level a.level).findSome? fun level =>
          s.approach? st (k - 1) l level t) := by
  rw [approachAtM?, filterM_eq_ok fun level _ => ridesThroughM_eq_ok hr halight board level a.level,
    ok_bind, difference_eq_ok (by omega), ok_bind]
  refine findSomeM?_eq_ok fun level hlevel => approachM?_eq_ok hg hst (by omega) hl ?_ t
  have := mem_downFrom.1 (List.mem_filter.1 hlevel).1
  omega

lemma rideFromM?_eq_ok (hg : s.Grounded) (hst : st.Shaped s.timetable.nbOfLocations s.levels)
    (hk : k ≠ 0 ∧ k ≤ maxRounds) (ha : a.level < s.levels)
    (ht : (s.timetable.transportsOf r).contains trip.transport = true) (hboard : board < alight)
    (halight : alight < s.nbOfStops r) :
    s.rideFromM? st k a r trip alight board = .ok (s.rideFrom? st k a r trip alight board) := by
  have hr := Timetable.lt_nbOfRoutes_of_contains ht
  have hbefore := hboard.trans halight
  have hb := boardsAt_positionAt (by omega : board + 1 < s.nbOfStops r)
  obtain ⟨stop, hstop, hitem, hl⟩ := exists_stop hg hbefore
  have hget : (s.timetable.stops r)[s.dir.position (s.timetable.stops r).size board]? = some stop :=
    hstop
  rw [rideFromM?, Timetable.stopsM_eq_ok hr, ok_bind, positionM_eq_ok hbefore, ok_bind,
    positionM_eq_ok halight, ok_bind, hitem, ok_bind]
  unfold rideFrom?
  dsimp only
  rw [hget, Option.filter_some]
  cases stop.canStart s.dir with
  | false => rfl
  | true =>
    simp only [Bool.not_true, Bool.false_eq_true, if_false, if_true, Option.bind_eq_bind,
      Option.bind_some]
    rw [boardTimeM_eq_ok hg ht hb, ok_bind, approachAtM?_eq_ok hg hst hk ha hr hl halight.le,
      ok_bind]
    exact congrArg Except.ok Option.map_eq_bind

lemma rideOnM?_eq_ok (hg : s.Grounded) (hst : st.Shaped s.timetable.nbOfLocations s.levels)
    (hk : k ≠ 0 ∧ k ≤ maxRounds) (ha : a.level < s.levels) {transport : TransportIndex}
    (ht : (s.timetable.transportsOf r).contains transport = true) (hpos : alight ≠ 0)
    (halight : alight < s.nbOfStops r) :
    s.rideOnM? st k a r alight transport = .ok (s.rideOn? st k a r alight transport) := by
  have hr := Timetable.lt_nbOfRoutes_of_contains ht
  rw [rideOnM?, Timetable.stopsM_eq_ok hr, ok_bind, positionM_eq_ok halight, ok_bind,
    tripArrivingM?_eq_ok hg ht (alightsAt_positionAt hpos halight), ok_bind]
  unfold rideOn?
  dsimp only
  change _ = Except.ok ((s.tripArriving? transport (s.positionAt r alight) a).bind _)
  cases htrip : s.tripArriving? transport (s.positionAt r alight) a with
  | none => rfl
  | some trip =>
    obtain ⟨rfl, _, _⟩ := tripArriving?_sound htrip
    -- every step before the one of alighting has a section to ride
    have hleaves : ∀ step ∈ (List.range alight).reverse, (do
        let position ← s.dir.positionM (s.timetable.stops r).size step
        s.query.canLeaveM s.timetable r position) =
          .ok (s.query.canLeave s.timetable r (s.positionAt r step)) := by
      intro step hstep
      have hlt := List.mem_range.1 (List.mem_reverse.1 hstep)
      rw [positionM_eq_ok (by omega), ok_bind,
        canLeaveM_eq_ok hg hr (boardsAt_positionAt (by omega))]
    dsimp only [Option.bind_some]
    rw [takeWhile_eq_ok hleaves, ok_bind]
    refine findSomeM?_eq_ok fun step hstep => rideFromM?_eq_ok hg hst hk ha ht ?_ halight
    exact (mem_takeWhile_reverse_range.1 hstep).1

lemma alightStepsM_eq_ok (hr : r.val < s.timetable.nbOfRoutes) (l : LocationIndex) :
    s.alightStepsM r l = .ok (s.alightSteps r l) := by
  rw [alightStepsM, Timetable.stopsM_eq_ok hr, ok_bind, alightSteps]
  refine filterM_eq_ok fun step hstep => ?_
  have hlt : step < s.nbOfStops r := by
    have := List.mem_range'_1.1 hstep
    unfold nbOfStops
    omega
  obtain ⟨stop, hstop⟩ := exists_stopAt? hlt
  have hget : (s.timetable.stops r)[s.dir.position (s.timetable.stops r).size step]? = some stop :=
    hstop
  rw [positionM_eq_ok hlt, ok_bind, item_eq_ok hstop, hget]
  rfl

lemma rideIntoM?_eq_ok (hg : s.Grounded) (hst : st.Shaped s.timetable.nbOfLocations s.levels)
    (hk : k ≠ 0 ∧ k ≤ maxRounds) (ha : a.Fits s) :
    s.rideIntoM? st k a = .ok (s.rideInto? st k a) := by
  have hlt : ∀ r ∈ s.timetable.routesAt a.location, r.val < s.timetable.nbOfRoutes :=
    fun r => hg.wellFormed.listed_lt
  rw [rideIntoM?, Timetable.routesAtM_eq_ok hg.filled ha.location_lt, ok_bind,
    filterM_eq_ok fun r hr => admitsM_eq_ok (hlt r hr), ok_bind, rideInto?]
  refine findSomeM?_eq_ok fun r hr => ?_
  have hr := hlt r (List.mem_filter.1 hr).1
  rw [alightStepsM_eq_ok hr, ok_bind, Timetable.transportsOfM_eq_ok hr, ok_bind]
  refine findSomeM?_eq_ok fun alight halight => findSomeM?_eq_ok fun transport htransport => ?_
  obtain ⟨hpos, hlast, _⟩ := mem_alightSteps.1 halight
  exact rideOnM?_eq_ok hg hst hk ha.level_lt (IndexRange.mem_toList.1 htransport) hpos.ne' hlast

lemma fits_of_supports (hst : st.Shaped s.timetable.nbOfLocations s.levels) {w : Option Walk}
    (h : st.Supports k (.fromVehicle a w)) : a.Fits s := by
  obtain ⟨_, htime, hf⟩ := h
  rw [htime] at hf
  obtain ⟨hl, hv⟩ := hst.lt_of_finish hf
  exact ⟨hl, hv⟩

lemma legsToM?_eq_ok (hg : s.Grounded) (hst : st.Shaped s.timetable.nbOfLocations s.levels)
    (hk : k ≤ maxRounds) (ha : a.Fits s) : s.legsToM? st k a = .ok (s.legsTo? st k a) := by
  -- backwards round by round: what comes before a ride is an arrival of the round before
  induction k generalizing a with
  | zero => rfl
  | succ k ih =>
    rw [legsToM?, rideIntoM?_eq_ok hg hst ⟨Nat.succ_ne_zero k, hk⟩ ha, ok_bind, legsTo?]
    cases hinto : s.rideInto? st (k + 1) a with
    | none => rfl
    | some found =>
      obtain ⟨ride, approach⟩ := found
      obtain ⟨_, _, _, _, _, _, _, _, hsupports, _⟩ := rideInto?_sound hg.wellFormed hinto
      cases approach with
      | fromStart o w => rfl
      | fromVehicle b w =>
        dsimp only [Option.bind_eq_bind, Option.bind_some]
        rw [ih (by omega) (fits_of_supports hst hsupports), ok_bind]
        cases s.legsTo? st k b <;> rfl

lemma journeyOfM?_eq_ok (hg : s.Grounded) (hst : st.Shaped s.timetable.nbOfLocations s.levels)
    (hk : k ≠ 0 ∧ k ≤ maxRounds) {h : Hit} (ha : h.arrival.Fits s) :
    s.journeyOfM? st k h = .ok (s.journeyOf? st k h) := by
  rw [journeyOfM?, difference_eq_ok (by omega), ok_bind, legsToM?_eq_ok hg hst hk.2 ha]
  rfl

end Search

namespace Leg

variable {tt : Timetable} {q : Query} {leg : Leg} {transport : TransportIndex} {day : Day}
  {board alight : Nat}

lemma IsRide.passedM_eq_ok (hw : tt.WellFormed) (hf : tt.Filled)
    (h : leg.IsRide tt q transport day board alight) :
    leg.passedM tt = .ok (leg.passed tt) := by
  have hcontains := hw.active_listed h.active
  obtain ⟨x, hx⟩ := hf.served hcontains
  obtain ⟨stop, hstop, _⟩ := h.alighting
  have hlt : alight < (tt.stops (tt.routeOf transport)).toList.length :=
    (Array.getElem?_eq_some_iff.1 hstop).1
  have hroute : tt.routeOfM transport = .ok (tt.routeOf transport) := by
    unfold Timetable.routeOfM Timetable.transportM Timetable.routeOf Timetable.transport?
    rw [item_eq_ok hx, hx]
    rfl
  unfold passedM passed
  -- the stops between boarding and alighting are a stretch of the route because a ride goes on
  rw [h.kind_eq]
  dsimp only
  rw [hroute, ok_bind, Timetable.stopsM_eq_ok (Timetable.lt_nbOfRoutes_of_contains hcontains),
    ok_bind, stretch_eq_ok h.goes_on hlt.le, Array.toList_extract]
  rfl

end Leg

lemma Journey.visitsOfM_eq_ok {tt : Timetable} {legs : List Leg}
    (h : ∀ leg ∈ legs, leg.passedM tt = .ok (leg.passed tt)) :
    visitsOfM tt legs = .ok (visitsOf tt legs) := by
  induction legs with
  | nil => rfl
  | cons leg rest ih =>
    have hfirst := h leg List.mem_cons_self
    have hrest := ih fun x hx => h x (List.mem_cons_of_mem leg hx)
    cases rest with
    | nil => exact hfirst
    | cons next rest =>
      rw [visitsOfM, hfirst, ok_bind, hrest]
      rfl

lemma Query.allowsStaysM_eq_ok {q : Query} {tt : Timetable} {j : Journey}
    (h : ∀ leg ∈ j.legs, leg.passedM tt = .ok (leg.passed tt)) :
    q.allowsStaysM tt j = .ok (q.allowsStays tt j) := by
  unfold allowsStaysM allowsStays
  cases q.vias.all (·.maxStay.isNone) with
  | true => rfl
  | false =>
    rw [if_neg Bool.false_ne_true, Journey.visitsOfM_eq_ok h]
    rfl

namespace Search

variable {s : Search}

/-- The legs of a journey that is found pass stops of their routes. -/
lemma passedM_eq_ok_of_mem_journey (hg : s.Grounded) {k : Nat} {h : Hit} (harrives : s.Arrives h)
    {before : List SearchLeg} (hleads : s.Leads k before h.arrival)
    (hbefore : ∀ leg ∈ before, leg.Timed) {leg : Leg} (hleg : leg ∈ (s.journey k h before).legs) :
    leg.passedM s.timetable = .ok (leg.passed s.timetable) := by
  cases hkind : leg.kind with
  | ride transport day board alight =>
    have hride := harrives.isRide_of_mem_journey hg.wellFormed hleads hbefore hleg hkind
    exact hride.passedM_eq_ok hg.wellFormed hg.filled
  | _ =>
    unfold Leg.passedM Leg.passed
    rw [hkind]
    rfl

end Search

end JourneyPlanner
