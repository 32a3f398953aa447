import JourneyPlanner.Proofs.Search.Answers
import JourneyPlanner.Proofs.Search.Following

/-!
# Nothing better is missed

When the trips of a route never meet, a query from an instant answers, for every itinerary, a journey
with no more vehicles that ends no later, in search order.
-/

namespace JourneyPlanner

namespace Search

variable {s : Search} {st : SearchState}

/-- The states that an accepted query is searched in have a place for every location and level. -/
lemma suits_of_fits {nbOfVias : Nat} (hfits : s.query.Fits s.timetable nbOfVias)
    (hlocations : st.nbOfLocations = s.timetable.nbOfLocations) (hlevels : st.levels = s.levels) :
    s.Suits st := by
  refine ⟨hlocations, hlevels, fun o ho => hfits.known _ ?_⟩
  exact List.mem_append_left _ (List.mem_map_of_mem ho)

/-- A way that the rounds cover becomes a journey with no more rides that ends no later. -/
lemma exists_journey_of_arrivesBy (hw : s.timetable.WellFormed)
    (hordered : s.timetable.StrictlyOrdered) (hanchored : s.Anchored) (hsuits : s.Suits st)
    (hmax : s.query.maxTransfers ≤ maxTransfers) (hstays : ∀ via ∈ s.query.vias, via.maxStay = none)
    {n : Nat} (hn : n ≤ s.query.maxTransfers) {finish : RelTime} (hway : s.ArrivesBy n finish) :
    ∃ j ∈ s.journeys (s.explore st).1, j.transports.length = j.nbOfTransfers + 1 ∧
      j.nbOfTransfers ≤ n ∧ ∃ t, s.dir.cost s.start ≤ s.dir.cost t ∧
        s.dir.cost t ≤ s.dir.cost finish ∧ s.instant? t = some (s.query.foundEnd j) := by
  obtain ⟨k, hk, h, hh, hle⟩ := finds_explore hw hordered hanchored hsuits hmax hn hway
  obtain ⟨j, _, hj, hrides, htransfers, hend, hstart⟩ :=
    exists_mem_journeys hw hanchored hmax hstays st hh
  exact ⟨j, hj, by omega, by omega, h.destinationTime, hstart, hle, hend⟩

lemma Told.notAfter_of_cost_le (htold : s.Told) {t u : RelTime} {instant other : Instant}
    (ht : s.instant? t = some instant) (hu : s.timeOf other = u) (hf : u.isFeasible = true)
    (h : s.dir.cost t ≤ s.dir.cost u) : s.query.NotAfter instant other := by
  have hfeasible := Direction.isFeasible_of_le h hf
  have hinstant : s.instantOf t = instant := by
    unfold instantOf
    rw [ht]
    rfl
  have htold' := htold.sign_instantOf hfeasible
  rw [hinstant] at htold'
  rw [← hu] at hf h
  have hother := htold.cost_timeOf hf
  rw [notAfter_iff_sign]
  omega

end Search

namespace Planner

variable {p : Planner} {j : Journey}

lemma mem_run {s : Search} {t : Instant} (hstart : p.query.startTime = .instant t)
    (hsearch : Search.at? p.timetable p.query t = some s) :
    j ∈ p.run.1 ↔ j ∈ s.journeys (s.explore p.state).1 := by
  unfold run
  rw [hstart, ← searchFrom_eq hsearch]
  exact Journey.mem_sortByKey

end Planner

/-- When the trips of a route never meet and transports run on the day of the query or the next one,
in search order, every itinerary without timed walks has a journey among the answers with no more
vehicles that ends no later, in search order. -/
theorem exists_mem_run_of_isItinerary {tt : Timetable} (hbuilt : tt.IsBuilt)
    (hfit : tt.calendar.InstantsFit) (hordered : tt.StrictlyOrdered) {accepting : SearchState}
    (hlevels : 0 < accepting.levels) {q : Query} {planner : Planner}
    (haccept : Planner.accept tt accepting q = .ok planner) {t : Instant}
    (hstart : q.startTime = .instant t) (hvias : q.vias = []) {base : Day} {time : ServiceTime}
    (hbase : tt.calendar.split? t = some (base, time)) (hruns : tt.RunsAround q.direction base)
    {j : Journey} (hj : j.IsItinerary tt q) (hplain : j.WalksPlainly tt) (htold : j.IsTold tt base)
    (hafter : q.NotAfter t (q.givenEnd j)) :
    ∃ j' ∈ planner.run.1, j'.transports.length ≤ j.transports.length ∧
      q.NotAfter (q.foundEnd j') (q.foundEnd j) := by
  obtain ⟨s, hsearch, hday, hsource⟩ : ∃ s, Search.at? tt q t = some s ∧ s.baseDay = base ∧
      s.start = s.timeOf t := ⟨_, Search.exists_at? hbase, rfl, rfl⟩
  obtain ⟨rfl, rfl, hanchored, _, hknown⟩ := Search.at?_sound hsearch
  have hw := hbuilt.wellFormed
  obtain ⟨rfl, hfits, hsized⟩ := Planner.accept_eq_ok_iff.1 haccept
  have hsuits : s.Suits accepting := by
    have hcount := hfits.vias_eq
    refine Search.suits_of_fits hfits (Planner.nbOfLocations_eq_of_isSizedFor hsized) ?_
    unfold SearchState.nbOfVias at hcount
    unfold Search.levels Query.levels
    omega
  have hinstants : s.Told := ⟨hfit, hknown⟩
  have hone : s.levels = 1 := by
    unfold Search.levels Query.levels
    rw [hvias]
    rfl
  rw [← hday] at hruns htold
  have hway := hinstants.arrivesBy hw hone hruns hsource hanchored.isFeasible hj hplain htold hafter
    hj.feasible.nbOfRides
  have hstays : ∀ via ∈ s.query.vias, via.maxStay = none := by
    rw [hvias]
    exact fun _ hvia => absurd hvia List.not_mem_nil
  obtain ⟨j', hj', hrides, htransfers, u, _, hcost, hu⟩ := Search.exists_journey_of_arrivesBy hw
    hordered hanchored hsuits hfits.maxTransfers_le hstays hj.feasible.nbOfTransfers_le hway
  have hle : j'.transports.length ≤ j.transports.length := by
    rw [hrides, hj.feasible.nbOfRides]
    omega
  have hmem : j' ∈ (⟨s.timetable, s.query, accepting, 0⟩ : Planner).run.1 :=
    (Planner.mem_run (p := ⟨s.timetable, s.query, accepting, 0⟩) hstart hsearch).2 hj'
  refine ⟨j', hmem, hle, ?_⟩
  exact hinstants.notAfter_of_cost_le hu rfl hway.feasible hcost

namespace TwoVehicles

def firstTrip : Trip := ⟨⟨0⟩, serviceDay⟩

def secondTrip : Trip := ⟨⟨1⟩, serviceDay⟩

lemma number_of_isActive {second : Nat} (h : second = 540 ∨ second = 545) : ∀ t : Fin 2,
    ∀ d : Fin 8, (timetable second).isActive ⟨t⟩ ⟨d, Nat.lt_trans d.isLt (by decide)⟩ = true →
      d.val = 5 := by
  rcases h with rfl | rfl <;> decide +kernel

lemma trip_of_isActive {second : Nat} (hsecond : second = 540 ∨ second = 545) {trip : Trip}
    (h : (timetable second).isActive trip.transport trip.day = true) :
    trip = firstTrip ∨ trip = secondTrip := by
  obtain ⟨⟨t⟩, ⟨d, hd⟩⟩ := trip
  have hday := (isBuilt hsecond).wellFormed.active_lt h
  rw [calendar_timetable hsecond] at hday
  dsimp only at h hday
  have hnb : calendar.nbOfDays = 8 := by cbv
  have hsize : (timetable second).transports.size = 2 := by rcases hsecond with rfl | rfl <;> cbv
  have ht : t < 2 := by
    by_contra hnot
    unfold Timetable.isActive Timetable.daysOf? Timetable.transport? at h
    rw [Array.getElem?_eq_none (by dsimp only; omega)] at h
    cases h
  have hfive : d = 5 := number_of_isActive hsecond ⟨t, ht⟩ ⟨d, by omega⟩ h
  subst hfive
  interval_cases t
  · exact .inl rfl
  · exact .inr rfl

lemma isAhead_secondTrip : (timetable 545).IsAhead firstTrip secondTrip := by
  have hsize : ((timetable 545).stops ((timetable 545).routeOf firstTrip.transport)).size = 3 := by
    cbv
  intro position hlt
  rw [hsize] at hlt
  have hall : ∀ position < 2, (timetable 545).eventMinutes firstTrip position .departure <
      (timetable 545).eventMinutes secondTrip position .departure ∧
        (timetable 545).eventMinutes firstTrip (position + 1) .arrival <
          (timetable 545).eventMinutes secondTrip (position + 1) .arrival := by decide +kernel
  exact hall position (by omega)

lemma strictlyOrdered : (timetable 545).StrictlyOrdered := by
  intro trip other htrip hother _ hne
  rcases trip_of_isActive (.inr rfl) htrip with rfl | rfl <;>
    rcases trip_of_isActive (.inr rfl) hother with rfl | rfl
  · exact absurd rfl hne
  · exact .inl isAhead_secondTrip
  · exact .inr isAhead_secondTrip
  · exact absurd rfl hne

lemma runsAround (dir : Direction) : (timetable 545).RunsAround dir serviceDay := by
  intro transport day hactive
  have htrip : (⟨transport, day⟩ : Trip) = firstTrip ∨ _ = secondTrip :=
    trip_of_isActive (.inr rfl) hactive
  rcases htrip with h | h <;> cases h <;> exact .inl rfl

def throughRide : Leg := ⟨⟨0⟩, ⟨2⟩, clock 510, clock 660, .ride ⟨1⟩ serviceDay 0 2⟩

/-- From the first stop to the last one by the second vehicle, which is there at eleven. -/
def throughJourney : Journey :=
  ⟨clock 490, clock 660, 0, [⟨⟨0⟩, ⟨0⟩, clock 490, clock 490, .offset 0⟩, throughRide,
    ⟨⟨2⟩, ⟨2⟩, clock 660, clock 660, .offset 0⟩]⟩

lemma isRide_throughRide :
    throughRide.IsRide (timetable 545) query ⟨1⟩ serviceDay 0 2 := by
  refine ⟨rfl, by decide, by decide +kernel, by decide +kernel, by decide +kernel, ?_, ?_, ?_, ?_⟩
  · exact ⟨⟨⟨0⟩, true, true⟩, by cbv, rfl, rfl⟩
  · exact ⟨⟨⟨2⟩, true, true⟩, by cbv, rfl, rfl⟩
  · exact ⟨.bus, by cbv, by cbv⟩
  · intro hbikes
    cases hbikes

lemma isItinerary_throughJourney : throughJourney.IsItinerary (timetable 545) query := by
  have hlegs : throughJourney.legs = ⟨⟨0⟩, ⟨0⟩, clock 490, clock 490, .offset 0⟩ :: [throughRide] ++
      [⟨⟨2⟩, ⟨2⟩, clock 660, clock 660, .offset 0⟩] := rfl
  refine Search.isItinerary_of_ends (s := search 545) ⟨rfl, rfl⟩ hlegs ⟨rfl, rfl, ?_, ?_⟩ ?_ ?_ rfl
    (by decide)
  · exact ⟨_, List.mem_singleton.2 rfl, rfl, rfl, rfl, by decide⟩
  · exact ⟨_, List.mem_cons_of_mem _ List.mem_cons_self, rfl, rfl, rfl, by decide⟩
  · refine List.isChain_cons_cons.2 ⟨⟨⟨rfl, by decide⟩, ?_, ?_⟩,
      List.isChain_pair.2 ⟨⟨rfl, by decide⟩, ?_, ?_⟩⟩
    · intro hride
      cases hride
    · intro hwalk
      cases hwalk
    · intro _ hride
      cases hride
    · intro hwalk
      cases hwalk
  · intro leg hleg
    rw [List.mem_singleton.1 hleg]
    exact .inl ⟨_, _, _, _, isRide_throughRide⟩

/-- Someone who could be at the last stop at eleven is offered a journey that ends no later. -/
theorem exists_mem_run_of_throughJourney : ∃ j ∈ (planner 545).run.1, j.transports.length ≤ 1 ∧
    query.NotAfter (query.foundEnd j) (clock 660) := by
  have hplain : throughJourney.WalksPlainly (timetable 545) := by
    intro leg hleg hkind
    simp only [throughJourney, List.mem_cons, List.not_mem_nil, or_false] at hleg
    rcases hleg with rfl | rfl | rfl <;> cases hkind
  have htold : throughJourney.IsTold (timetable 545) serviceDay := by
    intro leg hleg
    simp only [throughJourney, List.mem_cons, List.not_mem_nil, or_false] at hleg
    rcases hleg with rfl | rfl | rfl <;> decide +kernel
  have hbase : (timetable 545).calendar.split? (clock 490) = some (serviceDay, .ofNat 490) := by
    cbv
  exact exists_mem_run_of_isItinerary (isBuilt (.inr rfl)) (instantsFit (.inr rfl)) strictlyOrdered
    (by decide) (accept_eq (.inr rfl)) rfl rfl hbase (runsAround _) isItinerary_throughJourney hplain
    htold (Int.le_refl _)

end TwoVehicles

end JourneyPlanner
