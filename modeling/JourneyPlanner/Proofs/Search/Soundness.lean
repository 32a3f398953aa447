import JourneyPlanner.Proofs.Search.Itineraries

/-!
# Every answer is an itinerary

The legs that a search tells are those that its timetable offers, and the journeys that a query
answers are itineraries between its offsets, searched from an instant that it asks for.
-/

namespace JourneyPlanner

namespace Search

variable {s : Search} {k : Nat} {a : Arrival} {l : LocationIndex} {t : RelTime} {r : RouteIndex}
  {trip : Trip} {board alight level : Nat}

lemma instantOf_eventTime {position : Nat} {event : StopEvent}
    (h : (s.eventTime trip position event).isFeasible = true) :
    s.instantOf (s.eventTime trip position event) =
      s.timetable.eventInstant trip.transport trip.day position event := by
  unfold instantOf instant? eventTime at *
  rw [Calendar.absolute?_eventTime h]
  rfl

lemma class_of_admits {q : Query} {tt : Timetable} (h : q.admits tt r = true) :
    ∃ c ∈ tt.mainClass? r, q.allowedClasses.contains c = true := by
  unfold Query.admits at h
  rw [Bool.and_eq_true] at h
  cases hclass : tt.mainClass? r with
  | none =>
    rw [hclass] at h
    exact nomatch h.1
  | some c =>
    rw [hclass] at h
    exact ⟨c, rfl, h.1⟩

lemma Boarded.allows {step level' : Nat} (h : s.Boarded r trip board l level step level')
    (hbikes : s.query.requireBikes = true) {i : Nat} (hle : board ≤ i) (hlt : i < step) :
    (s.timetable.bikeAccess r).allows (s.dir.sectionFrom (s.positionAt r i)) = true := by
  have hleave := h.continues i hle hlt
  unfold Query.canLeave at hleave
  rw [hbikes, Bool.not_true, Bool.false_or] at hleave
  exact hleave

/-- The leg of a ride is one that the timetable offers and the query admits. -/
lemma Ride.isRide (hw : s.timetable.WellFormed) (h : s.Ride r trip board alight l level a)
    (hboard : (s.boardTime trip (s.positionAt r board)).isFeasible = true)
    (ha : a.time.isFeasible = true) : ∃ first last,
      (s.travelLeg (s.rideLeg r trip board alight l a)).IsRide s.timetable s.query trip.transport
        trip.day first last := by
  have hroute := hw.route_of h.boarded.runs.of_route
  have hlt := h.boarded.goes_on
  have hn := h.alight_lt
  have hdeparture := instantOf_eventTime hboard
  rw [h.time_eq] at ha
  have harrival := instantOf_eventTime ha
  obtain ⟨first, hfirst, hfirstLocation, hstart⟩ := h.boarded.begins
  obtain ⟨last, hlast, hlastLocation, hfinish⟩ := h.ends
  have hallows := fun hbikes {i} => h.boarded.allows hbikes (i := i)
  unfold RouteStop.canFinish at hfinish
  unfold stopAt? at hfirst hlast
  unfold travelLeg rideLeg
  rw [h.time_eq]
  unfold boardTime alightTime
  unfold positionAt at *
  cases hdir : s.dir with
  | forward =>
    simp only [hdir, Direction.boardEvent, Direction.alightEvent, Direction.opposite,
      Direction.position, Direction.sectionFrom, RouteStop.canStart] at *
    refine ⟨board, alight, rfl, hlt, h.boarded.runs.active, hdeparture, harrival, ?_, ?_, ?_, ?_⟩
    · rw [hroute]
      exact ⟨first, hfirst, hfirstLocation, hstart⟩
    · rw [hroute]
      exact ⟨last, hlast, hlastLocation, hfinish⟩
    · rw [hroute]
      exact class_of_admits h.admitted
    · intro hbikes position hposition
      have hrange := List.mem_range'_1.1 hposition
      rw [hroute]
      exact hallows hbikes (by omega) (by omega)
  | backward =>
    simp only [hdir, Direction.boardEvent, Direction.alightEvent, Direction.opposite,
      Direction.position, Direction.sectionFrom, RouteStop.canStart] at *
    refine ⟨s.nbOfStops r - 1 - alight, s.nbOfStops r - 1 - board, rfl, by omega,
      h.boarded.runs.active, harrival, hdeparture, ?_, ?_, ?_, ?_⟩
    · rw [hroute]
      exact ⟨last, hlast, hlastLocation, hfinish⟩
    · rw [hroute]
      exact ⟨first, hfirst, hfirstLocation, hstart⟩
    · rw [hroute]
      exact class_of_admits h.admitted
    · intro hbikes position hposition
      have hrange := List.mem_range'_1.1 hposition
      rw [hroute]
      have hsection := hallows hbikes (i := s.nbOfStops r - 2 - position) (by omega) (by omega)
      have heq : s.nbOfStops r - 1 - (s.nbOfStops r - 2 - position) - 1 = position := by omega
      rw [heq] at hsection
      exact hsection

/-- A leg lasts in travel order as long as in search order. -/
lemma lasts_travelLeg {x : SearchLeg} {d : Duration}
    (h : s.dir.sign (s.instantOf x.finish).minutes =
      s.dir.sign (s.instantOf x.start).minutes + d.minutes) :
    (s.travelLeg x).arrival.minutes = (s.travelLeg x).departure.minutes + d.minutes := by
  unfold travelLeg
  cases hdir : s.dir with
  | forward =>
    rw [hdir] at h
    exact h
  | backward =>
    rw [hdir] at h
    simp only [Direction.sign_backward] at h
    dsimp only
    omega

lemma Told.isWalk (htold : s.Told) (hw : s.timetable.WellFormed) {w : Walk}
    (h : w ∈ s.walks l t) (hf : w.finish.isFeasible = true) :
    (s.travelLeg w.leg).IsWalk s.timetable := by
  rcases mem_walks.1 h with ⟨f, hmem, rfl⟩ | ⟨instant, _, target, x, hx, rfl⟩
  · have hlasts := lasts_travelLeg (x := (s.footpathWalk l t f).leg) (htold.sign_instantOf_add hf)
    have hback := hw.footpath_back hmem
    refine Or.inl ?_
    unfold travelLeg at hlasts ⊢
    cases hdir : s.dir <;> rw [hdir] at hmem hback <;> simp only [hdir] at hlasts ⊢
    · exact ⟨f, hmem, rfl, hlasts⟩
    · exact ⟨⟨l, f.duration⟩, hback, rfl, hlasts⟩
  · obtain ⟨f, hmem, rfl, hwalking⟩ :=
      TimedFootpath.exists_entry_of_mem_walks (hw.timed_sorted s.dir l) hx
    have hsplit : (s.timedWalk l t f.target x).finish =
        s.dir.add (s.timedWalk l t f.target x).start f.duration := by
      unfold timedWalk
      rw [Direction.add_add, WaitingWalk.total, Duration.add_comm, hwalking]
    have hlasts := lasts_travelLeg (s := s) (x := (s.timedWalk l t f.target x).leg)
      (d := f.duration) (by
        show s.dir.sign (s.instantOf (s.timedWalk l t f.target x).finish).minutes = _
        rw [hsplit] at hf ⊢
        exact htold.sign_instantOf_add hf)
    have hback := hw.timed_back hmem
    refine Or.inr ?_
    unfold travelLeg at hlasts ⊢
    cases hdir : s.dir <;> rw [hdir] at hmem hback <;> simp only [hdir] at hlasts ⊢
    · exact ⟨f, hmem, rfl, hlasts⟩
    · exact ⟨⟨l, f.validFrom, f.duration⟩, hback, rfl, hlasts⟩

lemma Told.between (htold : s.Told) (hw : s.timetable.WellFormed) {x : SearchLeg}
    (h : s.Between x) (hx : x.Timed) :
    (∃ transport day board alight,
      (s.travelLeg x).IsRide s.timetable s.query transport day board alight) ∨
      ((s.travelLeg x).kind = .footpath ∧ (s.travelLeg x).IsWalk s.timetable) := by
  rcases h with ⟨l, level, t, a, r, trip, board, alight, hride, hintime, rfl⟩ | ⟨l, t, w, hwalk, rfl⟩
  · obtain ⟨first, last, hisRide⟩ := hride.isRide hw hintime.feasible hx.2
    exact Or.inl ⟨_, _, _, _, hisRide⟩
  · exact Or.inr ⟨kind_travelLeg _, htold.isWalk hw hwalk hx.2⟩

lemma egress?_sound {o : Offset} (h : s.egress? l = some o) :
    o ∈ s.query.destination ∧ o.location = l := by
  obtain ⟨hmem, hlocation⟩ := List.mem_filter.1 (Offset.mem_of_shortest? h)
  exact ⟨hmem, beq_iff_eq.1 hlocation⟩

lemma Told.isOffset (htold : s.Told) (o : Offset) (hf : (s.dir.add t o.duration).isFeasible = true) :
    (s.travelLeg ⟨o.location, o.location, t, s.dir.add t o.duration, .offset o.mode⟩).IsOffset
      o := by
  refine ⟨kind_travelLeg _, ?_, ?_, lasts_travelLeg (htold.sign_instantOf_add hf)⟩
  · unfold travelLeg
    cases s.dir <;> rfl
  · unfold travelLeg
    cases s.dir <;> rfl

/-- The legs of a journey, between those of its two offsets. -/
structure EndsWith (s : Search) (j : Journey) (first last : Leg) : Prop where
  departure_eq : first.departure = j.departure
  arrival_eq : last.arrival = j.arrival
  access : ∃ o ∈ Journey.accessOffsets s.query, first.IsOffset o
  egress : ∃ o ∈ Journey.egressOffsets s.query, last.IsOffset o

lemma Told.exists_ends (htold : s.Told) {h : Hit} (harrives : s.Arrives h) {o : Offset}
    (ho : o ∈ s.query.start) (haccess : (s.accessLeg o).Timed) {before middle : List SearchLeg}
    (hlegs : h.legs before = h.egressLeg :: middle ++ [s.accessLeg o]) :
    ∃ first inner last, (s.journey k h before).legs = first :: inner ++ [last] ∧
      s.EndsWith (s.journey k h before) first last ∧
      ∀ leg ∈ inner, ∃ x ∈ middle, s.travelLeg x = leg := by
  obtain ⟨hegress, hlocation⟩ := egress?_sound harrives.egress_eq
  have hfinish := harrives.feasible
  rw [harrives.time_eq] at hfinish
  have hlast : (s.travelLeg h.egressLeg).IsOffset h.egress := by
    have hoffset := htold.isOffset h.egress hfinish
    rw [hlocation, ← harrives.time_eq] at hoffset
    exact hoffset
  have hfirst : (s.travelLeg (s.accessLeg o)).IsOffset o := htold.isOffset o haccess.2
  cases hdir : s.query.direction with
  | forward =>
    have hdir' : s.dir = .forward := hdir
    refine ⟨s.travelLeg (s.accessLeg o), (middle.map s.travelLeg).reverse,
      s.travelLeg h.egressLeg, ?_, ⟨?_, ?_, ⟨o, ?_, hfirst⟩, ⟨h.egress, ?_, hlast⟩⟩, ?_⟩
    · simp only [legs_journey, hlegs, travelLegs, hdir', List.map_append, List.map_cons,
        List.map_nil, List.reverse_append, List.reverse_cons, List.reverse_nil, List.nil_append,
        List.cons_append]
    · simp only [travelLeg, journey, hdir', accessLeg]
    · simp only [travelLeg, journey, hdir', Hit.egressLeg]
    · simp only [Journey.accessOffsets, hdir, ho]
    · simp only [Journey.egressOffsets, hdir, hegress]
    · intro leg hleg
      exact List.mem_map.1 (List.mem_reverse.1 hleg)
  | backward =>
    have hdir' : s.dir = .backward := hdir
    refine ⟨s.travelLeg h.egressLeg, middle.map s.travelLeg, s.travelLeg (s.accessLeg o), ?_,
      ⟨?_, ?_, ⟨h.egress, ?_, hlast⟩, ⟨o, ?_, hfirst⟩⟩, ?_⟩
    · simp only [legs_journey, hlegs, travelLegs, hdir', List.map_append, List.map_cons,
        List.map_nil, List.cons_append]
    · simp only [travelLeg, journey, hdir', Hit.egressLeg]
    · simp only [travelLeg, journey, hdir', accessLeg]
    · simp only [Journey.accessOffsets, hdir, hegress]
    · simp only [Journey.egressOffsets, hdir, ho]
    · intro leg hleg
      exact List.mem_map.1 hleg

lemma continues_of_isChain {tt : Timetable} {legs : List Leg} (h : legs.IsChain (Leg.Continues tt))
    (i : Nat) (leg next : Leg) (hleg : legs[i]? = some leg) (hnext : legs[i + 1]? = some next) :
    Leg.Continues tt leg next := by
  obtain ⟨hi, rfl⟩ := List.getElem?_eq_some_iff.1 hnext
  obtain ⟨_, rfl⟩ := List.getElem?_eq_some_iff.1 hleg
  exact h.getElem i hi

/-- A journey is an itinerary when its legs follow each other and those between its offsets are
rides and walks. -/
lemma isItinerary_of_ends {tt : Timetable} {q : Query} {j : Journey} {first last : Leg}
    {inner : List Leg} (hs : s.timetable = tt ∧ s.query = q)
    (hlegs : j.legs = first :: inner ++ [last])
    (hends : s.EndsWith j first last) (hchain : j.legs.IsChain (Leg.Continues tt))
    (hinner : ∀ leg ∈ inner,
      (∃ transport day board alight, leg.IsRide tt q transport day board alight) ∨
        (leg.kind = .footpath ∧ leg.IsWalk tt))
    (hrides : j.transports.length = j.nbOfTransfers + 1) (hmax : j.nbOfTransfers ≤ q.maxTransfers) :
    j.IsItinerary tt q := by
  obtain ⟨rfl, rfl⟩ := hs
  obtain ⟨o, ho, haccess⟩ := hends.access
  obtain ⟨o', ho', hegress⟩ := hends.egress
  have hmem : ∀ leg ∈ j.legs, leg ∈ inner ∨ ∃ o : Offset, leg.kind = .offset o.mode := by
    intro leg hleg
    rw [hlegs] at hleg
    rcases List.mem_append.1 hleg with hleg | hleg
    · rcases List.mem_cons.1 hleg with rfl | hleg
      · exact Or.inr ⟨o, haccess.kind_eq⟩
      · exact Or.inl hleg
    · rw [List.mem_singleton.1 hleg]
      exact Or.inr ⟨o', hegress.kind_eq⟩
  refine ⟨⟨?_, ?_, ?_, ?_, hrides, hmax⟩, continues_of_isChain hchain, ?_, ?_⟩
  · exact fun i leg next hleg hnext => (continues_of_isChain hchain i leg next hleg hnext).follows
  · rw [hlegs]
    exact ⟨first, rfl, o, ho, haccess, hends.departure_eq⟩
  · rw [hlegs]
    exact ⟨last, List.getLast?_concat .., o', ho', hegress, hends.arrival_eq⟩
  · intro leg hleg transport day board alight hkind
    rcases hmem leg hleg with hleg | ⟨o, hoffset⟩
    · rcases hinner leg hleg with ⟨_, _, _, _, hride⟩ | ⟨hwalk, _⟩
      · cases hride.kind_eq.symm.trans hkind
        exact hride
      · cases hwalk.symm.trans hkind
    · cases hoffset.symm.trans hkind
  · intro leg hleg
    rw [hlegs, List.cons_append, List.tail_cons, List.dropLast_concat] at hleg
    rcases hinner leg hleg with ⟨_, _, _, _, hride⟩ | ⟨hwalk, _⟩
    · left
      rw [hride.kind_eq]
      rfl
    · exact Or.inr hwalk
  · intro leg hleg hkind
    rcases hmem leg hleg with hleg | ⟨o, hoffset⟩
    · rcases hinner leg hleg with ⟨_, _, _, _, hride⟩ | ⟨_, hwalk⟩
      · cases hride.kind_eq.symm.trans hkind
      · exact hwalk
    · cases hoffset.symm.trans hkind

/-- The journey of a way to the destination is an itinerary. -/
theorem Told.isItinerary (htold : s.Told) (hw : s.timetable.WellFormed) {h : Hit}
    (harrives : s.Arrives h) {before : List SearchLeg} (hleads : s.Leads k before h.arrival)
    (hbefore : ∀ leg ∈ before, leg.Timed) (hk : 1 ≤ k ∧ k ≤ s.query.maxTransfers + 1) :
    (s.journey k h before).IsItinerary s.timetable s.query := by
  obtain ⟨middle, o, hmiddle, ho, hbetween⟩ := hleads.between
  obtain ⟨level, _, hstands⟩ := harrives.stands
  have hlegs : h.legs before = h.egressLeg :: (Walk.legs h.walk ++ middle) ++ [s.accessLeg o] := by
    rw [Hit.legs, hmiddle, List.cons_append, List.cons_append, List.append_assoc]
  have htimed := harrives.timed_legs hbefore
  have hchain := htold.isChain_travelLegs (harrives.chained_legs hleads) htimed
  rw [← legs_journey s k h before] at hchain
  have haccess : (s.accessLeg o).Timed :=
    hbefore _ (by rw [hmiddle]; exact List.mem_append_right _ (List.mem_singleton.2 rfl))
  obtain ⟨first, inner, last, hends, hwith, hinner⟩ :=
    htold.exists_ends (k := k) harrives ho haccess hlegs
  refine isItinerary_of_ends ⟨rfl, rfl⟩ hends hwith hchain ?_ ?_ ?_
  · intro leg hleg
    obtain ⟨x, hx, rfl⟩ := hinner leg hleg
    have hx' : x ∈ h.legs before := by
      rw [hlegs]
      exact List.mem_append_left _ (List.mem_cons_of_mem _ hx)
    refine htold.between hw ?_ (htimed x hx')
    rcases List.mem_append.1 hx with hx | hx
    · exact hstands.between x hx
    · exact hbetween x hx
  · rw [length_transports_journey hleads, nbOfTransfers_journey]
    omega
  · rw [nbOfTransfers_journey]
    omega

end Search

end JourneyPlanner
