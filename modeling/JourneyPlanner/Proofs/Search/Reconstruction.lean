import JourneyPlanner.Proofs.Search.Rides
import JourneyPlanner.Proofs.Time.Midnights
import JourneyPlanner.Search.Feasible

/-!
# From round times to journeys

A search records times only. From each of its ways to the destination the legs of a journey are
found again, with one ride for each round: every time can be traced one step back, and the
reconstruction finds a step wherever there is one.
-/

namespace JourneyPlanner

/-- Both ends of a leg are at finite times. -/
def SearchLeg.Timed (leg : SearchLeg) : Prop :=
  leg.start.isFeasible = true ∧ leg.finish.isFeasible = true

/-- The walk of a way of getting ready. -/
def Approach.walk : Approach → Option Walk
  | .fromStart _ w => w
  | .fromVehicle _ w => w

/-- The legs of a way to the destination, the last one first, after those that lead to its
arrival. -/
def Hit.legs (h : Hit) (before : List SearchLeg) : List SearchLeg :=
  h.egressLeg :: Walk.legs h.walk ++ before

namespace Search

variable {s : Search} {p : Progress} {k : Nat} {a : Arrival} {l : LocationIndex} {t : RelTime}
  {r : RouteIndex} {trip : Trip}

/-- A search begins on its base day. -/
def Anchored (s : Search) : Prop := ∃ n, s.start.minutes? = some n ∧ 0 ≤ n ∧ n < 1440

/-- The midnight that begins the base day, in minutes. -/
def midnight (s : Search) : Int := s.timetable.calendar.midnight s.baseDay

lemma exists_at? {tt : Timetable} {q : Query} {instant : Instant} {base : Day} {time : ServiceTime}
    (h : tt.calendar.split? instant = some (base, time)) :
    Search.at? tt q instant = some ⟨tt, q, base, tt.calendar.relative base instant⟩ := by
  unfold Search.at?
  rw [h, Option.map_some]

/-- A search begins at the minutes of its instant. -/
lemma minutes_of_at? {tt : Timetable} {q : Query} {instant : Instant}
    (h : Search.at? tt q instant = some s) :
    s.start.minutes? = some (instant.minutes - s.midnight) ∧ s.midnight ≤ instant.minutes ∧
      instant.minutes < s.midnight + 1440 := by
  obtain ⟨⟨day, time⟩, hsplit, rfl⟩ := Option.map_eq_some_iff.1 h
  obtain ⟨hge, hlt, _, _⟩ := Calendar.split?_sound hsplit
  unfold midnight
  refine ⟨?_, hge, hlt⟩
  show (tt.calendar.relative day instant).minutes? = some (instant.minutes - tt.calendar.midnight day)
  rw [Calendar.relative_eq, Calendar.minutes_dayStart hge, RelTime.minutes?_ofMinutes, if_pos (by omega)]

lemma at?_sound {tt : Timetable} {q : Query} {instant : Instant}
    (h : Search.at? tt q instant = some s) : s.timetable = tt ∧ s.query = q ∧ s.Anchored ∧
      s.instant? s.start = some instant ∧ s.baseDay.number < tt.calendar.nbOfDays := by
  obtain ⟨hminutes, hge, hlt⟩ := minutes_of_at? h
  have hlow := instant.minutes_ge
  have hhigh := instant.minutes_lt
  have hsum : s.midnight + (instant.minutes - s.midnight) = instant.minutes := by omega
  have hinstant : s.instant? s.start = some instant := by
    obtain ⟨u, hu, heq⟩ := Calendar.minutes_absolute? hminutes (by rw [← midnight, hsum]; exact hlow)
      (by rw [← midnight, hsum]; exact hhigh)
    have hsame : u = instant := Instant.ext (heq.trans hsum)
    rw [← hsame]
    exact hu
  obtain ⟨⟨day, time⟩, hsplit, rfl⟩ := Option.map_eq_some_iff.1 h
  obtain ⟨_, _, hday, _⟩ := Calendar.split?_sound hsplit
  exact ⟨rfl, rfl, ⟨_, hminutes, by omega, by omega⟩, hinstant, hday⟩

lemma Brings.cost_le {level : Nat} (hw : s.timetable.WellFormed) (h : s.Brings l level t a) :
    s.dir.cost t ≤ s.dir.cost a.time := by
  obtain ⟨r, trip, board, alight, hride, hintime⟩ := h
  rw [hride.time_eq]
  exact Int.le_trans hintime.cost_le (cost_boardTime_le_alightTime hw hride.boarded.runs
    hride.boarded.goes_on hride.alight_lt hintime.feasible)

/-- No time of a search is better than its first one. -/
lemma Traced.start_le (hw : s.timetable.WellFormed) (h : s.Traced k p) (j : Nat) :
    (∀ l v, s.dir.cost s.start ≤ s.dir.cost (p.state.start j l v)) ∧
      ∀ l v, s.dir.cost s.start ≤ s.dir.cost (p.state.finish j l v) := by
  have hunreached : ∀ t : RelTime, ¬t.isFeasible = true → s.dir.cost s.start ≤ s.dir.cost t := by
    intro t ht
    rw [Direction.eq_infeasible_of_not ht, Direction.cost_infeasible]
    exact Direction.cost_le _ _
  induction j using Nat.strongRecOn with
  | ind j ih =>
    have hfinish : ∀ l v, s.dir.cost s.start ≤ s.dir.cost (p.state.finish j l v) := by
      intro l v
      by_cases hf : (p.state.finish j l v).isFeasible = true
      · obtain ⟨hj, l', u, _, hbrings⟩ := h.finishes j l v hf
        exact Int.le_trans ((ih (j - 1) (by omega)).1 l' u) (hbrings.cost_le hw)
      · exact hunreached _ hf
    refine ⟨fun l v => ?_, hfinish⟩
    by_cases hf : (p.state.start j l v).isFeasible = true
    · obtain ⟨approach, hready, hsupports⟩ := h.starts j l v hf
      refine Int.le_trans ?_ hready.cost_le
      cases approach with
      | fromStart o w => exact Direction.cost_le_add _ _
      | fromVehicle a w =>
        show s.dir.cost s.start ≤ s.dir.cost a.time
        rw [hsupports.2.1]
        exact hfinish _ _
    · exact hunreached _ hf

/-- A trip is boarded at a finite time when it is left after the beginning of the search: it does
not last longer than the days that are looked at. -/
lemma Anchored.inTime (hanchored : s.Anchored) (hw : s.timetable.WellFormed) (h : s.Runs r trip)
    {i j : Nat} (hij : i < j) (hj : j < s.nbOfStops r)
    (hf : (s.alightTime trip (s.positionAt r j)).isFeasible = true)
    (hstart : s.dir.cost s.start ≤ s.dir.cost (s.alightTime trip (s.positionAt r j)))
    (ht : s.dir.cost t ≤ s.dir.cost (s.boardTime trip (s.positionAt r i))) :
    s.InTime r trip i t := by
  refine ⟨?_, ht⟩
  obtain ⟨n, hn, hge, hlt⟩ := hanchored
  have hle := boardMinutes_le_alightMinutes hw h hij hj
  rw [alightTime_eq] at hf hstart
  rw [Direction.cost_of_minutes? hn, Direction.cost_ofMinutes hf] at hstart
  have hboard := hw.in_span r (s.boardRow r i)
    (trip.transport.val - (s.timetable.transportsOf r).start.val)
  have halight := hw.in_span r (s.alightRow r j)
    (trip.transport.val - (s.timetable.transportsOf r).start.val)
  have hspan : maxDaysInTrip * minutesPerDay = 7200 := rfl
  rw [boardTime_eq]
  rw [RelTime.isFeasible_ofMinutes_iff] at hf ⊢
  rw [boardMinutes_eq hw h] at hle ⊢
  rw [alightMinutes_eq hw h] at hle hstart hf
  unfold rowMinutes at *
  cases hdir : s.dir <;> rw [hdir] at hle hstart <;>
    simp only [Direction.sign_forward, Direction.sign_backward] at hle hstart <;> omega

/-- Legs, the last one first, that lead to an arrival with a number of rides. -/
inductive Leads (s : Search) : Nat → List SearchLeg → Arrival → Prop
  | first {o : Offset} {w : Option Walk} {l : LocationIndex} {level : Nat} {t : RelTime}
      {a : Arrival} {ride : SearchLeg} : s.Readies (.fromStart o w) l level t →
      s.RidesBy l level t a ride → Leads s 1 (ride :: Walk.legs w ++ [s.accessLeg o]) a
  | next {k : Nat} {b : Arrival} {w : Option Walk} {l : LocationIndex} {level : Nat} {t : RelTime}
      {a : Arrival} {ride : SearchLeg} {legs : List SearchLeg} :
      s.Readies (.fromVehicle b w) l level t → s.RidesBy l level t a ride → Leads s k legs b →
      Leads s (k + 1) (ride :: Walk.legs w ++ legs) a

/-- Legs are found again that lead to an arrival of a round. -/
theorem Traced.legsTo? (hw : s.timetable.WellFormed) (hanchored : s.Anchored) (h : s.Traced k p)
    (j : Nat) (a : Arrival) (ha : a.time = p.state.finish j a.location a.level)
    (hf : a.time.isFeasible = true) :
    ∃ legs, s.legsTo? p.state j a = some legs ∧ s.Leads j legs a := by
  induction j generalizing a with
  | zero =>
    rw [ha] at hf
    exact absurd rfl (h.finishes 0 _ _ hf).1
  | succ j ih =>
    have hstart := (h.start_le hw (j + 1)).2 a.location a.level
    rw [← ha] at hstart
    -- the ride is found, since the arrival and the start before it can be traced
    have hfound : (s.rideInto? p.state (j + 1) a).isSome = true := by
      have hf' := hf
      rw [ha] at hf'
      obtain ⟨_, l, u, hready, r, trip, board, alight, hride, hintime⟩ := h.finishes (j + 1) _ _ hf'
      rw [← ha] at hride
      obtain ⟨approach, happroach, hsupports⟩ := h.starts j l u hready
      exact rideInto?_complete hw hride hf hsupports happroach hintime.cost_le
    obtain ⟨⟨ride, approach⟩, hinto⟩ := Option.isSome_iff_exists.1 hfound
    obtain ⟨r, trip, board, alight, l, level, t, hride, hsupports, hready, hcost, hleg⟩ :=
      rideInto?_sound hw hinto
    have hboarded := hride.boarded
    have hintime := hanchored.inTime hw hboarded.runs hboarded.goes_on hride.alight_lt
      (by rw [← hride.time_eq]; exact hf) (by rw [← hride.time_eq]; exact hstart) hcost
    have hrides : s.RidesBy l level t a ride := ⟨r, trip, board, alight, hride, hintime, hleg⟩
    rw [Search.legsTo?, hinto]
    cases approach with
    | fromStart o w =>
      have hj : j = 0 := hsupports
      subst hj
      exact ⟨_, rfl, .first hready hrides⟩
    | fromVehicle b w =>
      obtain ⟨legs, hlegs, hleads⟩ := ih b hsupports.2.1 hsupports.2.2
      dsimp only [Option.bind_eq_bind, Option.bind_some]
      rw [hlegs]
      exact ⟨_, rfl, .next hready hrides hleads⟩

/-- The instant of a finite time of the search. -/
def instantOf (s : Search) (t : RelTime) : Instant := (s.instant? t).getD .epoch

lemma instant?_eq (h : t.isFeasible = true) : s.instant? t = some (s.instantOf t) := by
  obtain ⟨n, hn⟩ := Direction.exists_minutes h
  unfold instantOf instant? Calendar.absolute?
  rw [hn]
  rfl

/-- A leg in travel order. -/
def travelLeg (s : Search) (leg : SearchLeg) : Leg :=
  match s.dir with
  | .forward => ⟨leg.source, leg.target, s.instantOf leg.start, s.instantOf leg.finish, leg.kind⟩
  | .backward => ⟨leg.target, leg.source, s.instantOf leg.finish, s.instantOf leg.start, leg.kind⟩

/-- Legs in travel order, from those of a search with the last one first. -/
def travelLegs (s : Search) (legs : List SearchLeg) : List Leg :=
  match s.dir with
  | .forward => (legs.map s.travelLeg).reverse
  | .backward => legs.map s.travelLeg

@[simp] lemma kind_travelLeg (leg : SearchLeg) : (s.travelLeg leg).kind = leg.kind := by
  unfold travelLeg
  split <;> rfl

lemma travelLeg?_eq {leg : SearchLeg} (h : leg.Timed) :
    s.travelLeg? leg = some (s.travelLeg leg) := by
  unfold travelLeg? travelLeg
  rw [instant?_eq h.1, instant?_eq h.2]
  rfl

lemma mapM_eq_some {α β : Type} {f : α → Option β} {g : α → β} {items : List α}
    (h : ∀ x ∈ items, f x = some (g x)) : items.mapM f = some (items.map g) := by
  induction items with
  | nil => rfl
  | cons x rest ih =>
    rw [List.mapM_cons, h x List.mem_cons_self, ih fun y hy => h y (List.mem_cons_of_mem _ hy)]
    rfl

lemma travelLegs?_eq {legs : List SearchLeg} (h : ∀ leg ∈ legs, leg.Timed) :
    s.travelLegs? legs = some (s.travelLegs legs) := by
  unfold travelLegs? travelLegs
  cases s.dir with
  | forward =>
    dsimp only
    rw [mapM_eq_some fun leg hleg => travelLeg?_eq (h leg (List.mem_reverse.1 hleg)),
      List.map_reverse]
  | backward => exact mapM_eq_some fun leg hleg => travelLeg?_eq (h leg hleg)

lemma timed_walk {w : Walk} (h : w ∈ s.walks l t) (hf : w.finish.isFeasible = true) :
    w.leg.Timed :=
  ⟨Direction.isFeasible_of_le (cost_of_mem_walks h).2 hf, hf⟩

lemma Stands.timed {w : Option Walk} {level : Nat} (h : s.Stands a w l level t)
    (ht : t.isFeasible = true) : ∀ leg ∈ Walk.legs w, leg.Timed := by
  cases h with
  | here _ => exact fun leg hleg => absurd hleg List.not_mem_nil
  | walked _ hwalk _ =>
    intro leg hleg
    rw [List.mem_singleton.1 hleg]
    exact timed_walk hwalk (Direction.isFeasible_of_add ht)

lemma Readies.timed {approach : Approach} {level : Nat} (h : s.Readies approach l level t)
    (ht : t.isFeasible = true) : ∀ leg ∈ Walk.legs approach.walk, leg.Timed := by
  cases h with
  | start _ _ => exact fun leg hleg => absurd hleg List.not_mem_nil
  | startOnFoot _ hwalk _ =>
    intro leg hleg
    rw [List.mem_singleton.1 hleg]
    exact timed_walk hwalk (Direction.isFeasible_of_add ht)
  | transfer _ => exact fun leg hleg => absurd hleg List.not_mem_nil
  | onFoot h => exact h.timed ht

lemma RidesBy.times {level : Nat} {ride : SearchLeg} (h : s.RidesBy l level t a ride) :
    ride.start.isFeasible = true ∧ s.dir.cost t ≤ s.dir.cost ride.start ∧ ride.finish = a.time := by
  obtain ⟨r, trip, board, alight, _, hintime, rfl⟩ := h
  exact ⟨hintime.feasible, hintime.cost_le, rfl⟩

/-- A ride and the walk before it are at finite times, and someone was ready for them at one. -/
lemma RidesBy.timed {approach : Approach} {level : Nat} {ride : SearchLeg}
    (h : s.RidesBy l level t a ride) (hready : s.Readies approach l level t)
    (ha : a.time.isFeasible = true) :
    t.isFeasible = true ∧ ∀ leg ∈ ride :: Walk.legs approach.walk, leg.Timed := by
  obtain ⟨hboard, hcost, hfinish⟩ := h.times
  have ht := Direction.isFeasible_of_le hcost hboard
  refine ⟨ht, fun leg hleg => ?_⟩
  rcases List.mem_cons.1 hleg with rfl | hleg
  · exact ⟨hboard, by rw [hfinish]; exact ha⟩
  · exact hready.timed ht leg hleg

lemma Leads.timed {legs : List SearchLeg} (h : s.Leads k legs a) (ha : a.time.isFeasible = true)
    (hstart : s.start.isFeasible = true) : ∀ leg ∈ legs, leg.Timed := by
  induction h with
  | first hready hrides =>
    obtain ⟨ht, hfront⟩ := hrides.timed hready ha
    intro leg hleg
    rcases List.mem_append.1 hleg with hleg | hleg
    · exact hfront leg hleg
    · rw [List.mem_singleton.1 hleg]
      exact ⟨hstart, Direction.isFeasible_of_le hready.cost_le ht⟩
  | next hready hrides _ ih =>
    obtain ⟨ht, hfront⟩ := hrides.timed hready ha
    intro leg hleg
    rcases List.mem_append.1 hleg with hleg | hleg
    · exact hfront leg hleg
    · exact ih (Direction.isFeasible_of_le hready.cost_le ht) leg hleg

lemma RidesBy.cost_le (hw : s.timetable.WellFormed) {level : Nat} {ride : SearchLeg}
    (h : s.RidesBy l level t a ride) : s.dir.cost t ≤ s.dir.cost a.time := by
  obtain ⟨r, trip, board, alight, hride, hintime, _⟩ := h
  exact Brings.cost_le hw ⟨r, trip, board, alight, hride, hintime⟩

/-- No arrival is before the first time of the search. -/
lemma Leads.start_le (hw : s.timetable.WellFormed) {legs : List SearchLeg}
    (h : s.Leads k legs a) : s.dir.cost s.start ≤ s.dir.cost a.time := by
  induction h with
  | first hready hrides =>
    exact Int.le_trans (Direction.cost_le_add _ _)
      (Int.le_trans hready.cost_le (hrides.cost_le hw))
  | next hready hrides _ ih =>
    exact Int.le_trans ih (Int.le_trans hready.cost_le (hrides.cost_le hw))

lemma Arrives.timed {h : Hit} (harrives : s.Arrives h) :
    h.egressLeg.Timed ∧ ∀ leg ∈ Walk.legs h.walk, leg.Timed := by
  have hf := harrives.feasible
  rw [harrives.time_eq] at hf
  have htime := Direction.isFeasible_of_add hf
  obtain ⟨level, _, hstands⟩ := harrives.stands
  exact ⟨⟨htime, harrives.feasible⟩, hstands.timed htime⟩

lemma Arrives.timed_legs {h : Hit} (harrives : s.Arrives h) {before : List SearchLeg}
    (hbefore : ∀ leg ∈ before, leg.Timed) : ∀ leg ∈ h.legs before, leg.Timed := by
  intro leg hleg
  rcases List.mem_append.1 hleg with hleg | hleg
  · rcases List.mem_cons.1 hleg with rfl | hleg
    · exact harrives.timed.1
    · exact harrives.timed.2 leg hleg
  · exact hbefore leg hleg

/-- Nobody is at the destination before the last vehicle is left. -/
lemma Arrives.cost_le {h : Hit} (harrives : s.Arrives h) :
    s.dir.cost h.arrival.time ≤ s.dir.cost h.destinationTime := by
  obtain ⟨level, _, hstands⟩ := harrives.stands
  rw [harrives.time_eq]
  exact Int.le_trans hstands.cost_le (Direction.cost_le_add _ _)

/-- The journey of a way to the destination, when the legs that lead to its arrival are known. -/
def journey (s : Search) (round : Nat) (h : Hit) (before : List SearchLeg) : Journey :=
  let start := s.instantOf s.start
  let finish := s.instantOf h.destinationTime
  match s.dir with
  | .forward => ⟨start, finish, round - 1, s.travelLegs (h.legs before)⟩
  | .backward => ⟨finish, start, round - 1, s.travelLegs (h.legs before)⟩

lemma journeyOf?_eq {st : SearchState} {h : Hit} {before : List SearchLeg}
    (harrives : s.Arrives h) (hlegs : s.legsTo? st k h.arrival = some before)
    (hbefore : ∀ leg ∈ before, leg.Timed) (hstart : s.start.isFeasible = true) :
    s.journeyOf? st k h = some (s.journey k h before) := by
  have htravel := travelLegs?_eq (s := s) (harrives.timed_legs hbefore)
  unfold Hit.legs at htravel
  unfold journeyOf? journey Hit.legs
  rw [hlegs]
  dsimp only [Option.bind_eq_bind, Option.bind_some]
  rw [htravel, instant?_eq hstart, instant?_eq harrives.feasible]
  cases s.dir <;> rfl

lemma legs_journey (s : Search) (k : Nat) (h : Hit) (before : List SearchLeg) :
    (s.journey k h before).legs = s.travelLegs (h.legs before) := by
  unfold journey
  cases s.dir <;> rfl

lemma nbOfTransfers_journey (s : Search) (k : Nat) (h : Hit) (before : List SearchLeg) :
    (s.journey k h before).nbOfTransfers = k - 1 := by
  unfold journey
  cases s.dir <;> rfl

lemma length_transports (j : Journey) :
    j.transports.length = j.legs.countP fun leg => leg.kind.isRide := by
  unfold Journey.transports
  rw [List.length_filterMap_eq_countP]
  congr 1
  funext leg
  unfold Leg.transport?
  cases leg.kind <;> rfl

lemma countP_travelLegs (legs : List SearchLeg) :
    (s.travelLegs legs).countP (fun leg => leg.kind.isRide) =
      legs.countP fun leg => leg.kind.isRide := by
  have hmap : (legs.map s.travelLeg).countP (fun leg => leg.kind.isRide) =
      legs.countP fun leg => leg.kind.isRide := by
    rw [List.countP_map]
    congr 1
    funext leg
    exact congrArg _ (kind_travelLeg leg)
  unfold travelLegs
  cases s.dir with
  | forward => exact (List.countP_reverse).trans hmap
  | backward => exact hmap

lemma countP_walkLegs (w : Option Walk) :
    (Walk.legs w).countP (fun leg => leg.kind.isRide) = 0 := by
  cases w <;> rfl

lemma RidesBy.isRide {level : Nat} {ride : SearchLeg} (h : s.RidesBy l level t a ride) :
    ride.kind.isRide = true := by
  obtain ⟨r, trip, board, alight, _, _, rfl⟩ := h
  unfold rideLeg
  cases s.dir <;> rfl

lemma Leads.countP {legs : List SearchLeg} (h : s.Leads k legs a) :
    legs.countP (fun leg => leg.kind.isRide) = k := by
  induction h with
  | first _ hrides =>
    rw [List.countP_append, List.countP_cons, countP_walkLegs, if_pos hrides.isRide]
    rfl
  | next _ hrides _ ih =>
    rw [List.countP_append, List.countP_cons, countP_walkLegs, if_pos hrides.isRide, ih]
    omega

lemma length_transports_journey {h : Hit} {before : List SearchLeg}
    (hbefore : s.Leads k before h.arrival) : (s.journey k h before).transports.length = k := by
  rw [length_transports, legs_journey, countP_travelLegs, Hit.legs, List.countP_append,
    List.countP_cons, countP_walkLegs, hbefore.countP]
  show 0 + 0 + k = k
  omega

end Search

end JourneyPlanner
