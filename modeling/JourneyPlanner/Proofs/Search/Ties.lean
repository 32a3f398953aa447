import JourneyPlanner.Proofs.Search.Completeness

/-!
# Trips that tie

Two trips of a route may be boarded at the same time at one stop and left at different times at
another one. A scan exchanges the trip aboard only for one that is boarded strictly earlier, so a
trip that was caught before keeps out one that ties with it. Every other trip that can be caught
leaves its mark, when all trips of the route leave on the base day.
-/

namespace JourneyPlanner

namespace Search

variable {s : Search} {p : Progress} {k i j n : Nat} {r : RouteIndex} {l : LocationIndex}
  {trip other third : Trip} {stop : RouteStop} {st : SearchState} {ready : Int} {a : Arrival}

lemma StandsFirst.refl (s : Search) (trip : Trip) : s.StandsFirst trip trip :=
  ⟨rfl, Int.le_refl _⟩

lemma StandsFirst.trans (h : s.StandsFirst trip other) (h' : s.StandsFirst other third) :
    s.StandsFirst trip third :=
  ⟨h.day_eq.trans h'.day_eq, Int.le_trans h.le h'.le⟩

lemma standsFirst_total (h : trip.day = other.day) :
    s.StandsFirst trip other ∨ s.StandsFirst other trip :=
  (Int.le_total _ _).imp (fun hle => ⟨h, hle⟩) fun hle => ⟨h.symm, hle⟩

lemma StandsFirst.noLater (hw : s.timetable.WellFormed) (h : s.StandsFirst trip other)
    (hruns : s.Runs r trip) (hruns' : s.Runs r other) : s.NoLater r trip other :=
  fun _ hrow => h.rowMinutes_le hw hruns hruns' hrow

/-- A trip that meets some event of the route before another one of its day stands before it. -/
lemma standsFirst_of_lt (hw : s.timetable.WellFormed) (hruns : s.Runs r trip)
    (hruns' : s.Runs r other) (hday : trip.day = other.day) {row : Nat}
    (hrow : row < s.timetable.nbOfEvents r)
    (hlt : s.dir.sign (s.rowMinutes r trip row) < s.dir.sign (s.rowMinutes r other row)) :
    s.StandsFirst trip other := by
  rcases standsFirst_total (s := s) hday with h | h
  · exact h
  · have hle := h.rowMinutes_le hw hruns' hruns hrow
    exact absurd hlt (Int.not_lt.2 hle)

/-- A route is scanned without via stops, for people who are all ready on the base day, and its
trips leave on that day only. -/
structure OneDay (s : Search) (k : Nat) (r : RouteIndex) (st : SearchState) : Prop where
  levels_eq : s.levels = 1
  ready_on_day : ∀ l n, (st.start (k - 1) l 0).minutes? = some n → 0 ≤ n ∧ n < 1440
  leaves_on_day : ∀ trip, s.Runs r trip → trip.day = s.baseDay

namespace OneDay

lemma isFeasible (hday : s.OneDay k r st) (hw : s.timetable.WellFormed) (hruns : s.Runs r trip)
    (row : Nat) : (RelTime.ofMinutes (s.rowMinutes r trip row)).isFeasible = true := by
  have hspan := hw.in_span r row (trip.transport.val - (s.timetable.transportsOf r).start.val)
  have hdays : maxDaysInTrip * minutesPerDay = 7200 := rfl
  rw [RelTime.isFeasible_ofMinutes_iff]
  unfold rowMinutes Day.daysSince
  rw [hday.leaves_on_day trip hruns]
  omega

lemma cost_boardTime (hday : s.OneDay k r st) (hw : s.timetable.WellFormed)
    (hruns : s.Runs r trip) (i : Nat) : s.dir.cost (s.boardTime trip (s.positionAt r i)) =
      s.dir.sign (s.rowMinutes r trip (s.boardRow r i)) := by
  rw [boardTime_eq, boardMinutes_eq hw hruns, Direction.cost_ofMinutes (hday.isFeasible hw hruns _)]

lemma cost_alightTime (hday : s.OneDay k r st) (hw : s.timetable.WellFormed)
    (hruns : s.Runs r trip) (i : Nat) : s.dir.cost (s.alightTime trip (s.positionAt r i)) =
      s.dir.sign (s.rowMinutes r trip (s.alightRow r i)) := by
  rw [alightTime_eq, alightMinutes_eq hw hruns,
    Direction.cost_ofMinutes (hday.isFeasible hw hruns _)]

/-- On the base day, every trip that is in time can be caught. -/
lemma catches (hday : s.OneDay k r st) (hw : s.timetable.WellFormed) (hruns : s.Runs r trip)
    (hready : (st.start (k - 1) l 0).minutes? = some ready) {position : Nat}
    (hintime : s.dir.NotBefore ready (s.boardMinutes trip position)) :
    s.Catches r position ready trip := by
  obtain ⟨hge, hlt⟩ := hday.ready_on_day l ready hready
  refine ⟨hruns.of_route, ?_, hw.active_lt hruns.active, hruns.active, hintime⟩
  rw [hday.leaves_on_day trip hruns, Day.daysSince, Int.sub_self]
  cases s.dir with
  | forward =>
    rw [Direction.mem_tripDays_forward]
    omega
  | backward =>
    rw [Direction.mem_tripDays_backward]
    omega

end OneDay

/-- The trip aboard when the stop of a step is reached, without via stops. -/
def aboardAt (s : Search) (k : Nat) (r : RouteIndex) (p : Progress) (i : Nat) : Option Trip :=
  (s.scanned k r p i).aboard.trip? 0

lemma aboardAt_zero (s : Search) (k : Nat) (r : RouteIndex) (p : Progress) :
    s.aboardAt k r p 0 = none :=
  Aboard.trip?_empty _ _

lemma trip?_boardTrip {aboard : Aboard} (hlength : aboard.length = 1) {position : Nat} :
    (s.boardTrip k r position l st aboard 0).trip? 0 =
      if (st.start (k - 1) l 0).isFeasible = true then
        s.exchange r position (st.start (k - 1) l 0) (aboard.trip? 0)
      else aboard.trip? 0 := by
  unfold boardTrip
  dsimp only
  split
  · rw [Aboard.trip?_set, if_pos ⟨rfl, by omega⟩]
  · rfl

/-- At each stop where the route goes on, the trip aboard is kept, or exchanged by whoever is ready
there; where it does not go on, everyone gets off. -/
lemma aboardAt_succ (hw : s.timetable.WellFormed) (hlevels : s.levels = 1)
    (hi : i + 1 < s.nbOfStops r) (hstop : s.stopAt? r i = some stop) (k : Nat) (p : Progress) :
    s.aboardAt k r p (i + 1) =
      if s.query.canLeave s.timetable r (s.positionAt r i) = true then
        if stop.canStart s.dir = true ∧
            (p.state.start (k - 1) stop.location 0).isFeasible = true then
          s.exchange r (s.positionAt r i) (p.state.start (k - 1) stop.location 0)
            (s.aboardAt k r p i)
        else s.aboardAt k r p i
      else none := by
  have hlength := (crew_scanned hw k r p (by omega : i < s.nbOfStops r)).length_eq
  rw [hlevels] at hlength
  obtain ⟨q, _, heq⟩ := scanStop_eq hstop k (s.scanned k r p i)
  have hscans := scans_scanned s k r p (i + 1)
  unfold aboardAt
  rw [scanned_succ, heq] at hscans ⊢
  rw [← hscans.start_eq]
  have hrode : (if i = 0 then (s.scanned k r p i).aboard else (List.range (s.levels - 1)).foldl
      (s.rideThrough (s.positionAt r i) stop.location) (s.scanned k r p i).aboard) =
        (s.scanned k r p i).aboard := by
    rw [hlevels]
    exact ite_self _
  unfold aboardAfter
  rw [if_neg (by omega), hrode, hlevels]
  by_cases hleave : s.query.canLeave s.timetable r (s.positionAt r i) = true
  · rw [if_neg (by rw [hleave]; decide), if_pos hleave]
    by_cases hstart : stop.canStart s.dir = true
    · rw [if_neg (by rw [hstart]; decide)]
      simp only [List.range_one, List.foldl_cons, List.foldl_nil, hstart, true_and]
      exact trip?_boardTrip hlength
    · rw [if_pos (by simpa using hstart), if_neg fun h => hstart h.1]
  · rw [if_pos (by simpa using hleave), if_neg hleave]
    exact Aboard.trip?_empty _ _

/-- A trip comes to a step that was the first one of all that could be caught at an earlier stop. -/
structure Caught (s : Search) (k : Nat) (r : RouteIndex) (st : SearchState) (board : Nat)
    (l : LocationIndex) (ready : Int) (i : Nat) (trip : Trip) : Prop where
  boarded : s.Boarded r trip board l 0 i 0
  ready_eq : (st.start (k - 1) l 0).minutes? = some ready
  in_time : s.dir.NotBefore ready (s.boardMinutes trip (s.positionAt r board))
  first : ∀ other, s.Runs r other →
    s.dir.NotBefore ready (s.boardMinutes other (s.positionAt r board)) → s.StandsFirst trip other

section OneDay

variable (hw : s.timetable.WellFormed) (hday : s.OneDay k r p.state)
include hw hday

/-- The trip that is taken at a stop is the first one that can be caught there. -/
lemma OneDay.exists_first (hi : i + 1 < s.nbOfStops r)
    (hready : (p.state.start (k - 1) l 0).minutes? = some ready) {u : RelTime}
    (h : s.firstTrip? r (s.positionAt r i) (p.state.start (k - 1) l 0) = some (trip, u)) :
    s.Runs r trip ∧ u = s.boardTime trip (s.positionAt r i) ∧
      s.dir.NotBefore ready (s.boardMinutes trip (s.positionAt r i)) ∧
      ∀ other, s.Runs r other → s.dir.NotBefore ready (s.boardMinutes other (s.positionAt r i)) →
        s.StandsFirst trip other := by
  obtain ⟨minutes, hminutes, hcatches, htime⟩ := firstTrip?_sound hw (boardRow_lt hi) h
  rw [hready] at hminutes
  cases hminutes
  refine ⟨hcatches.runs, htime, hcatches.in_time, fun other hruns hintime => ?_⟩
  have hsame : trip.day = other.day :=
    (hday.leaves_on_day trip hcatches.runs).trans (hday.leaves_on_day other hruns).symm
  exact firstTrip?_first hw (boardRow_lt hi) hready h (hday.catches hw hruns hready hintime) hsame

lemma OneDay.exists_caught (hi : i < s.nbOfStops r) (h : s.aboardAt k r p i = some trip) :
    ∃ board l ready, s.Caught k r p.state board l ready i trip := by
  induction i generalizing trip with
  | zero =>
    rw [aboardAt_zero] at h
    cases h
  | succ i ih =>
    obtain ⟨stop, hstop⟩ := exists_stopAt? (s := s) (r := r) (i := i) (by omega)
    rw [aboardAt_succ hw hday.levels_eq hi hstop] at h
    split at h
    · rename_i hleave
      -- whoever is aboard already rides on to the next stop
      have hkept : s.aboardAt k r p i = some trip →
          ∃ board l ready, s.Caught k r p.state board l ready (i + 1) trip := by
        intro hold
        obtain ⟨board, l, ready, hcaught⟩ := ih (by omega) hold
        have hboarded := hcaught.boarded
        refine ⟨board, l, ready, { hcaught with boarded := { hboarded with
          goes_on := Nat.lt_succ_of_lt hboarded.goes_on
          continues := fun m hle hlt => ?_
          passes := hboarded.passes.snoc hstop (PassesAt.refl s _ 0) } }⟩
        rcases Nat.lt_succ_iff_lt_or_eq.1 hlt with hm | rfl
        · exact hboarded.continues m hle hm
        · exact hleave
      split at h
      · rename_i hboards
        rcases exchange_cases h with hold | ⟨u, hfirst⟩
        · exact hkept hold
        · obtain ⟨ready, hready⟩ := Direction.exists_minutes hboards.2
          obtain ⟨hruns, _, hintime, hbefore⟩ := hday.exists_first hw hi hready hfirst
          refine ⟨i, stop.location, ready, ⟨hruns, Nat.lt_succ_self i,
            ⟨stop, hstop, rfl, hboards.1⟩, fun m hle hlt => ?_, .nil⟩, hready, hintime, hbefore⟩
          rw [(by omega : m = i)]
          exact hleave
      · exact hkept h
    · cases h

/-- Where a trip can be caught, one is aboard afterwards that stands before it, or one that was
aboard already and ties with it. -/
lemma OneDay.exchange_catches (hi : i + 1 < s.nbOfStops r)
    (hready : (p.state.start (k - 1) l 0).minutes? = some ready) (hruns : s.Runs r trip)
    (hintime : s.dir.NotBefore ready (s.boardMinutes trip (s.positionAt r i)))
    {current : Option Trip} (hcurrent : ∀ x, current = some x → s.Runs r x) :
    ∃ taken, s.exchange r (s.positionAt r i) (p.state.start (k - 1) l 0) current = some taken ∧
      s.Runs r taken ∧ (s.StandsFirst taken trip ∨ current = some taken ∧
        s.boardMinutes taken (s.positionAt r i) = s.boardMinutes trip (s.positionAt r i)) := by
  have hboard : s.dir.cost (s.boardTime trip (s.positionAt r i)) =
      s.dir.sign (s.boardMinutes trip (s.positionAt r i)) := by
    rw [hday.cost_boardTime hw hruns, boardMinutes_eq hw hruns]
  obtain ⟨taken, htaken, hbest | ⟨hold, hle⟩⟩ := exists_exchange hw (boardRow_lt hi) hready
    (hday.catches hw hruns hready hintime) hboard current
  · obtain ⟨u, hfirst, _⟩ := hbest
    obtain ⟨htakenRuns, _, _, hbefore⟩ := hday.exists_first hw hi hready hfirst
    exact ⟨taken, htaken, htakenRuns, Or.inl (hbefore trip hruns hintime)⟩
  · -- a trip that is kept is boarded no later
    have hkept := hcurrent taken hold
    have hsame : taken.day = trip.day :=
      (hday.leaves_on_day taken hkept).trans (hday.leaves_on_day trip hruns).symm
    rw [hday.cost_boardTime hw hkept, hday.cost_boardTime hw hruns] at hle
    refine ⟨taken, htaken, hkept, ?_⟩
    rcases Int.lt_or_eq_of_le hle with hlt | heq
    · exact Or.inl (standsFirst_of_lt hw hkept hruns hsame (boardRow_lt hi) hlt)
    · refine Or.inr ⟨hold, ?_⟩
      rw [boardMinutes_eq hw hkept, boardMinutes_eq hw hruns]
      exact Direction.sign_inj heq

/-- The trip aboard is only exchanged for one that stands before it. -/
lemma OneDay.exchange_standsFirst (hi : i + 1 < s.nbOfStops r)
    (hf : (p.state.start (k - 1) l 0).isFeasible = true) (hruns : s.Runs r trip) :
    ∃ taken, s.exchange r (s.positionAt r i) (p.state.start (k - 1) l 0) (some trip) = some taken ∧
      s.Runs r taken ∧ s.StandsFirst taken trip := by
  obtain ⟨ready, hready⟩ := Direction.exists_minutes hf
  rcases s.exchange_some r (s.positionAt r i) (p.state.start (k - 1) l 0) trip with
    ⟨best, u, hfirst, hbetter, htaken⟩ | ⟨hkept, _⟩
  · obtain ⟨hbest, rfl, _, _⟩ := hday.exists_first hw hi hready hfirst
    have hlt := Direction.isBetter_iff.1 hbetter
    rw [hday.cost_boardTime hw hbest, hday.cost_boardTime hw hruns] at hlt
    have hsame : best.day = trip.day :=
      (hday.leaves_on_day best hbest).trans (hday.leaves_on_day trip hruns).symm
    exact ⟨best, htaken, hbest, standsFirst_of_lt hw hbest hruns hsame (boardRow_lt hi) hlt⟩
  · exact ⟨trip, hkept, hruns, StandsFirst.refl s trip⟩

/-- From a trip aboard on, as long as the route goes on, a trip is aboard that stands before it. -/
lemma OneDay.exists_aboardAt (hj : j < s.nbOfStops r) (hij : i ≤ j)
    (hleave : ∀ m, i ≤ m → m < j → s.query.canLeave s.timetable r (s.positionAt r m) = true)
    (hruns : s.Runs r trip) (h : s.aboardAt k r p i = some trip) :
    ∃ current, s.aboardAt k r p j = some current ∧ s.Runs r current ∧
      s.StandsFirst current trip := by
  induction j, hij using Nat.le_induction with
  | base => exact ⟨trip, h, hruns, StandsFirst.refl s trip⟩
  | succ m him ih =>
    obtain ⟨current, hcurrent, hruns', hfirst⟩ :=
      ih (by omega) fun m' hle hlt => hleave m' hle (Nat.lt_succ_of_lt hlt)
    obtain ⟨stop, hstop⟩ := exists_stopAt? (s := s) (r := r) (i := m) (by omega)
    rw [aboardAt_succ hw hday.levels_eq hj hstop, if_pos (hleave m him (Nat.lt_succ_self m)),
      hcurrent]
    split
    · rename_i hboards
      obtain ⟨taken, htaken, hruns'', hbefore⟩ :=
        hday.exchange_standsFirst hw hj hboards.2 hruns'
      exact ⟨taken, htaken, hruns'', hbefore.trans hfirst⟩
    · exact ⟨current, rfl, hruns', hfirst⟩

end OneDay

/-! ### What is known after the scan -/

/-- Another trip was caught before, by someone who was too late for this one; both are boarded at
the same time in a step, and the other one is left later. -/
structure Overshadows (s : Search) (k : Nat) (r : RouteIndex) (st : SearchState) (i j : Nat)
    (other trip : Trip) : Prop where
  caught : ∃ board l ready, s.Boarded r other board l 0 i 0 ∧
    (st.start (k - 1) l 0).minutes? = some ready ∧
    s.dir.NotBefore ready (s.boardMinutes other (s.positionAt r board)) ∧
    ¬s.dir.NotBefore ready (s.boardMinutes trip (s.positionAt r board))
  ties : s.boardMinutes other (s.positionAt r i) = s.boardMinutes trip (s.positionAt r i)
  later : s.dir.sign (s.alightMinutes trip (s.positionAt r j)) <
    s.dir.sign (s.alightMinutes other (s.positionAt r j))

/-- A trip is aboard where another one is left that can be caught, and is left no later, unless some
trip overshadows the other one. -/
lemma OneDay.exists_carries (hw : s.timetable.WellFormed) (hday : s.OneDay k r p.state)
    (hride : s.Ride r trip i j l 0 a) (hready : (p.state.start (k - 1) l 0).minutes? = some ready)
    (hintime : s.dir.NotBefore ready (s.boardMinutes trip (s.positionAt r i)))
    (hclear : ∀ other, ¬s.Overshadows k r p.state i j other trip) :
    ∃ taken, s.Carries r (s.scanned k r p j).aboard 0 taken ∧ s.Runs r taken ∧
      s.dir.cost (s.alightTime taken (s.positionAt r j)) ≤
        s.dir.cost (s.alightTime trip (s.positionAt r j)) := by
  have hboarded := hride.boarded
  have hruns := hboarded.runs
  have hij := hboarded.goes_on
  have hj := hride.alight_lt
  obtain ⟨stop, hstop, rfl, hstart⟩ := hboarded.begins
  have hcurrent : ∀ x, s.aboardAt k r p i = some x → s.Runs r x := by
    intro x hx
    obtain ⟨_, _, _, hcaught⟩ := hday.exists_caught hw (by omega) hx
    exact hcaught.boarded.runs
  obtain ⟨taken, htaken, hruns', hfirst⟩ :=
    hday.exchange_catches hw (by omega) hready hruns hintime hcurrent
  have hf : (p.state.start (k - 1) stop.location 0).isFeasible = true := by
    rw [RelTime.isFeasible, hready]
    rfl
  have haboard : s.aboardAt k r p (i + 1) = some taken := by
    rw [aboardAt_succ hw hday.levels_eq (by omega) hstop,
      if_pos (hboarded.continues i (Nat.le_refl i) hij), if_pos ⟨hstart, hf⟩]
    exact htaken
  obtain ⟨current, hcurrent', hruns'', hbefore⟩ := hday.exists_aboardAt hw hj (by omega)
    (fun m hle hlt => hboarded.continues m (by omega) hlt) hruns' haboard
  refine ⟨taken, ⟨current, hcurrent', hbefore.noLater hw hruns'' hruns'⟩, hruns', ?_⟩
  rw [hday.cost_alightTime hw hruns', hday.cost_alightTime hw hruns]
  rcases hfirst with hfirst | ⟨hold, hties⟩
  · exact hfirst.rowMinutes_le hw hruns' hruns (alightRow_lt (by omega) hj)
  · -- a trip that was aboard already was caught by someone who was too late for this one
    by_contra hlater
    obtain ⟨board, l, ready', hcaught⟩ := hday.exists_caught hw (by omega) hold
    refine hclear taken ⟨⟨board, l, ready', hcaught.boarded, hcaught.ready_eq, hcaught.in_time,
      fun hearly => hlater ?_⟩, hties, ?_⟩
    · exact (hcaught.first trip hruns hearly).rowMinutes_le hw hruns' hruns
        (alightRow_lt (by omega) hj)
    · rw [alightMinutes_eq hw hruns, alightMinutes_eq hw hruns']
      exact Int.not_le.1 hlater

/-- After the scan of a route on one day, every trip that someone could catch is known to be left no
later, or that is of no use, unless some trip overshadows it. -/
theorem knowsArrival_of_not_overshadows (hbuilt : s.timetable.IsBuilt)
    (hday : s.OneDay k r p.state) (hfits : p.Fits s.timetable.nbOfLocations s.levels)
    (hride : s.Ride r trip i j l 0 a) (hready : (p.state.start (k - 1) l 0).minutes? = some ready)
    (hintime : s.dir.NotBefore ready (s.boardMinutes trip (s.positionAt r i)))
    (hclear : ∀ other, ¬s.Overshadows k r p.state i j other trip) :
    (s.scanRoute k p r).KnowsArrival s.dir a.location a.level a.time := by
  have hw := hbuilt.wellFormed
  have hlevel : a.level = 0 := by
    have := hride.boarded.passes.lt_levels (by rw [hday.levels_eq]; exact Nat.one_pos)
    rw [hday.levels_eq] at this
    omega
  obtain ⟨taken, hcarries, hruns, hle⟩ := hday.exists_carries hw hride hready hintime hclear
  obtain ⟨stop, hstop, hlocation, hfinish⟩ := hride.ends
  have hf : (s.alightTime taken (s.positionAt r j)).isFeasible = true := by
    rw [alightTime_eq, alightMinutes_eq hw hruns]
    exact hday.isFeasible hw hruns _
  rw [hlevel, ← hlocation, hride.time_eq]
  have hlevels : 0 < s.levels := by
    rw [hday.levels_eq]
    exact Nat.one_pos
  have hlast : 0 < j := Nat.lt_of_le_of_lt (Nat.zero_le i) hride.boarded.goes_on
  exact (hcarries.knowsArrival_scanRoute hw hfits hride.alight_lt hlast hruns hstop hfinish hf
    hlevels).mono hle

/-- After the scan of a route, every trip that someone could catch is known to be left no later
wherever it can be left, or that is of no use. -/
def KnowsEveryRide (s : Search) (k : Nat) (p : Progress) (r : RouteIndex) : Prop :=
  ∀ trip i j l a ready, s.Ride r trip i j l 0 a →
    (p.state.start (k - 1) l 0).minutes? = some ready →
      s.dir.NotBefore ready (s.boardMinutes trip (s.positionAt r i)) →
        (s.scanRoute k p r).KnowsArrival s.dir a.location a.level a.time

end Search

namespace TwoVehicles

/-- To the last stop, from the first one in ten minutes and from the second one in fifty. -/
def fromBoth (minutes : Nat) : Search :=
  { timetable := timetable 540
    query := { query with
      startTime := .instant (clock minutes)
      start := [⟨⟨0⟩, .clamp 10, 0⟩, ⟨⟨1⟩, .clamp 50, 0⟩]
      destination := [⟨⟨2⟩, .zero, 0⟩] }
    baseDay := serviceDay
    start := .ofMinutes minutes }

/-- Before the first round. -/
def seeded (minutes : Nat) : Progress := (fromBoth minutes).seed ((fromBoth minutes).prepare state)

lemma fits_seeded (minutes : Nat) : (seeded minutes).Fits (timetable 540).nbOfLocations 1 := by
  have hsize : (timetable 540).nbOfLocations = 3 := by cbv
  rw [hsize]
  exact Search.fits_seed _ _

lemma start_seeded {minutes : Nat} (h : minutes = 470 ∨ minutes = 480) (l : LocationIndex)
    (n : Int) (hn : ((seeded minutes).state.start 0 l 0).minutes? = some n) : 0 ≤ n ∧ n < 1440 := by
  have hsize : (timetable 540).nbOfLocations = 3 := by cbv
  have hl := ((fits_seeded minutes).state.lt_of_start (by rw [RelTime.isFeasible, hn]; rfl)).1
  rw [hsize] at hl
  have hall : ∀ l : Fin 3, ((((seeded minutes).state.start 0 ⟨l⟩ 0).minutes?).all fun n =>
      decide (0 ≤ n ∧ n < 1440)) = true := by
    rcases h with rfl | rfl <;> decide +kernel
  have hrange := hall ⟨l.val, hl⟩
  rw [hn, Option.all_some, decide_eq_true_eq] at hrange
  exact hrange

lemma oneDay {minutes : Nat} (h : minutes = 470 ∨ minutes = 480) :
    (fromBoth minutes).OneDay 1 ⟨0⟩ (seeded minutes).state := by
  refine ⟨rfl, start_seeded h, fun trip hruns => ?_⟩
  rcases trip_of_isActive (.inl rfl) hruns.active with rfl | rfl <;> rfl

/-- With the first vehicle from the second stop to the last one, where it is at ten. -/
def lateArrival : Arrival := ⟨⟨2⟩, 0, .ofMinutes 600⟩

lemma ride_firstTrip {minutes : Nat} (h : minutes = 470 ∨ minutes = 480) :
    (fromBoth minutes).Ride ⟨0⟩ firstTrip 1 2 ⟨1⟩ 0 lateArrival := by
  have hleave : ∀ i, 1 ≤ i → i < 2 → (fromBoth minutes).query.canLeave (timetable 540) ⟨0⟩
      ((fromBoth minutes).positionAt ⟨0⟩ i) = true := fun _ _ _ => rfl
  rcases h with rfl | rfl
  all_goals exact ⟨by cbv, ⟨⟨by cbv, by cbv⟩, by decide, ⟨⟨⟨1⟩, true, true⟩, by cbv, rfl, rfl⟩,
    hleave, .nil⟩, by decide +kernel, ⟨⟨⟨2⟩, true, true⟩, by cbv, rfl, rfl⟩, by cbv⟩

/-- Someone who is at the first stop at eight is in time for the first vehicle, which therefore is
aboard when the second one meets it. -/
theorem knowsArrival_firstTrip :
    ((fromBoth 470).scanRoute 1 (seeded 470) ⟨0⟩).KnowsArrival .forward ⟨2⟩ 0 (.ofMinutes 600) := by
  have hready : ((seeded 470).state.start 0 ⟨1⟩ 0).minutes? = some 520 := by cbv
  refine Search.knowsArrival_of_not_overshadows (s := fromBoth 470) (isBuilt (.inl rfl))
    (oneDay (.inl rfl)) (fits_seeded 470) (ride_firstTrip (.inl rfl)) hready (by decide +kernel) ?_
  rintro other ⟨⟨board, l, ready, hboarded, hready, _, hlate⟩, _, hlater⟩
  have hboard : board = 0 := by
    have := hboarded.goes_on
    omega
  subst hboard
  obtain ⟨stop, hstop, rfl, _⟩ := hboarded.begins
  have hfirst : (fromBoth 470).stopAt? ⟨0⟩ 0 = some ⟨⟨0⟩, true, true⟩ := by cbv
  have height : ((seeded 470).state.start 0 ⟨0⟩ 0).minutes? = some 480 := by cbv
  rw [hfirst] at hstop
  cases hstop
  rw [height] at hready
  cases hready
  exact hlate (by decide +kernel)

/-- Someone who is at the first stop ten minutes later only catches the second vehicle, which then
keeps out the first one at the second stop, although it reaches the last stop an hour later. -/
theorem not_knowsEveryRide_fromBoth : (timetable 540).IsBuilt ∧
    (fromBoth 480).Runs ⟨0⟩ firstTrip ∧ (fromBoth 480).Runs ⟨0⟩ secondTrip ∧
    (fromBoth 480).OneDay 1 ⟨0⟩ (seeded 480).state ∧
    (seeded 480).Fits (timetable 540).nbOfLocations 1 ∧
    ¬(fromBoth 480).KnowsEveryRide 1 (seeded 480) ⟨0⟩ := by
  refine ⟨isBuilt (.inl rfl), ⟨by cbv, by cbv⟩, ⟨by cbv, by cbv⟩, oneDay (.inr rfl),
    fits_seeded 480, fun h => ?_⟩
  have hknown := h firstTrip 1 2 ⟨1⟩ lateArrival 530 (ride_firstTrip (.inr rfl)) (by cbv)
    (by decide +kernel)
  have hnot : ¬((fromBoth 480).scanRoute 1 (seeded 480) ⟨0⟩).KnowsArrival .forward ⟨2⟩ 0
      (.ofMinutes 600) := by
    unfold Progress.KnowsArrival
    decide +kernel
  exact hnot hknown

end TwoVehicles

end JourneyPlanner
