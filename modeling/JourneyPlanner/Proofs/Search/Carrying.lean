import JourneyPlanner.Proofs.Search.Scanning
import JourneyPlanner.Search.Feasible

/-!
# Trips that never meet

A scan takes along one trip for each via level. When no two trips of a route ever meet, this is
enough: from where a trip can be caught until it is left, a trip is taken along that is no later
anywhere.
-/

namespace JourneyPlanner

open Progress (Scans)

namespace Search

variable {s : Search} {p : Progress} {k i u v : Nat} {r : RouteIndex} {l : LocationIndex}
  {trip other third : Trip} {aboard : Aboard}

/-- In search order, every event of a trip comes no later than that of another one. -/
def NoLater (s : Search) (r : RouteIndex) (trip other : Trip) : Prop :=
  ∀ row < s.timetable.nbOfEvents r,
    s.dir.sign (s.rowMinutes r trip row) ≤ s.dir.sign (s.rowMinutes r other row)

lemma NoLater.refl (s : Search) (r : RouteIndex) (trip : Trip) : s.NoLater r trip trip :=
  fun _ _ => Int.le_refl _

lemma NoLater.trans (h : s.NoLater r trip other) (h' : s.NoLater r other third) :
    s.NoLater r trip third :=
  fun row hrow => Int.le_trans (h row hrow) (h' row hrow)

lemma rowMinutes_eq (hw : s.timetable.WellFormed) (h : s.Runs r trip) (position : Nat)
    (event : StopEvent) : s.rowMinutes r trip (event.row position) =
      s.timetable.eventMinutes trip position event - s.baseDay.number * 1440 := by
  unfold rowMinutes Timetable.eventMinutes Timetable.eventTime Day.daysSince
  rw [hw.route_of h.of_route, Timetable.columnTime_eq_cell]
  omega

lemma rowMinutes_lt_of_isAhead (hw : s.timetable.WellFormed) (hruns : s.Runs r trip)
    (hruns' : s.Runs r other) (h : s.timetable.IsAhead trip other) {row : Nat}
    (hrow : row < s.timetable.nbOfEvents r) : s.rowMinutes r trip row < s.rowMinutes r other row := by
  have hlt : row / 2 + 1 < (s.timetable.stops (s.timetable.routeOf trip.transport)).size := by
    rw [hw.route_of hruns.of_route]
    unfold Timetable.nbOfEvents at hrow
    omega
  obtain ⟨hdeparture, harrival⟩ := h (row / 2) hlt
  -- the rows are departures and arrivals by turns
  rcases Nat.mod_two_eq_zero_or_one row with hmod | hmod
  · have heq : row = StopEvent.departure.row (row / 2) := by
      simp only [StopEvent.row]
      omega
    rw [heq, rowMinutes_eq hw hruns, rowMinutes_eq hw hruns']
    omega
  · have heq : row = StopEvent.arrival.row (row / 2 + 1) := by
      simp only [StopEvent.row]
      omega
    rw [heq, rowMinutes_eq hw hruns, rowMinutes_eq hw hruns']
    omega

/-- Of two trips that never meet, the one that comes first somewhere comes first everywhere. -/
lemma noLater_of_le (hw : s.timetable.WellFormed) (hordered : s.timetable.StrictlyOrdered)
    (hruns : s.Runs r trip) (hruns' : s.Runs r other) {row : Nat}
    (hrow : row < s.timetable.nbOfEvents r)
    (hle : s.dir.sign (s.rowMinutes r trip row) ≤ s.dir.sign (s.rowMinutes r other row)) :
    s.NoLater r trip other := by
  by_cases heq : trip = other
  · rw [heq]
    exact NoLater.refl s r other
  · have hroute := (hw.route_of hruns.of_route).trans (hw.route_of hruns'.of_route).symm
    intro row' hrow'
    rcases hordered trip other hruns.active hruns'.active hroute heq with h | h
    · have hlt := rowMinutes_lt_of_isAhead hw hruns hruns' h hrow
      have hlt' := rowMinutes_lt_of_isAhead hw hruns hruns' h hrow'
      cases hdir : s.dir <;> rw [hdir] at hle <;>
        simp only [Direction.sign_forward, Direction.sign_backward] at hle ⊢ <;> omega
    · have hlt := rowMinutes_lt_of_isAhead hw hruns' hruns h hrow
      have hlt' := rowMinutes_lt_of_isAhead hw hruns' hruns h hrow'
      cases hdir : s.dir <;> rw [hdir] at hle <;>
        simp only [Direction.sign_forward, Direction.sign_backward] at hle ⊢ <;> omega

/-- A trip of a route was boarded, in a step or before it, by someone who was ready. -/
def TakenBy (s : Search) (r : RouteIndex) (i : Nat) (trip : Trip) : Prop :=
  s.Runs r trip ∧ ∃ (t : RelTime) (board : Nat), board ≤ i ∧ t.isFeasible = true ∧
    s.dir.cost t ≤ s.dir.sign (s.rowMinutes r trip (s.boardRow r board))

lemma TakenBy.mono {j : Nat} (h : s.TakenBy r i trip) (hij : i ≤ j) : s.TakenBy r j trip := by
  obtain ⟨hruns, t, board, hle, hready⟩ := h
  exact ⟨hruns, t, board, Nat.le_trans hle hij, hready⟩

/-- An event of a trip aboard is at a finite time, when it comes no later than one that is. -/
lemma TakenBy.isFeasible (hw : s.timetable.WellFormed) (h : s.TakenBy r i trip)
    (hi : i + 1 < s.nbOfStops r) (hle : s.NoLater r trip other) {row : Nat}
    (hrow : row < s.timetable.nbOfEvents r) (hafter : s.rowLe (s.boardRow r i) row)
    (hf : (RelTime.ofMinutes (s.rowMinutes r other row)).isFeasible = true) :
    (RelTime.ofMinutes (s.rowMinutes r trip row)).isFeasible = true := by
  obtain ⟨hruns, t, board, hboard, ht, hcost⟩ := h
  have hfirst := rowMinutes_mono hw hruns (boardRow_lt (by omega)) (boardRow_lt hi)
    (boardRow_le_boardRow hboard)
  have hmono := rowMinutes_mono hw hruns (boardRow_lt hi) hrow hafter
  exact Direction.isFeasible_between ht (by omega) (hle row hrow) hf

/-- The trips taken along when a step is over. -/
structure Crew (s : Search) (r : RouteIndex) (i : Nat) (aboard : Aboard) : Prop where
  length_eq : aboard.length = s.levels
  taken : ∀ v trip, aboard.trip? v = some trip → s.TakenBy r i trip

/-- A trip is taken along that is no later than a given one. -/
def Carries (s : Search) (r : RouteIndex) (aboard : Aboard) (v : Nat) (trip : Trip) : Prop :=
  ∃ other, aboard.trip? v = some other ∧ s.NoLater r other trip

lemma length_rideThrough (s : Search) (position : Nat) (l : LocationIndex) (aboard : Aboard)
    (level : Nat) : (s.rideThrough position l aboard level).length = aboard.length := by
  unfold rideThrough
  split
  · split
    · exact List.length_set
    · split
      · exact List.length_set
      · rfl
  · rfl

lemma Crew.rideThrough (h : s.Crew r i aboard) (position : Nat) (l : LocationIndex)
    (level : Nat) : s.Crew r i (s.rideThrough position l aboard level) := by
  refine ⟨(length_rideThrough _ _ _ _ _).trans h.length_eq, fun v trip hv => ?_⟩
  obtain ⟨u, hu, _⟩ := rode_rideThrough (fun v trip hv => ⟨v, hv, PassesAt.refl s l v⟩) v trip hv
  exact h.taken u trip hu

section Riding

variable (hw : s.timetable.WellFormed) (hordered : s.timetable.StrictlyOrdered)
include hw hordered

/-- A trip of a crew that is left no later than another one is no later anywhere. -/
lemma Crew.noLater_of_cost_le (h : s.Crew r i aboard) (hi : i + 1 < s.nbOfStops r)
    (htrip : aboard.trip? u = some trip) (hother : aboard.trip? v = some other)
    (hle : s.NoLater r other third)
    (hf : (s.alightTime third (s.positionAt r (i + 1))).isFeasible = true)
    (hruns : s.Runs r third)
    (hcost : s.dir.cost (s.alightTime trip (s.positionAt r (i + 1))) ≤
      s.dir.cost (s.alightTime other (s.positionAt r (i + 1)))) : s.NoLater r trip third := by
  have htaken := h.taken u trip htrip
  have htaken' := h.taken v other hother
  have hrow := alightRow_lt (s := s) (r := r) (Nat.succ_pos i) hi
  rw [alightTime_eq, alightMinutes_eq hw hruns] at hf
  have hfeasible := htaken'.isFeasible hw hi hle hrow
    (boardRow_le_alightRow (Nat.lt_succ_self i) hi) hf
  rw [alightTime_eq, alightTime_eq, alightMinutes_eq hw htaken.1, alightMinutes_eq hw htaken'.1]
    at hcost
  have hfeasible' := Direction.isFeasible_of_le hcost hfeasible
  rw [Direction.cost_ofMinutes hfeasible, Direction.cost_ofMinutes hfeasible'] at hcost
  exact (noLater_of_le hw hordered htaken.1 htaken'.1 hrow hcost).trans hle

lemma Carries.rideThrough (hcrew : s.Crew r i aboard) (hi : i + 1 < s.nbOfStops r)
    (hruns : s.Runs r trip)
    (hf : (s.alightTime trip (s.positionAt r (i + 1))).isFeasible = true)
    (h : s.Carries r aboard u trip) (l : LocationIndex) (level : Nat) :
    s.Carries r (s.rideThrough (s.positionAt r (i + 1)) l aboard level) u trip := by
  obtain ⟨current, hcurrent, hle⟩ := h
  unfold Search.rideThrough
  split
  · rename_i rider _ hrider
    split
    · rename_i hnone
      refine ⟨current, ?_, hle⟩
      rw [Aboard.trip?_set, if_neg]
      · exact hcurrent
      · rintro ⟨rfl, _⟩
        rw [hnone] at hcurrent
        cases hcurrent
    · rename_i old hold
      split
      · rename_i hbetter
        by_cases hu : level + 1 = u
        · subst hu
          rw [hold] at hcurrent
          rw [← Option.some.inj hcurrent] at hle
          have hcost := Int.le_of_lt (Direction.isBetter_iff.1 hbetter)
          have hnew := hcrew.noLater_of_cost_le hw hordered hi hrider hold hle hf hruns hcost
          rw [Carries, Aboard.trip?_set]
          split
          · exact ⟨rider, rfl, hnew⟩
          · exact ⟨old, hold, hle⟩
        · refine ⟨current, ?_, hle⟩
          rw [Aboard.trip?_set, if_neg fun h => hu h.1]
          exact hcurrent
      · exact ⟨current, hcurrent, hle⟩
  · exact ⟨current, hcurrent, hle⟩

/-- A trip that rides through a via stop without a stay is taken along at the next level. -/
lemma Carries.rideThrough_next (hcrew : s.Crew r i aboard) (hi : i + 1 < s.nbOfStops r)
    (hruns : s.Runs r trip)
    (hf : (s.alightTime trip (s.positionAt r (i + 1))).isFeasible = true)
    (h : s.Carries r aboard v trip) {via : ViaStop} (hvia : s.viaAt? v l = some via)
    (hstay : via.stay = .zero) (hv : v + 1 < s.levels) :
    s.Carries r (s.rideThrough (s.positionAt r (i + 1)) l aboard v) (v + 1) trip := by
  obtain ⟨current, hcurrent, hle⟩ := h
  have hset : s.Carries r (aboard.set (v + 1) (some current)) (v + 1) trip := by
    refine ⟨current, ?_, hle⟩
    rw [Aboard.trip?_set, if_pos ⟨rfl, by rw [hcrew.length_eq]; exact hv⟩]
  have hzero : (via.stay == Duration.zero) = true := beq_iff_eq.2 hstay
  unfold Search.rideThrough
  rw [hvia, Option.filter_some, if_pos hzero, hcurrent]
  dsimp only
  split
  · exact hset
  · rename_i old hold
    split
    · exact hset
    · rename_i hbetter
      have hcost := Direction.isBetter_false_iff.1 hbetter
      exact ⟨old, hold, hcrew.noLater_of_cost_le hw hordered hi hold hcurrent hle hf hruns hcost⟩

/-- Someone who rides on a trip through a stop, and there comes to another level, is carried on. -/
lemma carries_rideThroughs (hcrew : s.Crew r i aboard) (hi : i + 1 < s.nbOfStops r)
    (hruns : s.Runs r trip)
    (hf : (s.alightTime trip (s.positionAt r (i + 1))).isFeasible = true)
    (h : s.Carries r aboard v trip) (hpasses : s.PassesAt l v u) (hu : u < s.levels) :
    s.Crew r i ((List.range (s.levels - 1)).foldl
      (s.rideThrough (s.positionAt r (i + 1)) l) aboard) ∧
    s.Carries r ((List.range (s.levels - 1)).foldl
      (s.rideThrough (s.positionAt r (i + 1)) l) aboard) u trip := by
  -- after the first `n` levels, every level up to the next one is reached
  have hall : ∀ n ≤ s.levels - 1,
      s.Crew r i ((List.range n).foldl (s.rideThrough (s.positionAt r (i + 1)) l) aboard) ∧
      ∀ x, v ≤ x → x ≤ u → x ≤ max v n → s.Carries r
        ((List.range n).foldl (s.rideThrough (s.positionAt r (i + 1)) l) aboard) x trip := by
    intro n
    induction n with
    | zero =>
      intro _
      refine ⟨hcrew, fun x hvx _ hx => ?_⟩
      have heq : x = v := by omega
      rw [heq]
      exact h
    | succ n ih =>
      intro hn
      obtain ⟨hcrew', hcarries⟩ := ih (by omega)
      rw [List.range_succ, List.foldl_append, List.foldl_cons, List.foldl_nil]
      refine ⟨hcrew'.rideThrough _ _ _, fun x hvx hxu hx => ?_⟩
      by_cases hmax : x ≤ max v n
      · exact (hcarries x hvx hxu hmax).rideThrough hw hordered hcrew' hi hruns hf l n
      · have heq : x = n + 1 := by omega
        subst heq
        obtain ⟨via, hvia, hstay⟩ := hpasses.2 n (by omega) (by omega)
        exact (hcarries n (by omega) (by omega) (by omega)).rideThrough_next hw hordered hcrew' hi
          hruns hf hvia hstay (by omega)
  have hlast := hall (s.levels - 1) (Nat.le_refl _)
  exact ⟨hlast.1, hlast.2 u hpasses.1 (Nat.le_refl u) (by omega)⟩

/-- A trip that is boarded no later than another one is no later anywhere. -/
lemma noLater_of_boardTime (hi : i + 1 < s.nbOfStops r) (hruns : s.Runs r trip)
    (hruns' : s.Runs r other)
    (hf : (s.boardTime other (s.positionAt r i)).isFeasible = true)
    (hcost : s.dir.cost (s.boardTime trip (s.positionAt r i)) ≤
      s.dir.cost (s.boardTime other (s.positionAt r i))) : s.NoLater r trip other := by
  have hf' := Direction.isFeasible_of_le hcost hf
  rw [boardTime_eq, boardMinutes_eq hw hruns] at hcost hf'
  rw [boardTime_eq, boardMinutes_eq hw hruns'] at hcost hf
  rw [Direction.cost_ofMinutes hf, Direction.cost_ofMinutes hf'] at hcost
  exact noLater_of_le hw hordered hruns hruns' (boardRow_lt hi) hcost

omit hordered in
lemma takenBy_of_firstTrip? (hi : i + 1 < s.nbOfStops r) {ready t : RelTime}
    (hready : ready.isFeasible = true)
    (h : s.firstTrip? r (s.positionAt r i) ready = some (trip, t)) :
    s.TakenBy r i trip ∧ t = s.boardTime trip (s.positionAt r i) := by
  obtain ⟨minutes, hminutes, hcatches, htime⟩ := firstTrip?_sound hw (boardRow_lt hi) h
  have hruns : s.Runs r trip := hcatches.runs
  refine ⟨⟨hruns, ready, i, Nat.le_refl i, hready, ?_⟩, htime⟩
  rw [← boardMinutes_eq hw hruns, Direction.cost_of_minutes? hminutes]
  exact Direction.notBefore_iff.1 hcatches.in_time

omit hordered in
lemma Crew.boardTrip (hcrew : s.Crew r i aboard) (hi : i + 1 < s.nbOfStops r) (k : Nat)
    (l : LocationIndex) (st : SearchState) (level : Nat) :
    s.Crew r i (s.boardTrip k r (s.positionAt r i) l st aboard level) := by
  unfold Search.boardTrip
  dsimp only
  split
  · rename_i hready
    refine ⟨List.length_set.trans hcrew.length_eq, fun v trip hv => ?_⟩
    rw [Aboard.trip?_set] at hv
    split at hv
    · rcases exchange_cases hv with hold | ⟨t, hfirst⟩
      · exact hcrew.taken level trip hold
      · exact (takenBy_of_firstTrip? hw hi hready hfirst).1
    · exact hcrew.taken v trip hv
  · exact hcrew

/-- A trip is only exchanged for one that is no later. -/
lemma exchange_noLater (hi : i + 1 < s.nbOfStops r) {ready : RelTime}
    (hready : ready.isFeasible = true) (htaken : s.TakenBy r i trip)
    (hle : s.NoLater r trip other) (hruns : s.Runs r other)
    (hf : (s.boardTime other (s.positionAt r i)).isFeasible = true) :
    ∃ taken, s.exchange r (s.positionAt r i) ready (some trip) = some taken ∧
      s.NoLater r taken other := by
  rw [boardTime_eq, boardMinutes_eq hw hruns] at hf
  have hboard := htaken.isFeasible hw hi hle (boardRow_lt hi)
    (boardRow_le_boardRow (Nat.le_refl i)) hf
  rw [← boardMinutes_eq hw htaken.1, ← boardTime_eq] at hboard
  rcases s.exchange_some r (s.positionAt r i) ready trip with
    ⟨new, t, hfirst, hbetter, hnew⟩ | ⟨hkept, _⟩
  · obtain ⟨htaken', rfl⟩ := takenBy_of_firstTrip? hw hi hready hfirst
    have hcost := Int.le_of_lt (Direction.isBetter_iff.1 hbetter)
    exact ⟨new, hnew,
      (noLater_of_boardTime hw hordered hi htaken'.1 htaken.1 hboard hcost).trans hle⟩
  · exact ⟨trip, hkept, hle⟩

/-- Where a trip can be caught, one is taken that is no later. -/
lemma exchange_catches (hi : i + 1 < s.nbOfStops r) {ready : RelTime} {minutes : Int}
    (hready : ready.minutes? = some minutes)
    (hcatches : s.Catches r (s.positionAt r i) minutes trip)
    (hf : (s.boardTime trip (s.positionAt r i)).isFeasible = true) {current : Option Trip}
    (hcurrent : ∀ x, current = some x → s.TakenBy r i x) :
    ∃ taken, s.exchange r (s.positionAt r i) ready current = some taken ∧
      s.NoLater r taken trip := by
  have hfeasible : ready.isFeasible = true := by
    rw [RelTime.isFeasible, hready]
    rfl
  have hruns : s.Runs r trip := hcatches.runs
  obtain ⟨taken, htaken, hbest | ⟨hold, hcost⟩⟩ := exists_exchange hw (boardRow_lt hi) hready hcatches
    (Direction.cost_ofMinutes hf) current
  · obtain ⟨t, hfirst, hcost⟩ := hbest
    obtain ⟨hcrew, rfl⟩ := takenBy_of_firstTrip? hw hi hfeasible hfirst
    exact ⟨taken, htaken, noLater_of_boardTime hw hordered hi hcrew.1 hruns hf hcost⟩
  · exact ⟨taken, htaken,
      noLater_of_boardTime hw hordered hi (hcurrent taken hold).1 hruns hf hcost⟩

lemma Carries.boardTrip (hcrew : s.Crew r i aboard) (hi : i + 1 < s.nbOfStops r)
    (hruns : s.Runs r trip) (hf : (s.boardTime trip (s.positionAt r i)).isFeasible = true)
    (h : s.Carries r aboard u trip) (k : Nat) (l : LocationIndex) (st : SearchState)
    (level : Nat) : s.Carries r (s.boardTrip k r (s.positionAt r i) l st aboard level) u trip := by
  obtain ⟨current, hcurrent, hle⟩ := h
  unfold Search.boardTrip
  dsimp only
  split
  · rename_i hready
    rw [Carries, Aboard.trip?_set]
    split
    · rename_i hlevel
      obtain ⟨rfl, _⟩ := hlevel
      rw [hcurrent]
      exact exchange_noLater hw hordered hi hready (hcrew.taken level current hcurrent) hle hruns hf
    · exact ⟨current, hcurrent, hle⟩
  · exact ⟨current, hcurrent, hle⟩

lemma carries_boardTrip (hcrew : s.Crew r i aboard) (hi : i + 1 < s.nbOfStops r)
    {st : SearchState} {minutes : Int} (hready : (st.start (k - 1) l v).minutes? = some minutes)
    (hcatches : s.Catches r (s.positionAt r i) minutes trip)
    (hf : (s.boardTime trip (s.positionAt r i)).isFeasible = true) (hv : v < s.levels) :
    s.Carries r (s.boardTrip k r (s.positionAt r i) l st aboard v) v trip := by
  have hfeasible : (st.start (k - 1) l v).isFeasible = true := by
    rw [RelTime.isFeasible, hready]
    rfl
  unfold Search.boardTrip
  dsimp only
  rw [if_pos hfeasible, Carries, Aboard.trip?_set, if_pos ⟨rfl, by rw [hcrew.length_eq]; exact hv⟩]
  exact exchange_catches hw hordered hi hready hcatches hf (hcrew.taken v)

omit hordered in
lemma crew_boardTrips (hcrew : s.Crew r i aboard) (hi : i + 1 < s.nbOfStops r) (k : Nat)
    (l : LocationIndex) (st : SearchState) (levels : List Nat) :
    s.Crew r i (levels.foldl (s.boardTrip k r (s.positionAt r i) l st) aboard) :=
  List.foldlRecOn levels _ hcrew fun _ h level _ => h.boardTrip hw hi k l st level

lemma Carries.boardTrips (hcrew : s.Crew r i aboard) (hi : i + 1 < s.nbOfStops r)
    (hruns : s.Runs r trip) (hf : (s.boardTime trip (s.positionAt r i)).isFeasible = true)
    (h : s.Carries r aboard u trip) (k : Nat) (l : LocationIndex) (st : SearchState)
    (levels : List Nat) :
    s.Carries r (levels.foldl (s.boardTrip k r (s.positionAt r i) l st) aboard) u trip := by
  have hboth := List.foldlRecOn (motive := fun after : Aboard => s.Crew r i after ∧
    s.Carries r after u trip) levels (s.boardTrip k r (s.positionAt r i) l st) ⟨hcrew, h⟩ ?_
  · exact hboth.2
  · rintro after ⟨hafter, hcarries⟩ level _
    exact ⟨hafter.boardTrip hw hi k l st level,
      hcarries.boardTrip hw hordered hafter hi hruns hf k l st level⟩

lemma carries_boardTrips (hcrew : s.Crew r i aboard) (hi : i + 1 < s.nbOfStops r)
    {st : SearchState} {minutes : Int} (hready : (st.start (k - 1) l v).minutes? = some minutes)
    (hcatches : s.Catches r (s.positionAt r i) minutes trip)
    (hf : (s.boardTime trip (s.positionAt r i)).isFeasible = true) (hv : v < s.levels) :
    s.Carries r ((List.range s.levels).foldl
      (s.boardTrip k r (s.positionAt r i) l st) aboard) v trip := by
  obtain ⟨before, after, hsplit⟩ := List.append_of_mem (List.mem_range.2 hv)
  rw [hsplit, List.foldl_append, List.foldl_cons]
  have hcrew' := crew_boardTrips hw hcrew hi k l st before
  exact (carries_boardTrip hw hordered hcrew' hi hready hcatches hf hv).boardTrips hw hordered
    (hcrew'.boardTrip hw hi k l st v) hi hcatches.runs hf k l st after

end Riding

end Search

end JourneyPlanner
