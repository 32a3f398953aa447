import JourneyPlanner.Proofs.Search.Approaches

/-!
# Finding a ride again

The reconstruction looks for a ride that ends at an arrival, on the routes of its location. What it
finds is a ride, boarded by someone who could be ready, and it finds one when there is any.
-/

namespace JourneyPlanner

namespace Search

variable {s : Search} {r : RouteIndex} {l : LocationIndex} {st : SearchState} {trip : Trip}
  {a : Arrival} {first level level' target u v k board alight : Nat}

lemma isSome_viaAt?_iff : ((s.viaAt? v l).filter (·.stay == .zero)).isSome = true ↔
    ∃ via, s.viaAt? v l = some via ∧ via.stay = .zero := by
  rw [Option.isSome_iff_exists]
  simp only [Option.filter_eq_some_iff, beq_iff_eq]

lemma passVias_passes (s : Search) (l : LocationIndex) (target steps level : Nat) :
    s.PassesAt l level (s.passVias l target steps level) := by
  induction steps generalizing level with
  | zero => exact PassesAt.refl s l level
  | succ steps ih =>
    rw [passVias]
    split
    · rename_i h
      obtain ⟨hle, hall⟩ := ih (level + 1)
      refine ⟨by omega, fun x hx hlt => ?_⟩
      by_cases heq : x = level
      · rw [heq]
        exact isSome_viaAt?_iff.1 h.2
      · exact hall x (by omega) hlt
    · exact PassesAt.refl s l level

lemma passVias_le (h : level ≤ target) (steps : Nat) : s.passVias l target steps level ≤ target := by
  induction steps generalizing level with
  | zero => exact h
  | succ steps ih =>
    rw [passVias]
    split
    · exact ih (by omega)
    · exact h

lemma le_passVias {steps : Nat} (h : s.PassesAt l level v) (hv : v ≤ target)
    (hsteps : v ≤ level + steps) : v ≤ s.passVias l target steps level := by
  induction steps generalizing level with
  | zero => exact hsteps
  | succ steps ih =>
    rw [passVias]
    by_cases hlt : level < v
    · rw [if_pos ⟨by omega, isSome_viaAt?_iff.2 (h.2 level (Nat.le_refl _) hlt)⟩]
      exact ih ⟨by omega, fun x hx hxv => h.2 x (by omega) hxv⟩ (by omega)
    · have hle := (passVias_passes s l target (steps + 1) level).1
      rw [passVias] at hle
      omega

/-- The via level after a stop that is ridden through. -/
def passStop (s : Search) (r : RouteIndex) (target level step : Nat) : Nat :=
  match s.stopAt? r step with
  | some stop => s.passVias stop.location target (target - level) level
  | none => level

/-- The via level after `n` stops that are ridden through. -/
def passStops (s : Search) (r : RouteIndex) (first target level n : Nat) : Nat :=
  (List.range' first n).foldl (s.passStop r target) level

lemma passStops_succ (s : Search) (r : RouteIndex) (first target level n : Nat) :
    s.passStops r first target level (n + 1) =
      s.passStop r target (s.passStops r first target level n) (first + n) := by
  unfold passStops
  rw [List.range'_1_concat, List.foldl_append]
  rfl

lemma ridesThrough_iff : s.ridesThrough r board alight level target = true ↔
    s.passStops r (board + 1) target level (alight - (board + 1)) = target :=
  beq_iff_eq

lemma passStops_le (h : level ≤ target) (n : Nat) : s.passStops r first target level n ≤ target := by
  induction n with
  | zero => exact h
  | succ n ih =>
    rw [passStops_succ, passStop]
    split
    · exact passVias_le ih _
    · exact ih

lemma passesVias_passStops (level target n : Nat) (h : first + n ≤ s.nbOfStops r) :
    s.PassesVias r first level (first + n) (s.passStops r first target level n) := by
  induction n with
  | zero => exact .nil
  | succ n ih =>
    obtain ⟨stop, hstop⟩ := exists_stopAt? (s := s) (r := r) (i := first + n) (by omega)
    rw [passStops_succ, passStop, hstop]
    exact .snoc (ih (by omega)) hstop (passVias_passes _ _ _ _ _)

lemma PassesVias.le {step : Nat} (h : s.PassesVias r first level step v) :
    first ≤ step ∧ level ≤ v := by
  induction h with
  | nil => exact ⟨Nat.le_refl _, Nat.le_refl _⟩
  | snoc _ _ hat ih =>
    have := hat.1
    omega

/-- No other way of passing the via stops comes further. -/
lemma le_passStops {step : Nat} (h : s.PassesVias r first level step v) (hv : v ≤ target) :
    v ≤ s.passStops r first target level (step - first) := by
  induction h with
  | nil =>
    rw [Nat.sub_self]
    exact Nat.le_refl _
  | snoc hbefore hstop hat ih =>
    rename_i step x v stop
    have hle := hbefore.le
    have hx := ih (Nat.le_trans hat.1 hv)
    have hsub : step + 1 - first = step - first + 1 := by omega
    have hstep : first + (step - first) = step := by omega
    rw [hsub, passStops_succ, hstep, passStop, hstop]
    dsimp only
    generalize s.passStops r first target level (step - first) = y at hx
    have hpasses := passVias_passes s stop.location target (target - y) y
    by_cases hyv : y < v
    · exact le_passVias ⟨by omega, fun z hz hzv => hat.2 z (by omega) hzv⟩ hv (by omega)
    · exact Nat.le_trans (Nat.le_of_not_lt hyv) hpasses.1

lemma passesVias_of_ridesThrough (hboard : board < alight) (halight : alight ≤ s.nbOfStops r)
    (h : s.ridesThrough r board alight level target = true) :
    s.PassesVias r (board + 1) level alight target := by
  have hpasses : s.PassesVias r (board + 1) level (board + 1 + (alight - (board + 1))) _ :=
    passesVias_passStops level target (alight - (board + 1)) (by omega)
  rw [ridesThrough_iff.1 h] at hpasses
  have heq : board + 1 + (alight - (board + 1)) = alight := by omega
  rw [heq] at hpasses
  exact hpasses

lemma ridesThrough_of_passesVias (h : s.PassesVias r (board + 1) level alight target) :
    s.ridesThrough r board alight level target = true := by
  have hlower := le_passStops h (Nat.le_refl _)
  have hupper : s.passStops r (board + 1) target level (alight - (board + 1)) ≤ target :=
    passStops_le h.le.2 _
  exact ridesThrough_iff.2 (Nat.le_antisymm hupper hlower)

lemma tripArriving?_sound {transport : TransportIndex} {position : Nat}
    (h : s.tripArriving? transport position a = some trip) :
    trip.transport = transport ∧ s.timetable.isActive transport trip.day = true ∧
      a.time = s.alightTime trip position := by
  unfold tripArriving? at h
  obtain ⟨time, htime, h⟩ := Option.bind_eq_some_iff.1 h
  dsimp only at h
  split at h
  · rename_i hmod
    obtain ⟨day, hday, h⟩ := Option.bind_eq_some_iff.1 h
    split at h
    · rename_i hactive
      cases h
      refine ⟨rfl, hactive, RelTime.ext ?_⟩
      have hrange := RelTime.range_of_minutes? htime
      have hsince := Day.daysSince_eq_of_shift? hday
      rw [alightTime_eq, RelTime.minutes?_ofMinutes, htime, alightMinutes]
      dsimp only
      rw [hsince]
      have hsum : (time - ((s.timetable.eventTime transport position
          s.dir.alightEvent).minutes : Int)) / 1440 * 1440 +
          ((s.timetable.eventTime transport position s.dir.alightEvent).minutes : Int) = time := by
        omega
      rw [hsum, if_pos hrange]
    · cases h
  · cases h

lemma tripArriving?_complete {position : Nat}
    (hactive : s.timetable.isActive trip.transport trip.day = true)
    (ha : a.time = s.alightTime trip position) (hf : a.time.isFeasible = true) :
    s.tripArriving? trip.transport position a = some trip := by
  have hminutes : a.time.minutes? = some (s.alightMinutes trip position) := by
    rw [ha, alightTime_eq] at hf ⊢
    exact RelTime.minutes?_of_isFeasible hf
  unfold tripArriving?
  rw [hminutes]
  dsimp only [Option.bind_eq_bind, Option.bind_some]
  unfold alightMinutes
  have hdiff : trip.day.daysSince s.baseDay * 1440 + ((s.timetable.eventTime trip.transport position
      s.dir.alightEvent).minutes : Int) - ((s.timetable.eventTime trip.transport position
      s.dir.alightEvent).minutes : Int) = trip.day.daysSince s.baseDay * 1440 := by omega
  rw [hdiff, if_pos (Int.mul_emod_left _ _), Int.mul_ediv_cancel _ (by decide),
    Day.shift?_daysSince, Option.bind_some, if_pos hactive]

/-- The leg of a ride. -/
def rideLeg (s : Search) (r : RouteIndex) (trip : Trip) (board alight : Nat) (l : LocationIndex)
    (a : Arrival) : SearchLeg :=
  let first := s.positionAt r board
  let last := s.positionAt r alight
  ⟨l, a.location, s.boardTime trip first, a.time, match s.dir with
    | .forward => .ride trip.transport trip.day first last
    | .backward => .ride trip.transport trip.day last first⟩

/-- A leg is that of a ride that brings someone who is ready at a time to an arrival. -/
def RidesBy (s : Search) (l : LocationIndex) (level : Nat) (t : RelTime) (a : Arrival)
    (leg : SearchLeg) : Prop :=
  ∃ r trip board alight, s.Ride r trip board alight l level a ∧ s.InTime r trip board t ∧
    leg = s.rideLeg r trip board alight l a

lemma mem_takeWhile_reverse_range {p : Nat → Bool} {n i : Nat} :
    i ∈ (List.range n).reverse.takeWhile p ↔ i < n ∧ ∀ j, i ≤ j → j < n → p j = true := by
  induction n with
  | zero => simp
  | succ n ih =>
    rw [List.range_succ, List.reverse_append, List.reverse_singleton, List.singleton_append,
      List.takeWhile_cons]
    by_cases hn : p n = true
    · rw [if_pos hn, List.mem_cons, ih]
      constructor
      · rintro (rfl | ⟨hi, hall⟩)
        · refine ⟨Nat.lt_succ_self _, fun j hle hlt => ?_⟩
          have hj : j = i := by omega
          rw [hj]
          exact hn
        · refine ⟨by omega, fun j hle hlt => ?_⟩
          by_cases hj : j = n
          · rw [hj]
            exact hn
          · exact hall j hle (by omega)
      · rintro ⟨hi, hall⟩
        by_cases heq : i = n
        · exact Or.inl heq
        · exact Or.inr ⟨by omega, fun j hle hlt => hall j hle (by omega)⟩
    · rw [if_neg hn]
      refine iff_of_false List.not_mem_nil fun h => hn (h.2 n (by omega) (Nat.lt_succ_self n))

lemma rideFrom?_sound {leg : SearchLeg} {approach : Approach} (hw : s.timetable.WellFormed)
    (h : s.rideFrom? st k a r trip alight board = some (leg, approach)) :
    ∃ stop level t, s.stopAt? r board = some stop ∧ stop.canStart s.dir = true ∧
      s.ridesThrough r board alight level a.level = true ∧
      st.Supports (k - 1) approach ∧ s.Readies approach stop.location level t ∧
      s.dir.cost t ≤ s.dir.cost (s.boardTime trip (s.positionAt r board)) ∧
      leg = s.rideLeg r trip board alight stop.location a := by
  unfold rideFrom? at h
  obtain ⟨stop, hstop, h⟩ := Option.bind_eq_some_iff.1 h
  obtain ⟨hstop, hstart⟩ := Option.filter_eq_some_iff.1 hstop
  obtain ⟨found, hfound, h⟩ := Option.bind_eq_some_iff.1 h
  obtain ⟨level, hlevel, happroach⟩ := List.exists_of_findSome?_eq_some hfound
  have hrides := (List.mem_filter.1 hlevel).2
  obtain ⟨hsupports, t, hready, hcost⟩ := approach?_sound hw happroach
  have hleg : leg = s.rideLeg r trip board alight stop.location a ∧ found = approach := by
    unfold rideLeg positionAt nbOfStops
    cases hdir : s.dir with
    | forward =>
      rw [hdir] at h
      cases h
      exact ⟨rfl, rfl⟩
    | backward =>
      rw [hdir] at h
      cases h
      exact ⟨rfl, rfl⟩
  obtain ⟨rfl, rfl⟩ := hleg
  exact ⟨stop, level, t, hstop, hstart, hrides, hsupports, hready, hcost, rfl⟩

lemma rideFrom?_complete {stop : RouteStop} {approach : Approach} {t : RelTime}
    (hw : s.timetable.WellFormed) (hstop : s.stopAt? r board = some stop)
    (hstart : stop.canStart s.dir = true) (hlevel : level ≤ a.level)
    (hrides : s.ridesThrough r board alight level a.level = true)
    (hsupports : st.Supports (k - 1) approach) (hready : s.Readies approach stop.location level t)
    (ht : s.dir.cost t ≤ s.dir.cost (s.boardTime trip (s.positionAt r board))) :
    (s.rideFrom? st k a r trip alight board).isSome = true := by
  have hget : (s.timetable.stops r)[s.dir.position (s.timetable.stops r).size board]? = some stop :=
    hstop
  have hfound : ((downFrom a.level).filter fun level =>
      s.ridesThrough r board alight level a.level).findSome? (fun level =>
        s.approach? st (k - 1) stop.location level
          (s.boardTime trip (s.dir.position (s.timetable.stops r).size board))) |>.isSome := by
    refine List.findSome?_isSome_iff.2 ⟨level, ?_, approach?_complete hw hsupports hready ht⟩
    exact List.mem_filter.2 ⟨mem_downFrom.2 hlevel, hrides⟩
  obtain ⟨found, hfound⟩ := Option.isSome_iff_exists.1 hfound
  unfold rideFrom?
  dsimp only
  rw [hget, Option.filter_some, if_pos hstart]
  dsimp only [Option.bind_eq_bind, Option.bind_some]
  rw [hfound]
  rfl

lemma mem_alightSteps : alight ∈ s.alightSteps r l ↔ 0 < alight ∧ alight < s.nbOfStops r ∧
    ∃ stop, s.stopAt? r alight = some stop ∧ stop.location = l ∧ stop.canFinish s.dir = true := by
  unfold alightSteps
  rw [List.mem_filter, List.mem_range'_1]
  have hstop : ((((s.timetable.stops r)[s.dir.position (s.timetable.stops r).size alight]?).map
      fun stop => stop.location == l && stop.canFinish s.dir).getD false) = true ↔
        ∃ stop, s.stopAt? r alight = some stop ∧ stop.location = l ∧
          stop.canFinish s.dir = true := by
    have hget : s.stopAt? r alight =
        (s.timetable.stops r)[s.dir.position (s.timetable.stops r).size alight]? := rfl
    rw [hget]
    cases (s.timetable.stops r)[s.dir.position (s.timetable.stops r).size alight]? with
    | none => simp
    | some stop => simp
  rw [hstop]
  unfold nbOfStops
  constructor
  · rintro ⟨h, hs⟩
    exact ⟨by omega, by omega, hs⟩
  · rintro ⟨h, h', hs⟩
    exact ⟨by omega, hs⟩

/-- What is found is a ride to the arrival, and a way to be ready for it that the round before
supports. -/
theorem rideInto?_sound {leg : SearchLeg} {approach : Approach} (hw : s.timetable.WellFormed)
    (h : s.rideInto? st k a = some (leg, approach)) :
    ∃ r trip board alight l level t, s.Ride r trip board alight l level a ∧
      st.Supports (k - 1) approach ∧ s.Readies approach l level t ∧
      s.dir.cost t ≤ s.dir.cost (s.boardTime trip (s.positionAt r board)) ∧
      leg = s.rideLeg r trip board alight l a := by
  unfold rideInto? at h
  obtain ⟨r, hr, h⟩ := List.exists_of_findSome?_eq_some h
  obtain ⟨alight, halight, h⟩ := List.exists_of_findSome?_eq_some h
  obtain ⟨transport, htransport, h⟩ := List.exists_of_findSome?_eq_some h
  have hadmits := (List.mem_filter.1 hr).2
  obtain ⟨_, halight_lt, hends⟩ := mem_alightSteps.1 halight
  unfold rideOn? at h
  obtain ⟨trip, htrip, hon⟩ := Option.bind_eq_some_iff.1 h
  obtain ⟨rfl, hactive, htime⟩ := tripArriving?_sound htrip
  obtain ⟨board, hboard, hfrom⟩ := List.exists_of_findSome?_eq_some hon
  obtain ⟨hlt, hcontinues⟩ := mem_takeWhile_reverse_range.1 hboard
  obtain ⟨stop, level, t, hstop, hstart, hrides, hsupports, hready, hcost, hleg⟩ :=
    rideFrom?_sound hw hfrom
  refine ⟨r, trip, board, alight, stop.location, level, t, ⟨hadmits, ?_, halight_lt, hends, htime⟩,
    hsupports, hready, hcost, hleg⟩
  exact ⟨⟨IndexRange.mem_toList.1 htransport, hactive⟩, hlt, ⟨stop, hstop, rfl, hstart⟩, hcontinues,
    passesVias_of_ridesThrough hlt (Nat.le_of_lt halight_lt) hrides⟩

/-- A ride is found when there is one that someone could board whom the round before supports. -/
theorem rideInto?_complete {approach : Approach} {t : RelTime} (hw : s.timetable.WellFormed)
    (hride : s.Ride r trip board alight l level a) (hf : a.time.isFeasible = true)
    (hsupports : st.Supports (k - 1) approach) (hready : s.Readies approach l level t)
    (ht : s.dir.cost t ≤ s.dir.cost (s.boardTime trip (s.positionAt r board))) :
    (s.rideInto? st k a).isSome = true := by
  obtain ⟨stop, hstop, rfl, hstart⟩ := hride.boarded.begins
  obtain ⟨last, hlast, hlocation, hfinish⟩ := hride.ends
  have hlt := hride.boarded.goes_on
  unfold rideInto?
  refine List.findSome?_isSome_iff.2 ⟨r, List.mem_filter.2 ⟨?_, hride.admitted⟩, ?_⟩
  · rw [← hlocation]
    exact hw.listed hlast
  refine List.findSome?_isSome_iff.2 ⟨alight, mem_alightSteps.2
    ⟨by omega, hride.alight_lt, last, hlast, hlocation, hfinish⟩, ?_⟩
  refine List.findSome?_isSome_iff.2 ⟨trip.transport,
    IndexRange.mem_toList.2 hride.boarded.runs.of_route, ?_⟩
  unfold rideOn?
  have htrip := tripArriving?_complete hride.boarded.runs.active hride.time_eq hf
  have hposition : s.dir.position (s.timetable.stops r).size alight = s.positionAt r alight := rfl
  dsimp only
  rw [hposition, htrip]
  dsimp only [Option.bind_eq_bind, Option.bind_some]
  refine List.findSome?_isSome_iff.2 ⟨board,
    mem_takeWhile_reverse_range.2 ⟨hlt, hride.boarded.continues⟩, ?_⟩
  exact rideFrom?_complete hw hstop hstart hride.boarded.passes.le.2
    (ridesThrough_of_passesVias hride.boarded.passes) hsupports hready ht

end Search

end JourneyPlanner
