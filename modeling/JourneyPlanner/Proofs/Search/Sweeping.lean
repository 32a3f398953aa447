import JourneyPlanner.Proofs.Search.Carrying
import JourneyPlanner.Proofs.Search.Reconstruction

/-!
# A scan misses no ride

When no two trips of a route ever meet, whoever can catch a trip is brought by the scan of its route
wherever that trip goes, and no later.
-/

namespace JourneyPlanner

open Progress (Scans)

namespace Search

variable {s : Search} {p : Progress} {k i j u v : Nat} {r : RouteIndex} {l : LocationIndex}
  {trip : Trip} {aboard : Aboard} {stop : RouteStop} {st : SearchState} {a : Arrival}

lemma lt_levels_of_viaAt? {via : ViaStop} (h : s.viaAt? v l = some via) : v + 1 < s.levels := by
  obtain ⟨hget, _⟩ := Option.filter_eq_some_iff.1 h
  obtain ⟨hlt, _⟩ := List.getElem?_eq_some_iff.1 hget
  have hlength : s.query.searchVias.length = s.query.vias.length := by
    unfold Query.searchVias
    split
    · rfl
    · exact List.length_reverse
  unfold levels Query.levels
  omega

lemma PassesAt.lt_levels (h : s.PassesAt l u v) (hu : u < s.levels) : v < s.levels := by
  by_cases huv : u = v
  · rw [← huv]
    exact hu
  · obtain ⟨hle, hvias⟩ := h
    obtain ⟨via, hvia, _⟩ := hvias (v - 1) (by omega) (by omega)
    have hlt := lt_levels_of_viaAt? hvia
    omega

lemma PassesVias.lt_levels {first level step : Nat} (h : s.PassesVias r first level step v)
    (hlevel : level < s.levels) : v < s.levels := by
  induction h with
  | nil => exact hlevel
  | snoc _ _ hat ih => exact hat.lt_levels ih

lemma crew_empty (s : Search) (r : RouteIndex) (i : Nat) : s.Crew r i (.empty s.levels) := by
  refine ⟨List.length_replicate, fun v trip hv => ?_⟩
  rw [Aboard.trip?_empty] at hv
  cases hv

lemma Crew.mono (h : s.Crew r i aboard) (hij : i ≤ j) : s.Crew r j aboard :=
  ⟨h.length_eq, fun v trip hv => (h.taken v trip hv).mono hij⟩

lemma crew_rode (h : s.Crew r i aboard) (step position : Nat) (l : LocationIndex) :
    s.Crew r i (if step = 0 then aboard
      else (List.range (s.levels - 1)).foldl (s.rideThrough position l) aboard) := by
  split
  · exact h
  · exact List.foldlRecOn _ _ h fun _ h level _ => h.rideThrough position l level

lemma crew_aboardAfter (hw : s.timetable.WellFormed) (h : s.Crew r i aboard)
    (hi : i + 1 < s.nbOfStops r) (k : Nat) (stop : RouteStop) (st : SearchState) :
    s.Crew r i (s.aboardAfter k r stop st i aboard) := by
  unfold aboardAfter
  rw [if_neg (by omega)]
  split
  · exact crew_empty s r i
  · dsimp only
    split
    · exact crew_rode h i _ _
    · exact crew_boardTrips hw (crew_rode h i _ _) hi k _ st _

lemma crew_scanned (hw : s.timetable.WellFormed) (k : Nat) (r : RouteIndex) (p : Progress)
    (hi : i < s.nbOfStops r) : s.Crew r (i - 1) (s.scanned k r p i).aboard := by
  induction i with
  | zero => exact crew_empty s r 0
  | succ i ih =>
    obtain ⟨stop, hstop⟩ := exists_stopAt? (s := s) (r := r) (i := i) (by omega)
    obtain ⟨q, _, heq⟩ := scanStop_eq hstop k (s.scanned k r p i)
    rw [scanned_succ, heq]
    exact crew_aboardAfter hw ((ih (by omega)).mono (Nat.sub_le i 1)) hi k stop q.state

lemma Boarded.isFeasible (hw : s.timetable.WellFormed) {level : Nat} {t : RelTime}
    (h : s.Boarded r trip i l level j v) (hj : j < s.nbOfStops r) (ht : t.isFeasible = true)
    (hready : s.dir.cost t ≤ s.dir.sign (s.rowMinutes r trip (s.boardRow r i)))
    (hf : (s.alightTime trip (s.positionAt r j)).isFeasible = true) (row : Nat)
    (hrow : row < s.timetable.nbOfEvents r) (hfirst : s.rowLe (s.boardRow r i) row)
    (hlast : s.rowLe row (s.alightRow r j)) :
    (RelTime.ofMinutes (s.rowMinutes r trip row)).isFeasible = true := by
  have hij := h.goes_on
  have hrow' := alightRow_lt (s := s) (r := r) (by omega : 0 < j) hj
  have hafter := rowMinutes_mono hw h.runs (boardRow_lt (by omega)) hrow hfirst
  have hbefore := rowMinutes_mono hw h.runs hrow hrow' hlast
  rw [alightTime_eq, alightMinutes_eq hw h.runs] at hf
  exact Direction.isFeasible_between ht (Int.le_trans hready hafter) hbefore hf

section Meeting

variable (hw : s.timetable.WellFormed) (hordered : s.timetable.StrictlyOrdered)
include hw hordered

/-- Someone who is carried to a stop, and rides on, is carried to the next one. -/
lemma Carries.aboardAfter (hcrew : s.Crew r i aboard) (hi : i + 2 < s.nbOfStops r)
    (hruns : s.Runs r trip)
    (halight : (s.alightTime trip (s.positionAt r (i + 1))).isFeasible = true)
    (hboard : (s.boardTime trip (s.positionAt r (i + 1))).isFeasible = true)
    (hleave : s.query.canLeave s.timetable r (s.positionAt r (i + 1)) = true)
    (h : s.Carries r aboard v trip) (hpasses : s.PassesAt stop.location v u) (hu : u < s.levels)
    (k : Nat) (st : SearchState) :
    s.Carries r (s.aboardAfter k r stop st (i + 1) aboard) u trip := by
  obtain ⟨hcrew', hcarries⟩ :=
    carries_rideThroughs hw hordered hcrew (by omega) hruns halight h hpasses hu
  unfold Search.aboardAfter
  rw [if_neg (by omega), if_neg (by rw [hleave]; decide), if_neg (Nat.succ_ne_zero i)]
  dsimp only
  split
  · exact hcarries
  · exact hcarries.boardTrips hw hordered (hcrew'.mono (Nat.le_succ i)) hi hruns hboard k _ st _

/-- Someone who can catch a trip at a stop is carried to the next one. -/
lemma carries_aboardAfter (hcrew : s.Crew r i aboard) (hi : i + 1 < s.nbOfStops r)
    (hleave : s.query.canLeave s.timetable r (s.positionAt r i) = true)
    (hstart : stop.canStart s.dir = true) {minutes : Int}
    (hready : (st.start (k - 1) stop.location v).minutes? = some minutes)
    (hcatches : s.Catches r (s.positionAt r i) minutes trip)
    (hboard : (s.boardTime trip (s.positionAt r i)).isFeasible = true) (hv : v < s.levels) :
    s.Carries r (s.aboardAfter k r stop st i aboard) v trip := by
  unfold Search.aboardAfter
  rw [if_neg (by omega), if_neg (by rw [hleave]; decide)]
  dsimp only
  rw [if_neg (by rw [hstart]; decide)]
  exact carries_boardTrips hw hordered (crew_rode hcrew i _ _) hi hready hcatches hboard hv

/-- Someone who can catch a trip is carried through every stop that it rides through. -/
lemma Boarded.carries {m x : Nat} {minutes : Int}
    (hready : (p.state.start (k - 1) l v).minutes? = some minutes)
    (hcatches : s.Catches r (s.positionAt r i) minutes trip)
    (h : s.Boarded r trip i l v j u) (hj : j < s.nbOfStops r)
    (hf : (s.alightTime trip (s.positionAt r j)).isFeasible = true) (hv : v < s.levels)
    (hpasses : s.PassesVias r (i + 1) v m x) (hm : m ≤ j) :
    s.Carries r (s.scanned k r p m).aboard x trip := by
  have hfeasible : (p.state.start (k - 1) l v).isFeasible = true := by
    rw [RelTime.isFeasible, hready]
    rfl
  have hcost : s.dir.cost (p.state.start (k - 1) l v) ≤
      s.dir.sign (s.rowMinutes r trip (s.boardRow r i)) := by
    rw [Direction.cost_of_minutes? hready, ← boardMinutes_eq hw h.runs]
    exact Direction.notBefore_iff.1 hcatches.in_time
  have hevents := h.isFeasible hw hj hfeasible hcost hf
  have hboard : ∀ y, i ≤ y → y < j → (s.boardTime trip (s.positionAt r y)).isFeasible = true := by
    intro y hiy hyj
    rw [boardTime_eq, boardMinutes_eq hw h.runs]
    exact hevents _ (boardRow_lt (by omega)) (boardRow_le_boardRow hiy) (boardRow_le_alightRow hyj hj)
  have halight : ∀ y, i < y → y < j → (s.alightTime trip (s.positionAt r y)).isFeasible = true := by
    intro y hiy hyj
    rw [alightTime_eq, alightMinutes_eq hw h.runs]
    exact hevents _ (alightRow_lt (by omega) (by omega)) (boardRow_le_alightRow hiy (by omega))
      (alightRow_le_alightRow (by omega))
  induction hpasses with
  | nil =>
    obtain ⟨stop, hstop, rfl, hstart⟩ := h.begins
    obtain ⟨q, _, heq⟩ := scanStop_eq hstop k (s.scanned k r p i)
    have hscans := scans_scanned s k r p (i + 1)
    rw [scanned_succ, heq] at hscans ⊢
    rw [← hscans.start_eq] at hready
    exact carries_aboardAfter hw hordered ((crew_scanned hw k r p (by omega)).mono (Nat.sub_le i 1))
      (by omega) (h.continues i (Nat.le_refl i) h.goes_on) hstart hready hcatches
      (hboard i (Nat.le_refl i) h.goes_on) hv
  | snoc hbefore hstop hat ih =>
    rename_i step y x stop
    have hle := hbefore.le
    obtain ⟨m, rfl⟩ : ∃ m, step = m + 1 := ⟨step - 1, by omega⟩
    obtain ⟨q, _, heq⟩ := scanStop_eq hstop k (s.scanned k r p (m + 1))
    rw [scanned_succ, heq]
    have hm' : m + 1 < s.nbOfStops r := by omega
    have hcrew : s.Crew r m (s.scanned k r p (m + 1)).aboard := crew_scanned hw k r p hm'
    have hcarries : s.Carries r (s.scanned k r p (m + 1)).aboard y trip := ih (by omega)
    have hleave := h.continues (m + 1) (by omega) (by omega)
    have halight' := halight (m + 1) (by omega) (by omega)
    have hboard' := hboard (m + 1) (by omega) (by omega)
    have hlevel := hat.lt_levels (hbefore.lt_levels hv)
    exact hcarries.aboardAfter hw hordered hcrew (by omega) h.runs halight' hboard' hleave hat hlevel
      k q.state

omit hordered in
/-- When the trips are left, the arrival of a trip is known whenever a trip is aboard that is no
later. -/
lemma knowsArrival_leaveTrips {scan : Scan} {locations : Nat}
    (hfits : scan.progress.Fits locations s.levels) (hl : l.val < locations) (hv : v < s.levels)
    (hcrew : s.Crew r i scan.aboard) (hi : i + 1 < s.nbOfStops r) (hruns : s.Runs r trip)
    (hf : (s.alightTime trip (s.positionAt r (i + 1))).isFeasible = true)
    (h : s.Carries r scan.aboard v trip) :
    (s.leaveTrips (s.positionAt r (i + 1)) l scan).progress.KnowsArrival s.dir l v
      (s.alightTime trip (s.positionAt r (i + 1))) := by
  obtain ⟨current, hcurrent, hle⟩ := h
  have htaken := hcrew.taken v current hcurrent
  have hrow := alightRow_lt (s := s) (r := r) (Nat.succ_pos i) hi
  have hcost : s.dir.cost (s.alightTime current (s.positionAt r (i + 1))) ≤
      s.dir.cost (s.alightTime trip (s.positionAt r (i + 1))) := by
    rw [alightTime_eq, alightMinutes_eq hw hruns] at hf
    rw [alightTime_eq, alightTime_eq, alightMinutes_eq hw hruns, alightMinutes_eq hw htaken.1]
    have hf' := htaken.isFeasible hw hi hle hrow (boardRow_le_alightRow (Nat.lt_succ_self i) hi) hf
    rw [Direction.cost_ofMinutes hf, Direction.cost_ofMinutes hf']
    exact hle _ hrow
  obtain ⟨before, after, hsplit⟩ := List.append_of_mem (List.mem_range.2 hv)
  have hscans : ∀ (levels : List Nat) (q : Progress), q.Scans s.dir
      (levels.foldl (s.leaveTrip (s.positionAt r (i + 1)) l scan.aboard) q) := by
    intro levels q
    refine List.foldlRecOn levels _ (Scans.refl _ _) fun q' hq' level _ => hq'.trans ?_
    unfold leaveTrip
    split
    · exact Scans.refl _ _
    · exact scans_improveArrival _ _ _ _ _
  unfold leaveTrips
  rw [hsplit, List.foldl_append, List.foldl_cons]
  refine Progress.KnowsArrival.scans ?_ (hscans after _)
  unfold leaveTrip
  rw [hcurrent]
  exact (knowsArrival_improveArrival ((hscans before _).fits_of hfits) hl hv).mono hcost

omit hordered in
/-- The arrival of a trip at a stop is known after the scan whenever a trip is aboard there that is
no later. -/
lemma Carries.knowsArrival_scanRoute (hfits : p.Fits s.timetable.nbOfLocations s.levels)
    (hj : j < s.nbOfStops r) (hpos : 0 < j) (hruns : s.Runs r trip)
    (hstop : s.stopAt? r j = some stop) (hfinish : stop.canFinish s.dir = true)
    (hf : (s.alightTime trip (s.positionAt r j)).isFeasible = true) (hv : v < s.levels)
    (h : s.Carries r (s.scanned k r p j).aboard v trip) :
    (s.scanRoute k p r).KnowsArrival s.dir stop.location v
      (s.alightTime trip (s.positionAt r j)) := by
  obtain ⟨m, rfl⟩ : ∃ m, j = m + 1 := ⟨j - 1, by omega⟩
  have hcrew : s.Crew r m (s.scanned k r p (m + 1)).aboard := crew_scanned hw k r p hj
  obtain ⟨q, hq, heq⟩ := scanStop_eq hstop k (s.scanned k r p (m + 1))
  rw [if_pos ⟨Nat.succ_ne_zero m, hfinish⟩] at hq
  have hleft : q.KnowsArrival s.dir stop.location v (s.alightTime trip (s.positionAt r (m + 1))) := by
    rw [hq]
    exact knowsArrival_leaveTrips hw ((scans_scanned s k r p (m + 1)).fits_of hfits)
      (hw.known_stop hstop) hv hcrew hj hruns hf h
  have hscanned : (s.scanned k r p (m + 1 + 1)).progress = q := by
    rw [scanned_succ, heq]
  rw [scanRoute_eq]
  refine hleft.scans ?_
  rw [← hscanned]
  exact scans_scanned_le s k r p hj

/-- The scan of a route brings whoever can catch a trip to every stop where that trip is left. -/
lemma knowsArrival_scanRoute {minutes : Int}
    (hready : (p.state.start (k - 1) l v).minutes? = some minutes)
    (hcatches : s.Catches r (s.positionAt r i) minutes trip) (h : s.Ride r trip i j l v a)
    (hf : a.time.isFeasible = true) (hv : v < s.levels)
    (hfits : p.Fits s.timetable.nbOfLocations s.levels) :
    (s.scanRoute k p r).KnowsArrival s.dir a.location a.level a.time := by
  have hij := h.boarded.goes_on
  have hj := h.alight_lt
  rw [h.time_eq] at hf ⊢
  have hcarries := h.boarded.carries hw hordered hready hcatches hj hf hv h.boarded.passes
    (Nat.le_refl j)
  obtain ⟨stop, hstop, hlocation, hfinish⟩ := h.ends
  rw [← hlocation]
  exact hcarries.knowsArrival_scanRoute hw hfits hj (by omega) h.boarded.runs hstop hfinish hf
    (h.boarded.passes.lt_levels hv)

lemma knowsArrival_scanRoutes {minutes : Int} {routes : List RouteIndex} (hr : r ∈ routes)
    (hready : (p.state.start (k - 1) l v).minutes? = some minutes)
    (hcatches : s.Catches r (s.positionAt r i) minutes trip) (h : s.Ride r trip i j l v a)
    (hf : a.time.isFeasible = true) (hv : v < s.levels)
    (hfits : p.Fits s.timetable.nbOfLocations s.levels) :
    (routes.foldl (s.scanRoute k) p).KnowsArrival s.dir a.location a.level a.time := by
  obtain ⟨before, after, rfl⟩ := List.append_of_mem hr
  have hscans := scans_scanRoutes s k before p
  rw [List.foldl_append, List.foldl_cons]
  refine Progress.KnowsArrival.scans ?_ (scans_scanRoutes s k after _)
  rw [← hscans.start_eq] at hready
  exact knowsArrival_scanRoute hw hordered hready hcatches h hf hv (hscans.fits_of hfits)

end Meeting

/-- A trip leaves on a day that is looked at from the first day of a search on. -/
def Near (s : Search) (trip : Trip) : Prop :=
  match s.dir with
  | .forward => trip.day.daysSince s.baseDay ≤ 1
  | .backward => -4 ≤ trip.day.daysSince s.baseDay

/-- Someone who is ready in time for a near trip can catch it. -/
lemma Anchored.catches (hanchored : s.Anchored) (hw : s.timetable.WellFormed)
    (hruns : s.Runs r trip) (hnear : s.Near trip) {t : RelTime} {minutes : Int}
    (ht : t.minutes? = some minutes) (hstart : s.dir.cost s.start ≤ s.dir.cost t)
    (hle : s.dir.cost t ≤ s.dir.sign (s.boardMinutes trip (s.positionAt r i))) :
    s.Catches r (s.positionAt r i) minutes trip := by
  obtain ⟨n, hn, hge, hlt⟩ := hanchored
  have hspan := hw.in_span r (s.boardRow r i)
    (trip.transport.val - (s.timetable.transportsOf r).start.val)
  have hdays : maxDaysInTrip * minutesPerDay = 7200 := rfl
  rw [Direction.cost_of_minutes? hn, Direction.cost_of_minutes? ht] at hstart
  rw [Direction.cost_of_minutes? ht] at hle
  refine ⟨hruns.of_route, ?_, hw.active_lt hruns.active, hruns.active,
    Direction.notBefore_iff.2 hle⟩
  rw [boardMinutes_eq hw hruns] at hle
  unfold rowMinutes at hle
  unfold Near at hnear
  generalize trip.day.daysSince s.baseDay = day at hle hnear ⊢
  cases hdir : s.dir with
  | forward =>
    simp only [hdir, Direction.sign_forward] at hstart hle hnear
    rw [Direction.mem_tripDays_forward]
    omega
  | backward =>
    simp only [hdir, Direction.sign_backward] at hstart hle hnear
    rw [Direction.mem_tripDays_backward]
    omega

end Search

end JourneyPlanner
