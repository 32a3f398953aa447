import JourneyPlanner.Proofs.Search.FirstTrip
import JourneyPlanner.Proofs.Search.Improving
import JourneyPlanner.Search.Scan

/-!
# Scanning a route

Every trip taken along was boarded before, by someone who was ready, and was kept through every
stop in between; so every working time that a scan writes is that of a ride.
-/

namespace JourneyPlanner

open Progress (Scans)

namespace Aboard

@[simp] lemma trip?_empty (levels v : Nat) : (empty levels).trip? v = none := by
  unfold trip? empty
  rw [List.getElem?_replicate]
  split <;> rfl

lemma trip?_set (a : Aboard) (u v : Nat) (x : Option Trip) :
    trip? (a.set u x) v = if u = v ∧ u < a.length then x else a.trip? v := by
  unfold trip?
  rw [List.getElem?_set]
  by_cases huv : u = v
  · subst huv
    by_cases hu : u < a.length
    · rw [if_pos rfl, if_pos hu, if_pos ⟨rfl, hu⟩]
      rfl
    · rw [if_pos rfl, if_neg hu, if_neg fun h => hu h.2, List.getElem?_eq_none (by omega)]
  · rw [if_neg huv, if_neg fun h => huv h.1]

end Aboard

namespace Search

variable {s : Search} {p : Progress} {k i : Nat} {r : RouteIndex} {stop : RouteStop}
  {st : SearchState} {v : Nat} {trip : Trip}

/-- A scan of a route before the stop met in a step. -/
def scanned (s : Search) (k : Nat) (r : RouteIndex) (p : Progress) (i : Nat) : Scan :=
  (List.range i).foldl (s.scanStop k r (s.nbOfStops r)) ⟨p, .empty s.levels⟩

lemma scanned_succ (s : Search) (k : Nat) (r : RouteIndex) (p : Progress) (i : Nat) :
    s.scanned k r p (i + 1) = s.scanStop k r (s.nbOfStops r) (s.scanned k r p i) i := by
  unfold scanned
  rw [List.range_succ, List.foldl_append]
  rfl

lemma scanRoute_eq (s : Search) (k : Nat) (p : Progress) (r : RouteIndex) :
    s.scanRoute k p r = (s.scanned k r p (s.nbOfStops r)).progress := rfl

/-- The trips taken along when a stop is left behind. -/
def aboardAfter (s : Search) (k : Nat) (r : RouteIndex) (stop : RouteStop) (st : SearchState)
    (i : Nat) (aboard : Aboard) : Aboard :=
  if i + 1 = s.nbOfStops r then aboard
  else if !s.query.canLeave s.timetable r (s.positionAt r i) then .empty s.levels
  else
    let rode := if i = 0 then aboard
      else (List.range (s.levels - 1)).foldl (s.rideThrough (s.positionAt r i) stop.location) aboard
    if !stop.canStart s.dir then rode
    else (List.range s.levels).foldl (s.boardTrip k r (s.positionAt r i) stop.location st) rode

/-- The trips aboard are left where that is allowed, and exchanged. -/
lemma scanStop_eq (h : s.stopAt? r i = some stop) (k : Nat) (scan : Scan) :
    ∃ p, (p = if i ≠ 0 ∧ stop.canFinish s.dir = true then
        (s.leaveTrips (s.positionAt r i) stop.location scan).progress else scan.progress) ∧
      s.scanStop k r (s.nbOfStops r) scan i =
        ⟨p, s.aboardAfter k r stop p.state i scan.aboard⟩ := by
  have hget : (s.timetable.stops r)[s.dir.position (s.nbOfStops r) i]? = some stop := h
  refine ⟨_, rfl, ?_⟩
  unfold scanStop aboardAfter
  dsimp only
  rw [hget]
  by_cases hleave : i ≠ 0 ∧ stop.canFinish s.dir = true
  · have hbool : (decide (i ≠ 0) && stop.canFinish s.dir) = true := by simpa using hleave
    dsimp only
    rw [if_pos hbool, if_pos hleave]
    unfold leaveTrips positionAt
    repeat' split
    all_goals rfl
  · have hbool : ¬(decide (i ≠ 0) && stop.canFinish s.dir) = true := by simpa using hleave
    dsimp only
    rw [if_neg hbool, if_neg hleave]
    unfold positionAt
    repeat' split
    all_goals rfl

lemma exists_stopAt? (hi : i < s.nbOfStops r) : ∃ stop, s.stopAt? r i = some stop := by
  unfold stopAt? positionAt
  have hlt : s.dir.position (s.nbOfStops r) i < (s.timetable.stops r).size := by
    unfold nbOfStops at *
    cases s.dir <;> simp only [Direction.position] <;> omega
  exact ⟨_, Array.getElem?_eq_getElem hlt⟩

section Keeps

variable {M : Progress → Prop} (himprove : ∀ q l v t, M q → M (s.improveArrival l v t q))
include himprove

lemma leaveTrips_keeps (position : Nat) (l : LocationIndex) (scan : Scan) (h : M scan.progress) :
    M (s.leaveTrips position l scan).progress := by
  refine List.foldlRecOn (motive := M) _ _ h ?_
  intro q hq v _
  unfold leaveTrip
  split
  · exact hq
  · exact himprove _ _ _ _ hq

lemma scanStop_keeps (k : Nat) (r : RouteIndex) (scan : Scan) (i : Nat) (h : M scan.progress) :
    M (s.scanStop k r (s.nbOfStops r) scan i).progress := by
  cases hstop : s.stopAt? r i with
  | none =>
    have hget : (s.timetable.stops r)[s.dir.position (s.nbOfStops r) i]? = none := hstop
    unfold scanStop
    dsimp only
    rw [hget]
    exact h
  | some stop =>
    obtain ⟨q, hq, heq⟩ := scanStop_eq hstop k scan
    rw [heq, hq]
    split
    · exact leaveTrips_keeps himprove _ _ _ h
    · exact h

/-- What every improvement of an arrival keeps is kept by a scan. -/
lemma scanRoute_keeps (k : Nat) (r : RouteIndex) (h : M p) : M (s.scanRoute k p r) :=
  List.foldlRecOn (motive := fun scan : Scan => M scan.progress) _ _ h
    fun scan hscan i _ => scanStop_keeps himprove k r scan i hscan

lemma scanRoutes_keeps (k : Nat) (routes : List RouteIndex) (h : M p) :
    M (routes.foldl (s.scanRoute k) p) :=
  List.foldlRecOn (motive := M) _ _ h fun _ hq r _ => scanRoute_keeps himprove k r hq

end Keeps

lemma scans_scanStop (s : Search) (k : Nat) (r : RouteIndex) (scan : Scan) (i : Nat) :
    scan.progress.Scans s.dir (s.scanStop k r (s.nbOfStops r) scan i).progress :=
  scanStop_keeps (fun _ _ _ _ hq => hq.trans (scans_improveArrival _ _ _ _ _)) k r scan i
    (Scans.refl _ _)

lemma scans_scanned_le (s : Search) (k : Nat) (r : RouteIndex) (p : Progress) {i j : Nat}
    (hij : i ≤ j) : (s.scanned k r p i).progress.Scans s.dir (s.scanned k r p j).progress := by
  induction hij with
  | refl => exact Scans.refl _ _
  | step _ ih =>
    rw [scanned_succ]
    exact ih.trans (scans_scanStop _ _ _ _ _)

lemma scans_scanned (s : Search) (k : Nat) (r : RouteIndex) (p : Progress) (i : Nat) :
    p.Scans s.dir (s.scanned k r p i).progress :=
  scans_scanned_le s k r p (Nat.zero_le i)

lemma scans_scanRoute (s : Search) (k : Nat) (r : RouteIndex) (p : Progress) :
    p.Scans s.dir (s.scanRoute k p r) :=
  scans_scanned s k r p _

lemma scans_scanRoutes (s : Search) (k : Nat) (routes : List RouteIndex) (p : Progress) :
    p.Scans s.dir (routes.foldl (s.scanRoute k) p) :=
  List.foldlRecOn _ _ (Scans.refl _ _) fun _ hq r _ => hq.trans (scans_scanRoute s k r _)

/-! ### Every trip aboard was boarded -/

/-- Someone who was ready after round `k - 1` boarded a trip, and comes with it to a step. -/
def Took (s : Search) (k : Nat) (r : RouteIndex) (st : SearchState) (i v : Nat) (trip : Trip) :
    Prop :=
  ∃ board l u, s.Boarded r trip board l u i v ∧ (st.start (k - 1) l u).isFeasible = true ∧
    s.dir.cost (st.start (k - 1) l u) ≤ s.dir.sign (s.boardMinutes trip (s.positionAt r board))

lemma PassesAt.refl (s : Search) (l : LocationIndex) (v : Nat) : s.PassesAt l v v :=
  ⟨Nat.le_refl v, fun u hle hlt => absurd hlt (by omega)⟩

lemma PassesAt.succ {l : LocationIndex} {u : Nat} {via : ViaStop} (h : s.PassesAt l u v)
    (hvia : s.viaAt? v l = some via) (hstay : via.stay = .zero) : s.PassesAt l u (v + 1) := by
  refine ⟨Nat.le_succ_of_le h.1, fun x hle hlt => ?_⟩
  by_cases hx : x = v
  · rw [hx]
    exact ⟨via, hvia, hstay⟩
  · exact h.2 x hle (by omega)

/-- A trip that serves a via level after a stop served it, or a lower one, before the stop. -/
def Rode (s : Search) (l : LocationIndex) (aboard : Aboard) (v : Nat) (trip : Trip) : Prop :=
  ∃ u, aboard.trip? u = some trip ∧ s.PassesAt l u v

lemma rode_rideThrough {position : Nat} {l : LocationIndex} {before aboard : Aboard} {level : Nat}
    (h : ∀ v trip, aboard.trip? v = some trip → s.Rode l before v trip) (v : Nat) (trip : Trip)
    (hv : (s.rideThrough position l aboard level).trip? v = some trip) :
    s.Rode l before v trip := by
  unfold rideThrough at hv
  split at hv
  · rename_i via current hvia hcurrent
    obtain ⟨hvia, hzero⟩ := Option.filter_eq_some_iff.1 hvia
    have hstay : via.stay = .zero := beq_iff_eq.1 hzero
    have hset : Aboard.trip? (aboard.set (level + 1) (some current)) v = some trip →
        s.Rode l before v trip := by
      intro hset
      rw [Aboard.trip?_set] at hset
      split at hset
      · rename_i hlevel
        obtain ⟨u, hu, hpasses⟩ := h level current hcurrent
        rw [← hlevel.1, ← Option.some.inj hset]
        exact ⟨u, hu, hpasses.succ hvia hstay⟩
      · exact h v trip hset
    split at hv
    · exact hset hv
    · split at hv
      · exact hset hv
      · exact h v trip hv
  · exact h v trip hv

lemma rode_rideThroughs {position : Nat} {l : LocationIndex} {aboard : Aboard} (levels : List Nat)
    (v : Nat) (trip : Trip)
    (hv : Aboard.trip? (levels.foldl (s.rideThrough position l) aboard) v = some trip) :
    s.Rode l aboard v trip := by
  refine List.foldlRecOn (motive := fun after : Aboard => ∀ v trip, after.trip? v = some trip →
    s.Rode l aboard v trip) levels _ ?_ ?_ v trip hv
  · exact fun v trip hv => ⟨v, hv, PassesAt.refl s l v⟩
  · exact fun after hafter level _ => rode_rideThrough hafter

/-- All that can happen to the trip aboard: a better one is taken, or it stays and nothing that can
be caught is better. -/
lemma exchange_some (s : Search) (r : RouteIndex) (position : Nat) (ready : RelTime) (old : Trip) :
    (∃ best u, s.firstTrip? r position ready = some (best, u) ∧
      s.dir.isBetter u (s.boardTime old position) = true ∧
      s.exchange r position ready (some old) = some best) ∨
    s.exchange r position ready (some old) = some old ∧
      (¬s.dir.isBetter ready (s.boardTime old position) = true ∨
        ∀ best u, s.firstTrip? r position ready = some (best, u) →
          ¬s.dir.isBetter u (s.boardTime old position) = true) := by
  by_cases hready : s.dir.isBetter ready (s.boardTime old position) = true
  · cases hfirst : s.firstTrip? r position ready with
    | none =>
      refine Or.inr ⟨by simp [exchange, hready, hfirst], Or.inr fun best u h => ?_⟩
      cases h
    | some found =>
      by_cases hbetter : s.dir.isBetter found.2 (s.boardTime old position) = true
      · exact Or.inl ⟨found.1, found.2, rfl, hbetter, by simp [exchange, hready, hfirst, hbetter]⟩
      · refine Or.inr ⟨by simp [exchange, hready, hfirst, hbetter], Or.inr fun best u h => ?_⟩
        cases h
        exact hbetter
  · exact Or.inr ⟨by simp [exchange, hready], Or.inl hready⟩

lemma exchange_cases {position : Nat} {ready : RelTime} {current : Option Trip}
    (h : s.exchange r position ready current = some trip) :
    current = some trip ∨ ∃ u, s.firstTrip? r position ready = some (trip, u) := by
  cases current with
  | none =>
    obtain ⟨⟨best, u⟩, hfirst, rfl⟩ := Option.map_eq_some_iff.1 h
    exact Or.inr ⟨u, hfirst⟩
  | some old =>
    rcases s.exchange_some r position ready old with ⟨best, u, hfirst, _, htaken⟩ | ⟨hkept, _⟩
    · rw [htaken, Option.some.injEq] at h
      exact Or.inr ⟨u, h ▸ hfirst⟩
    · exact Or.inl (hkept.symm.trans h)

/-- Where a trip can be caught, the best one of those that can be is taken, or the one aboard stays
and is boarded no later. -/
lemma exists_exchange (hw : s.timetable.WellFormed) {position : Nat} {ready : RelTime}
    {minutes : Int} (hrow : s.dir.boardEvent.row position < s.timetable.nbOfEvents r)
    (hready : ready.minutes? = some minutes) (hcatches : s.Catches r position minutes trip)
    (hboard : s.dir.cost (s.boardTime trip position) = s.dir.sign (s.boardMinutes trip position))
    (current : Option Trip) :
    ∃ taken, s.exchange r position ready current = some taken ∧
      ((∃ u, s.firstTrip? r position ready = some (taken, u) ∧
          s.dir.cost u ≤ s.dir.cost (s.boardTime trip position)) ∨
        current = some taken ∧
          s.dir.cost (s.boardTime taken position) ≤ s.dir.cost (s.boardTime trip position)) := by
  obtain ⟨best, u, hfirst, hcost⟩ := firstTrip?_best hw hrow hready hcatches
  cases current with
  | none =>
    refine ⟨best, ?_, Or.inl ⟨u, hfirst, hcost⟩⟩
    rw [exchange, hfirst]
    rfl
  | some old =>
    rcases s.exchange_some r position ready old with
      ⟨other, u', hother, _, htaken⟩ | ⟨hkept, hlate | hbest⟩
    · rw [hfirst] at hother
      cases hother
      exact ⟨best, htaken, Or.inl ⟨u, hfirst, hcost⟩⟩
    · -- the trip aboard leaves before anyone is ready for another one
      have hintime := Direction.notBefore_iff.1 hcatches.in_time
      rw [← Direction.cost_of_minutes? hready, ← hboard] at hintime
      exact ⟨old, hkept, Or.inr ⟨rfl, Int.le_trans (Direction.isBetter_false_iff.1 hlate) hintime⟩⟩
    · have hle := Direction.isBetter_false_iff.1 (hbest best u hfirst)
      exact ⟨old, hkept, Or.inr ⟨rfl, Int.le_trans hle hcost⟩⟩

/-- Someone who is ready at a stop in time for a trip comes with it to the next stop. -/
lemma took_of_firstTrip? (hw : s.timetable.WellFormed) (hstop : s.stopAt? r i = some stop)
    (hi : i + 1 < s.nbOfStops r)
    (hleave : s.query.canLeave s.timetable r (s.positionAt r i) = true)
    (hstart : stop.canStart s.dir = true)
    (hready : (st.start (k - 1) stop.location v).isFeasible = true) {u : RelTime}
    (h : s.firstTrip? r (s.positionAt r i) (st.start (k - 1) stop.location v) = some (trip, u)) :
    s.Took k r st (i + 1) v trip := by
  obtain ⟨minutes, hminutes, hcatches, _⟩ := firstTrip?_sound hw (boardRow_lt hi) h
  refine ⟨i, stop.location, v, ⟨hcatches.runs, Nat.lt_succ_self i,
    ⟨stop, hstop, rfl, hstart⟩, ?_, .nil⟩, hready, ?_⟩
  · intro j hle hlt
    have hj : j = i := by omega
    rw [hj]
    exact hleave
  · rw [Direction.cost_of_minutes? hminutes]
    exact Direction.notBefore_iff.1 hcatches.in_time

lemma took_boardTrips (hw : s.timetable.WellFormed) (hstop : s.stopAt? r i = some stop)
    (hi : i + 1 < s.nbOfStops r)
    (hleave : s.query.canLeave s.timetable r (s.positionAt r i) = true)
    (hstart : stop.canStart s.dir = true) {aboard : Aboard} (levels : List Nat)
    (h : ∀ v trip, aboard.trip? v = some trip → s.Took k r st (i + 1) v trip) (v : Nat)
    (trip : Trip) (hv : Aboard.trip? (levels.foldl
      (s.boardTrip k r (s.positionAt r i) stop.location st) aboard) v = some trip) :
    s.Took k r st (i + 1) v trip := by
  refine List.foldlRecOn (motive := fun after : Aboard => ∀ v trip, after.trip? v = some trip →
    s.Took k r st (i + 1) v trip) levels _ h ?_ v trip hv
  intro after hafter level _ v trip hv
  unfold boardTrip at hv
  dsimp only at hv
  split at hv
  · rename_i hready
    rw [Aboard.trip?_set] at hv
    split at hv
    · rename_i hlevel
      rw [← hlevel.1]
      rcases exchange_cases hv with hold | ⟨u, hu⟩
      · exact hafter level trip hold
      · exact took_of_firstTrip? hw hstop hi hleave hstart hready hu
    · exact hafter v trip hv
  · exact hafter v trip hv

/-- A trip aboard at a stop, or boarded there, is aboard at the next one. -/
lemma took_aboardAfter (hw : s.timetable.WellFormed) (hstop : s.stopAt? r i = some stop)
    (hi : i + 1 < s.nbOfStops r) {aboard : Aboard}
    (h : ∀ v trip, aboard.trip? v = some trip → s.Took k r st i v trip) (v : Nat) (trip : Trip)
    (hv : (s.aboardAfter k r stop st i aboard).trip? v = some trip) :
    s.Took k r st (i + 1) v trip := by
  unfold aboardAfter at hv
  rw [if_neg (by omega)] at hv
  by_cases hleave : s.query.canLeave s.timetable r (s.positionAt r i) = true
  · rw [if_neg (by rw [hleave]; decide)] at hv
    have hrode : ∀ v trip, Aboard.trip? (if i = 0 then aboard else
        (List.range (s.levels - 1)).foldl (s.rideThrough (s.positionAt r i) stop.location) aboard)
          v = some trip → s.Took k r st (i + 1) v trip := by
      intro v trip hv
      obtain ⟨u, hu, hpasses⟩ : s.Rode stop.location aboard v trip := by
        split at hv
        · exact ⟨v, hv, PassesAt.refl s _ v⟩
        · exact rode_rideThroughs _ v trip hv
      obtain ⟨board, l, x, hboarded, hready, htime⟩ := h u trip hu
      refine ⟨board, l, x, ⟨hboarded.runs, Nat.lt_succ_of_lt hboarded.goes_on, hboarded.begins, ?_,
        hboarded.passes.snoc hstop hpasses⟩, hready, htime⟩
      intro j hle hlt
      by_cases hj : j = i
      · rw [hj]
        exact hleave
      · exact hboarded.continues j hle (by omega)
    dsimp only at hv
    split at hv
    · exact hrode v trip hv
    · rename_i hstart
      exact took_boardTrips hw hstop hi hleave (by simpa using hstart) _ hrode v trip hv
  · rw [if_pos (by simpa using hleave), Aboard.trip?_empty] at hv
    cases hv

lemma took_scanned (hw : s.timetable.WellFormed) (k : Nat) (r : RouteIndex) (p : Progress)
    (hi : i < s.nbOfStops r) (v : Nat) (trip : Trip)
    (hv : (s.scanned k r p i).aboard.trip? v = some trip) : s.Took k r p.state i v trip := by
  induction i generalizing v trip with
  | zero =>
    have hempty : (s.scanned k r p 0).aboard = .empty s.levels := rfl
    rw [hempty, Aboard.trip?_empty] at hv
    cases hv
  | succ i ih =>
    obtain ⟨stop, hstop⟩ := exists_stopAt? (s := s) (r := r) (i := i) (by omega)
    obtain ⟨q, _, heq⟩ := scanStop_eq hstop k (s.scanned k r p i)
    have hscans := scans_scanned s k r p (i + 1)
    rw [scanned_succ, heq] at hv hscans
    have hsame : ∀ j v trip, s.Took k r p.state j v trip → s.Took k r q.state j v trip := by
      rintro j v trip ⟨board, l, u, hboarded, h⟩
      refine ⟨board, l, u, hboarded, ?_⟩
      rw [hscans.start_eq]
      exact h
    obtain ⟨board, l, u, hboarded, h⟩ := took_aboardAfter hw hstop hi
      (fun v trip hv => hsame i v trip (ih (by omega) v trip hv)) v trip hv
    refine ⟨board, l, u, hboarded, ?_⟩
    rw [hscans.start_eq] at h
    exact h

/-- Every working time is that of a ride that someone could board who was ready in the round
before. -/
def TracesArrivals (s : Search) (k : Nat) (st : SearchState) (p : Progress) : Prop :=
  ∀ l v, (p.state.tmp.time l v).isFeasible = true →
    ∃ l' u, (st.start (k - 1) l' u).isFeasible = true ∧
      s.Brings l' u (st.start (k - 1) l' u) ⟨l, v, p.state.tmp.time l v⟩

lemma brings_of_took (hw : s.timetable.WellFormed)
    (hadmits : s.query.admits s.timetable r = true) (hi : i < s.nbOfStops r)
    (hstop : s.stopAt? r i = some stop) (hfinish : stop.canFinish s.dir = true)
    (h : s.Took k r st i v trip)
    (htime : (s.alightTime trip (s.positionAt r i)).isFeasible = true) :
    ∃ l u, (st.start (k - 1) l u).isFeasible = true ∧
      s.Brings l u (st.start (k - 1) l u)
        ⟨stop.location, v, s.alightTime trip (s.positionAt r i)⟩ := by
  obtain ⟨board, l, u, hboarded, hready, hcost⟩ := h
  exact ⟨l, u, hready, r, trip, board, i, ⟨hadmits, hboarded, hi, ⟨stop, hstop, rfl, hfinish⟩, rfl⟩,
    inTime_of_alight hw hboarded.runs hboarded.goes_on hi hready hcost htime⟩

lemma tracesArrivals_scanned (hw : s.timetable.WellFormed)
    (hadmits : s.query.admits s.timetable r = true) (h : s.TracesArrivals k p.state p)
    (hi : i ≤ s.nbOfStops r) : s.TracesArrivals k p.state (s.scanned k r p i).progress := by
  induction i with
  | zero => exact h
  | succ i ih =>
    have hlt : i < s.nbOfStops r := by omega
    obtain ⟨stop, hstop⟩ := exists_stopAt? (s := s) (r := r) hlt
    obtain ⟨q, hq, heq⟩ := scanStop_eq hstop k (s.scanned k r p i)
    rw [scanned_succ, heq]
    show s.TracesArrivals k p.state q
    have htook := took_scanned hw k r p hlt
    have hbefore := ih (by omega)
    generalize s.scanned k r p i = scan at hq htook hbefore
    rw [hq]
    split
    · rename_i hleave
      refine List.foldlRecOn (motive := fun q => s.TracesArrivals k p.state q) _ _ hbefore ?_
      intro q hq v _
      unfold leaveTrip
      split
      · exact hq
      · rename_i trip htrip
        intro l v' hf
        rcases tmp_improveArrival_cases s stop.location v (s.alightTime trip (s.positionAt r i)) q
          l v' with hold | ⟨rfl, rfl, hnew⟩
        · rw [hold] at hf ⊢
          exact hq l v' hf
        · rw [hnew] at hf ⊢
          exact brings_of_took hw hadmits hlt hstop hleave.2 (htook _ trip htrip) hf
    · exact hbefore

lemma tracesArrivals_scanRoutes (hw : s.timetable.WellFormed) {routes : List RouteIndex}
    (hadmits : ∀ r ∈ routes, s.query.admits s.timetable r = true)
    (h : s.TracesArrivals k p.state p) :
    s.TracesArrivals k p.state (routes.foldl (s.scanRoute k) p) := by
  have hboth := List.foldlRecOn (motive := fun q => p.Scans s.dir q ∧ s.TracesArrivals k p.state q)
    routes (s.scanRoute k) ⟨Scans.refl _ _, h⟩ ?_
  · exact hboth.2
  · rintro q ⟨hscans, hq⟩ r hr
    refine ⟨hscans.trans (scans_scanRoute s k r q), ?_⟩
    have hsame : ∀ q', s.TracesArrivals k p.state q' ↔ s.TracesArrivals k q.state q' := by
      intro q'
      unfold TracesArrivals
      simp only [hscans.start_eq]
    rw [hsame] at hq ⊢
    exact tracesArrivals_scanned hw (hadmits r hr) hq (Nat.le_refl _)

lemma marksArrivals_scanRoutes {locations levels : Nat} (hfits : p.Fits locations levels)
    (h : MarksArrivals p) (k : Nat) (routes : List RouteIndex) :
    MarksArrivals (routes.foldl (s.scanRoute k) p) := by
  have hboth := scanRoutes_keeps (s := s) (M := fun q => q.Fits locations levels ∧ MarksArrivals q)
    ?_ k routes ⟨hfits, h⟩
  · exact hboth.2
  · rintro q l v t ⟨hq, hm⟩
    exact ⟨(scans_improveArrival _ _ _ _ _).fits_of hq, marksArrivals_improveArrival hq hm⟩

end Search

end JourneyPlanner
