import JourneyPlanner.Proofs.Search.Fronts

/-!
# The order of routes in a round

A scan of a route writes working times only, and looks at the starts of the round before only. So it
offers the same arrivals whatever was scanned before it, and the best of all arrivals that are
offered does not depend on their order: the scans of one round commute.
-/

namespace JourneyPlanner

namespace BitSet

lemma insert_comm (s : BitSet) (i j : Nat) : (s.insert i).insert j = (s.insert j).insert i := by
  refine ext (by simp only [capacity_insert]) fun n => ?_
  simp only [contains_insert, capacity_insert]
  grind

lemma insert_insert (s : BitSet) (i : Nat) : (s.insert i).insert i = s.insert i := by
  refine ext (by simp only [capacity_insert]) fun n => ?_
  simp only [contains_insert, capacity_insert]
  grind

end BitSet

namespace Labels

variable {dir : Direction} {g : Labels} {l l' : LocationIndex} {v v' : Nat} {t t' : RelTime}

lemma setTime_comm (g : Labels) (h : ¬(l = l' ∧ v = v')) (t t' : RelTime) :
    (g.setTime l v t).setTime l' v' t' = (g.setTime l' v' t').setTime l v t := by
  have hne : ¬(l.val = l'.val ∧ v = v') := fun heq => h ⟨Index.ext heq.1, heq.2⟩
  unfold setTime
  refine Grid.ext (by simp only [Grid.rows_set]) (by simp only [Grid.columns_set]) fun i j => ?_
  simp only [Grid.get?_set, Grid.rows_set, Grid.columns_set]
  grind

lemma setTime_setTime (g : Labels) (l : LocationIndex) (v : Nat) (t t' : RelTime) :
    (g.setTime l v t).setTime l v t' = g.setTime l v t' := by
  unfold setTime
  refine Grid.ext (by simp only [Grid.rows_set]) (by simp only [Grid.columns_set]) fun i j => ?_
  simp only [Grid.get?_set, Grid.rows_set, Grid.columns_set]
  grind

lemma setTime_of_not (h : ¬(l.val < g.rows ∧ v < g.columns)) : g.setTime l v t = g := by
  rw [setTime, Grid.set, if_neg h]

/-- An arrival that is better than what a table has is kept there, and its location is marked. -/
def improve (dir : Direction) (x : Labels × BitSet) (a : Arrival) : Labels × BitSet :=
  if dir.isBetter a.time (x.1.time a.location a.level) then
    (x.1.setTime a.location a.level a.time, x.2.insert a.location.val)
  else x

lemma improve_of_better {x : Labels × BitSet} {a : Arrival}
    (h : dir.isBetter a.time (x.1.time a.location a.level) = true) : improve dir x a =
      (x.1.setTime a.location a.level a.time, x.2.insert a.location.val) := if_pos h

lemma improve_of_not {x : Labels × BitSet} {a : Arrival}
    (h : ¬dir.isBetter a.time (x.1.time a.location a.level) = true) : improve dir x a = x :=
  if_neg h

/-- What has been kept is never made worse. -/
lemma cost_improve_le (dir : Direction) (x : Labels × BitSet) (a : Arrival) (l : LocationIndex)
    (v : Nat) : dir.cost ((improve dir x a).1.time l v) ≤ dir.cost (x.1.time l v) := by
  unfold improve
  split
  · rename_i hbetter
    rcases x.1.time_setTime_cases a.location a.level a.time l v with h | ⟨rfl, rfl, h⟩
    · exact Int.le_of_eq (congrArg _ h)
    · exact Int.le_trans (Int.le_of_eq (congrArg _ h)) (Int.le_of_lt (Direction.isBetter_iff.1 hbetter))
  · exact Int.le_refl _

lemma improve_of_not_improve {x : Labels × BitSet} {a : Arrival}
    (h : ¬dir.isBetter a.time (x.1.time a.location a.level) = true) (b : Arrival) :
    improve dir (improve dir x b) a = improve dir x b := by
  refine improve_of_not ?_
  rw [Direction.isBetter_false_iff] at h ⊢
  exact Int.le_trans (cost_improve_le dir x b _ _) h

/-- Of two arrivals at one place the better one is kept. -/
lemma improve_improve_same {x : Labels × BitSet}
    (h : dir.isBetter t (x.1.time l v) = true) (h' : dir.isBetter t' (x.1.time l v) = true) :
    improve dir (improve dir x ⟨l, v, t⟩) ⟨l, v, t'⟩ =
      (x.1.setTime l v (dir.best t t'), x.2.insert l.val) := by
  rw [improve_of_better (a := ⟨l, v, t⟩) h]
  by_cases hin : l.val < x.1.rows ∧ v < x.1.columns
  · have htime : (x.1.setTime l v t).time l v = t := by
      rw [time_setTime, if_pos ⟨rfl, rfl, hin⟩]
    by_cases hbetter : dir.isBetter t' t = true
    · rw [improve_of_better (by rw [htime]; exact hbetter), setTime_setTime, BitSet.insert_insert,
        Direction.best, if_pos hbetter]
    · rw [improve_of_not (by rw [htime]; exact hbetter), Direction.best, if_neg hbetter]
  · simp only [setTime_of_not hin]
    rw [improve_of_better h', setTime_of_not hin, BitSet.insert_insert]

lemma improve_comm (dir : Direction) (x : Labels × BitSet) (a b : Arrival) :
    improve dir (improve dir x a) b = improve dir (improve dir x b) a := by
  by_cases ha : dir.isBetter a.time (x.1.time a.location a.level) = true
  · by_cases hb : dir.isBetter b.time (x.1.time b.location b.level) = true
    · by_cases hsame : a.location = b.location ∧ a.level = b.level
      · obtain ⟨l, v, t⟩ := a
        obtain ⟨_, _, t'⟩ := b
        obtain ⟨rfl, rfl⟩ := hsame
        rw [improve_improve_same ha hb, improve_improve_same hb ha, Direction.best_comm]
      · -- each of them is as much better as it was before the other one
        have hkept : ∀ {c d : Arrival}, ¬(c.location = d.location ∧ c.level = d.level) →
            (x.1.setTime c.location c.level c.time).time d.location d.level =
              x.1.time d.location d.level := by
          intro c d hne
          rw [time_setTime, if_neg fun h => hne ⟨Index.ext h.1, h.2.1⟩]
        have hsame' : ¬(b.location = a.location ∧ b.level = a.level) :=
          fun h => hsame ⟨h.1.symm, h.2.symm⟩
        rw [improve_of_better ha, improve_of_better hb,
          improve_of_better (by rw [hkept hsame]; exact hb),
          improve_of_better (by rw [hkept hsame']; exact ha), setTime_comm _ hsame,
          BitSet.insert_comm]
    · rw [improve_of_not_improve hb, improve_of_not hb]
  · rw [improve_of_not_improve ha, improve_of_not ha]

end Labels

namespace Search

variable {s : Search} {p : Progress} {k : Nat} {l : LocationIndex} {v : Nat} {t : RelTime}

/-- An arrival is better than what the finished rounds have, and than the way to the destination. -/
def promises (dir : Direction) (finished : Labels) (destination : RelTime) (a : Arrival) : Bool :=
  dir.isBetter a.time (finished.time a.location a.level) && dir.isBetter a.time destination

/-- An arrival by vehicle. -/
def offerArrival (s : Search) (p : Progress) (a : Arrival) : Progress :=
  s.improveArrival a.location a.level a.time p

lemma offerArrival_eq (s : Search) (p : Progress) (a : Arrival) :
    s.offerArrival p a = if promises s.dir p.state.best p.bestDestination a then
        let x := Labels.improve s.dir (p.state.tmp, p.state.marks) a
        p.mapState fun st => { st with tmp := x.1, marks := x.2 }
      else p := by
  unfold offerArrival improveArrival promises Labels.improve
  cases s.dir.isBetter a.time (p.state.tmp.time a.location a.level) <;>
    cases s.dir.isBetter a.time (p.state.best.time a.location a.level) <;>
      cases s.dir.isBetter a.time p.bestDestination <;> rfl

/-- Arrivals of one round commute. -/
lemma offerArrival_comm (s : Search) (p : Progress) (a b : Arrival) :
    s.offerArrival (s.offerArrival p a) b = s.offerArrival (s.offerArrival p b) a := by
  have hcomm := Labels.improve_comm s.dir (p.state.tmp, p.state.marks) a b
  cases ha : promises s.dir p.state.best p.bestDestination a <;>
    cases hb : promises s.dir p.state.best p.bestDestination b <;>
      simp [offerArrival_eq, ha, hb, hcomm, Progress.mapState]

/-- The starts of a round, with the marks. -/
def startsOf (p : Progress) (k : Nat) : Labels × BitSet :=
  ((p.state.starts[k]?).getD (.unreached 0 0), p.state.marks)

/-- A round has other starts and other marks. -/
def withStarts (p : Progress) (k : Nat) (x : Labels × BitSet) : Progress :=
  p.mapState fun st => { st with starts := st.starts.modify k fun _ => x.1, marks := x.2 }

lemma withStarts_withStarts (p : Progress) (k : Nat) (x y : Labels × BitSet) :
    withStarts (withStarts p k x) k y = withStarts p k y := by
  have hstarts : (p.state.starts.modify k fun _ => x.1).modify k (fun _ => y.1) =
      p.state.starts.modify k fun _ => y.1 := by
    refine Array.ext_getElem? fun i => ?_
    simp only [Array.getElem?_modify]
    split
    · rw [Option.map_map]
      rfl
    · rfl
  simp only [withStarts, Progress.mapState, hstarts]

lemma withStarts_startsOf (p : Progress) (k : Nat) : withStarts p k (startsOf p k) = p := by
  have hstarts : (p.state.starts.modify k fun _ => (startsOf p k).1) = p.state.starts := by
    refine Array.ext_getElem? fun i => ?_
    rw [Array.getElem?_modify]
    split
    · rename_i hi
      subst hi
      unfold startsOf
      cases p.state.starts[k]? <;> rfl
    · rfl
  simp only [withStarts, Progress.mapState, hstarts]
  rfl

/-- Where a round has no table, nothing is kept. -/
lemma startsOf_withStarts (dir : Direction) (p : Progress) (k : Nat) (a : Arrival) :
    startsOf (withStarts p k (Labels.improve dir (startsOf p k) a)) k =
      Labels.improve dir (startsOf p k) a := by
  have hget : (withStarts p k (Labels.improve dir (startsOf p k) a)).state.starts[k]? =
      (p.state.starts[k]?).map fun _ => (Labels.improve dir (startsOf p k) a).1 := by
    change (p.state.starts.modify k _)[k]? = _
    rw [Array.getElem?_modify, if_pos rfl]
  refine Prod.ext ?_ rfl
  rw [startsOf, hget]
  cases hstarts : p.state.starts[k]? with
  | some g => rfl
  | none =>
    have hempty : (startsOf p k).1 = .unreached 0 0 := by rw [startsOf, hstarts]; rfl
    unfold Labels.improve
    split
    · rw [Labels.setTime_of_not]
      · exact hempty.symm
      · rw [hempty]
        exact fun h => Nat.not_lt_zero _ h.1
    · exact hempty.symm

/-- Someone is ready at a location for the vehicle after a round. -/
def offerStart (s : Search) (k : Nat) (p : Progress) (a : Arrival) : Progress :=
  s.improveStart k a.location a.level a.time p

lemma offerStart_eq (s : Search) (k : Nat) (p : Progress) (a : Arrival) :
    s.offerStart k p a = if promises s.dir p.state.bestStart p.bestDestination a then
        withStarts p k (Labels.improve s.dir (startsOf p k) a)
      else p := by
  have htime : p.state.start k a.location a.level = (startsOf p k).1.time a.location a.level := by
    unfold SearchState.start startsOf
    cases p.state.starts[k]? with
    | none => exact (Labels.time_unreached 0 0 _ _).symm
    | some g => rfl
  have hset : p.mapState (fun st => (st.setStart k a.location a.level a.time).mark a.location) =
      withStarts p k ((startsOf p k).1.setTime a.location a.level a.time,
        p.state.marks.insert a.location.val) := by
    have hstarts : (p.state.starts.modify k fun g => g.setTime a.location a.level a.time) =
        p.state.starts.modify k fun _ => (startsOf p k).1.setTime a.location a.level a.time := by
      refine Array.ext_getElem? fun i => ?_
      rw [Array.getElem?_modify, Array.getElem?_modify]
      split
      · rename_i hi
        subst hi
        unfold startsOf
        cases p.state.starts[k]? <;> rfl
      · rfl
    simp only [withStarts, Progress.mapState, SearchState.setStart, SearchState.mark, hstarts]
  unfold offerStart improveStart promises Labels.improve
  rw [htime, hset]
  cases s.dir.isBetter a.time ((startsOf p k).1.time a.location a.level) <;>
    cases s.dir.isBetter a.time (p.state.bestStart.time a.location a.level) <;>
      cases s.dir.isBetter a.time p.bestDestination <;>
        first | rfl | exact (withStarts_startsOf p k).symm

/-- Starts of one round commute. -/
lemma offerStart_comm (s : Search) (k : Nat) (p : Progress) (a b : Arrival) :
    s.offerStart k (s.offerStart k p a) b = s.offerStart k (s.offerStart k p b) a := by
  have hkept : ∀ (c d : Arrival), promises s.dir
      (withStarts p k (Labels.improve s.dir (startsOf p k) c)).state.bestStart
      (withStarts p k (Labels.improve s.dir (startsOf p k) c)).bestDestination d =
        promises s.dir p.state.bestStart p.bestDestination d := fun _ _ => rfl
  have hcomm := Labels.improve_comm s.dir (startsOf p k) a b
  cases ha : promises s.dir p.state.bestStart p.bestDestination a <;>
    cases hb : promises s.dir p.state.bestStart p.bestDestination b <;>
      simp [offerStart_eq, ha, hb, hkept, startsOf_withStarts, withStarts_withStarts, hcomm]

variable {r : RouteIndex} {st st' : SearchState} {i : Nat}

/-- The trips taken along to the stop met in a step, by someone who can leave at the times of a
state. -/
def carried (s : Search) (k : Nat) (r : RouteIndex) (st : SearchState) : Nat → Aboard
  | 0 => .empty s.levels
  | i + 1 => match s.stopAt? r i with
    | none => carried s k r st i
    | some stop => s.aboardAfter k r stop st i (carried s k r st i)

/-- The arrivals with the trips aboard at a stop. -/
def alighted (s : Search) (position : Nat) (l : LocationIndex) (aboard : Aboard) : List Arrival :=
  (List.range s.levels).filterMap fun level =>
    (aboard.trip? level).map fun trip => ⟨l, level, s.alightTime trip position⟩

/-- The arrivals at the stop met in a step. -/
def offeredAt (s : Search) (k : Nat) (r : RouteIndex) (st : SearchState) (i : Nat) :
    List Arrival :=
  match s.stopAt? r i with
  | none => []
  | some stop =>
    if i ≠ 0 ∧ stop.canFinish s.dir = true then
      s.alighted (s.positionAt r i) stop.location (s.carried k r st i)
    else []

/-- The arrivals along a route. -/
def offered (s : Search) (k : Nat) (r : RouteIndex) (st : SearchState) : List Arrival :=
  (List.range (s.nbOfStops r)).flatMap (s.offeredAt k r st)

lemma leaveTrips_eq (s : Search) (position : Nat) (l : LocationIndex) (scan : Scan) :
    (s.leaveTrips position l scan).progress =
      (s.alighted position l scan.aboard).foldl s.offerArrival scan.progress := by
  unfold leaveTrips alighted
  rw [List.foldl_filterMap]
  refine List.foldl_ext _ _ _ fun p level _ => ?_
  unfold leaveTrip
  cases scan.aboard.trip? level <;> rfl

/-- Which trips are boarded depends only on when one can leave after the round before. -/
lemma aboardAfter_congr (h : ∀ l v, st.start (k - 1) l v = st'.start (k - 1) l v)
    (stop : RouteStop) (i : Nat) (aboard : Aboard) :
    s.aboardAfter k r stop st i aboard = s.aboardAfter k r stop st' i aboard := by
  have hboard : s.boardTrip k r (s.positionAt r i) stop.location st =
      s.boardTrip k r (s.positionAt r i) stop.location st' := by
    funext aboard level
    unfold boardTrip
    rw [h]
  unfold aboardAfter
  rw [hboard]

lemma carried_congr (h : ∀ l v, st.start (k - 1) l v = st'.start (k - 1) l v) (i : Nat) :
    s.carried k r st i = s.carried k r st' i := by
  induction i with
  | zero => rfl
  | succ i ih =>
    unfold carried
    rw [ih]
    split
    · rfl
    · exact aboardAfter_congr h _ i _

lemma offered_congr (h : ∀ l v, st.start (k - 1) l v = st'.start (k - 1) l v) :
    s.offered k r st = s.offered k r st' := by
  unfold offered offeredAt
  simp only [carried_congr h]

lemma scanStop_of_none (h : s.stopAt? r i = none) (k : Nat) (scan : Scan) :
    s.scanStop k r (s.nbOfStops r) scan i = scan := by
  have hget : (s.timetable.stops r)[s.dir.position (s.nbOfStops r) i]? = none := h
  unfold scanStop
  dsimp only
  rw [hget]

/-- A scan offers arrivals one after the other, and takes along the trips that it would take along
if nothing had been reached before. -/
lemma scanned_eq (s : Search) (k : Nat) (r : RouteIndex) (p : Progress) (i : Nat) :
    s.scanned k r p i =
      ⟨((List.range i).flatMap (s.offeredAt k r p.state)).foldl s.offerArrival p,
        s.carried k r p.state i⟩ := by
  induction i with
  | zero => rfl
  | succ i ih =>
    have hscans := s.scans_scanned k r p (i + 1)
    rw [scanned_succ] at hscans ⊢
    rw [List.range_succ, List.flatMap_append, List.flatMap_singleton, List.foldl_append]
    cases hstop : s.stopAt? r i with
    | none =>
      rw [scanStop_of_none hstop, ih, carried, offeredAt, hstop]
      rfl
    | some stop =>
      obtain ⟨q, hq, hscan⟩ := scanStop_eq hstop k (s.scanned k r p i)
      rw [hscan] at hscans ⊢
      have hcarried : s.carried k r p.state (i + 1) =
          s.aboardAfter k r stop p.state i (s.carried k r p.state i) := by rw [carried, hstop]
      have hoffered : s.offeredAt k r p.state i = if i ≠ 0 ∧ stop.canFinish s.dir = true then
          s.alighted (s.positionAt r i) stop.location (s.carried k r p.state i) else [] := by
        rw [offeredAt, hstop]
      rw [aboardAfter_congr (fun l v => hscans.start_eq _ l v) stop i, hcarried, hoffered, hq, ih]
      by_cases hleave : i ≠ 0 ∧ stop.canFinish s.dir = true
      · rw [if_pos hleave, if_pos hleave, leaveTrips_eq]
      · rw [if_neg hleave, if_neg hleave]
        rfl

lemma scanRoute_eq_foldl (s : Search) (k : Nat) (p : Progress) (r : RouteIndex) :
    s.scanRoute k p r = (s.offered k r p.state).foldl s.offerArrival p := by
  rw [scanRoute_eq, scanned_eq]
  rfl

/-- The routes of a round are scanned by offering all of their arrivals. -/
lemma scanRoutes_eq_foldl (s : Search) (k : Nat) (routes : List RouteIndex) (p : Progress) :
    routes.foldl (s.scanRoute k) p =
      (routes.flatMap fun r => s.offered k r p.state).foldl s.offerArrival p := by
  induction routes generalizing p with
  | nil => rfl
  | cons r routes ih =>
    have hscans := s.scans_scanRoute k r p
    have hsame : ∀ r', s.offered k r' (s.scanRoute k p r).state = s.offered k r' p.state :=
      fun r' => offered_congr fun l v => hscans.start_eq _ l v
    rw [List.foldl_cons, ih, List.flatMap_cons, List.foldl_append, ← scanRoute_eq_foldl]
    simp only [hsame]

/-- Scanning the routes of a round in any order leaves the same working times and the same marks, and
everything else as it was before. -/
theorem scanRoutes_perm {routes others : List RouteIndex} (s : Search) (k : Nat) (p : Progress)
    (h : others.Perm routes) :
    others.foldl (s.scanRoute k) p = routes.foldl (s.scanRoute k) p ∧
      ∃ tmp marks, others.foldl (s.scanRoute k) p =
        { p with state := { p.state with tmp := tmp, marks := marks } } := by
  refine ⟨?_, _, _, (s.scans_scanRoutes k others p).same⟩
  rw [scanRoutes_eq_foldl, scanRoutes_eq_foldl]
  exact (h.flatMap_right _).foldl_eq' (fun a _ b _ p => s.offerArrival_comm p a b) p

end Search

namespace Express

/-- Someone is at the first place. -/
def seeded : Progress := search.seed (search.prepare state)

/-- The slow line reaches the last place at eleven, whether it is scanned first or last. -/
theorem scanRoutes_perm_seeded :
    Search.at? timetable query (TwoVehicles.clock 470) = some search ∧
    [⟨1⟩, ⟨2⟩, ⟨0⟩].foldl (search.scanRoute 1) seeded =
      [⟨0⟩, ⟨1⟩, ⟨2⟩].foldl (search.scanRoute 1) seeded ∧
    ([⟨1⟩, ⟨2⟩, ⟨0⟩].foldl (search.scanRoute 1) seeded).state.tmp.time ⟨2⟩ 0 = .ofMinutes 660 := by
  have hperm : [⟨1⟩, ⟨2⟩, ⟨0⟩].Perm ([⟨0⟩, ⟨1⟩, ⟨2⟩] : List RouteIndex) := by decide
  obtain ⟨hsame, _⟩ := search.scanRoutes_perm 1 seeded hperm
  refine ⟨at?_eq, hsame, ?_⟩
  rw [hsame]
  decide +kernel

end Express

end JourneyPlanner
