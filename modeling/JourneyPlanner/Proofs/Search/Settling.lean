import JourneyPlanner.Proofs.Search.Sweeping

/-!
# What a round settles

A round scans only the routes at the locations improved in the round before, and drops every time
that is no better than the best one known. Nothing is lost: what could be reached is known to be
reached as early, with no more vehicles, unless the destination is.
-/

namespace JourneyPlanner

open Progress (Scans Leaves)

namespace Progress

variable {dir : Direction} {p p' : Progress} {l : LocationIndex} {v : Nat} {t t' : RelTime}

/-- After a round, a vehicle is known to reach a location by a time, or the destination is. -/
def HasArrival (dir : Direction) (p : Progress) (l : LocationIndex) (v : Nat) (t : RelTime) :
    Prop :=
  dir.cost (p.state.best.time l v) ≤ dir.cost t ∨ dir.cost p.bestDestination ≤ dir.cost t

/-- After a round, a location is known to be left by a time, or the destination is reached. -/
def HasStart (dir : Direction) (p : Progress) (l : LocationIndex) (v : Nat) (t : RelTime) : Prop :=
  dir.cost (p.state.bestStart.time l v) ≤ dir.cost t ∨ dir.cost p.bestDestination ≤ dir.cost t

lemma HasStart.mono (h : p.HasStart dir l v t) (hle : dir.cost t ≤ dir.cost t') :
    p.HasStart dir l v t' :=
  h.imp (fun h => Int.le_trans h hle) fun h => Int.le_trans h hle

/-- Nothing that is known has become worse. -/
structure Improves (dir : Direction) (p p' : Progress) : Prop where
  best_le : ∀ l v, dir.cost (p'.state.best.time l v) ≤ dir.cost (p.state.best.time l v)
  bestStart_le : ∀ l v,
    dir.cost (p'.state.bestStart.time l v) ≤ dir.cost (p.state.bestStart.time l v)
  destination_le : dir.cost p'.bestDestination ≤ dir.cost p.bestDestination

lemma HasArrival.improves (h : p.HasArrival dir l v t) (hp : Improves dir p p') :
    p'.HasArrival dir l v t :=
  h.imp (Int.le_trans (hp.best_le l v)) (Int.le_trans hp.destination_le)

lemma HasStart.improves (h : p.HasStart dir l v t) (hp : Improves dir p p') :
    p'.HasStart dir l v t :=
  h.imp (Int.le_trans (hp.bestStart_le l v)) (Int.le_trans hp.destination_le)

end Progress

namespace Search

variable {s : Search} {p q : Progress} {k : Nat} {l : LocationIndex} {v : Nat} {t : RelTime}
  {a : Arrival} {routes : List RouteIndex} {locations levels : Nat}

lemma best_roundOver (hp : p.Fits locations levels) (l : LocationIndex) (v : Nat) :
    (s.roundOver routes k p).state.best.time l v =
      s.dir.best (p.state.best.time l v) ((s.afterScans routes k p).state.tmp.time l v) := by
  have hscans := scans_scanRoutes s k routes (p.mapState (·.rotateMarks))
  have hleaves := leaves_transferAll s k (s.afterScans routes k p)
  have hfits := fits_transferAll (fits_afterScans hp s routes k) s k
  rw [roundOver_eq]
  show (SearchState.finishRound _ _ _).best.time l v = _
  rw [hfits.state.best_finishRound, hleaves.best_eq, hleaves.tmp_eq]
  show s.dir.best ((s.afterScans routes k p).state.best.time l v) _ = _
  unfold afterScans
  rw [hscans.best_eq]
  rfl

lemma bestStart_roundOver (hp : p.Fits locations levels) (hk : k < maxRounds)
    (l : LocationIndex) (v : Nat) : (s.roundOver routes k p).state.bestStart.time l v =
      s.dir.best (p.state.bestStart.time l v) ((s.roundOver routes k p).state.start k l v) := by
  have hscans := scans_scanRoutes s k routes (p.mapState (·.rotateMarks))
  have hleaves := leaves_transferAll s k (s.afterScans routes k p)
  have hfits := fits_transferAll (fits_afterScans hp s routes k) s k
  rw [roundOver_eq]
  show (SearchState.finishRound _ _ _).bestStart.time l v = _
  rw [hfits.state.bestStart_finishRound _ hk, hleaves.bestStart_eq]
  show s.dir.best ((s.afterScans routes k p).state.bestStart.time l v) _ = _
  unfold afterScans
  rw [hscans.bestStart_eq]
  rfl

lemma bestDestination_afterScans (s : Search) (routes : List RouteIndex) (k : Nat)
    (p : Progress) : (s.afterScans routes k p).bestDestination = p.bestDestination :=
  (scans_scanRoutes s k routes (p.mapState (·.rotateMarks))).bestDestination_eq

lemma start_afterScans (s : Search) (routes : List RouteIndex) (k : Nat) (p : Progress) (j : Nat)
    (l : LocationIndex) (v : Nat) :
    (s.afterScans routes k p).state.start j l v = p.state.start j l v :=
  (scans_scanRoutes s k routes (p.mapState (·.rotateMarks))).start_eq j l v

lemma improves_roundOver (hp : p.Fits locations levels) (hk : k < maxRounds) (s : Search)
    (routes : List RouteIndex) :
    p.Improves s.dir (s.roundOver routes k p) := by
  refine ⟨fun l v => ?_, fun l v => ?_, ?_⟩
  · rw [best_roundOver hp, Direction.cost_best]
    exact Int.min_le_left _ _
  · rw [bestStart_roundOver hp hk, Direction.cost_best]
    exact Int.min_le_left _ _
  · rw [← bestDestination_afterScans s routes k p]
    exact (leaves_transferAll s k (s.afterScans routes k p)).best_le

/-- What is known when the routes have been scanned is known after the round. -/
lemma hasArrival_of_knows (hp : p.Fits locations levels) (hk : k < maxRounds)
    (h : (s.afterScans routes k p).KnowsArrival s.dir l v t) :
    (s.roundOver routes k p).HasArrival s.dir l v t := by
  have himproves := improves_roundOver hp hk s routes
  have hbest : (s.afterScans routes k p).state.best = p.state.best :=
    (scans_scanRoutes s k routes (p.mapState (·.rotateMarks))).best_eq
  rcases h with h | h | h
  · left
    rw [best_roundOver hp, Direction.cost_best]
    exact Int.le_trans (Int.min_le_right _ _) h
  · left
    rw [hbest] at h
    exact Int.le_trans (himproves.best_le l v) h
  · right
    rw [bestDestination_afterScans] at h
    exact Int.le_trans himproves.destination_le h

/-- What is known when the vehicles have been left is known after the round. -/
lemma hasStart_of_knows (hp : p.Fits locations levels) (hk : k < maxRounds)
    (h : (s.transferAll k (s.afterScans routes k p)).KnowsStart s.dir k l v t) :
    (s.roundOver routes k p).HasStart s.dir l v t := by
  have himproves := improves_roundOver hp hk s routes
  have hbest : (s.transferAll k (s.afterScans routes k p)).state.bestStart = p.state.bestStart :=
    (leaves_transferAll s k (s.afterScans routes k p)).bestStart_eq.trans
      (scans_scanRoutes s k routes (p.mapState (·.rotateMarks))).bestStart_eq
  rcases h with h | h | h
  · left
    rw [bestStart_roundOver hp hk, Direction.cost_best]
    exact Int.le_trans (Int.min_le_right _ _) h
  · left
    rw [hbest] at h
    exact Int.le_trans (himproves.bestStart_le l v) h
  · exact Or.inr h

lemma target_known (hw : s.timetable.WellFormed) {w : Walk} (h : w ∈ s.walks l t) :
    w.target.val < s.timetable.nbOfLocations := by
  rcases mem_walks.1 h with ⟨f, hmem, rfl⟩ | ⟨instant, _, target, x, hx, rfl⟩
  · exact hw.footpath_known hmem
  · obtain ⟨f, hmem, rfl, _⟩ :=
      TimedFootpath.exists_entry_of_mem_walks (hw.timed_sorted s.dir l) hx
    exact hw.timed_known hmem

lemma Stands.known (hw : s.timetable.WellFormed) {w : Option Walk} (h : s.Stands a w l v t)
    (ha : a.location.val < s.timetable.nbOfLocations) (hlevel : a.level < s.levels) :
    l.val < s.timetable.nbOfLocations ∧ v < s.levels := by
  cases h with
  | here hstay => exact ⟨ha, lt_levels_of_mem_stays hstay hlevel⟩
  | walked hstay hwalk hstay' =>
    exact ⟨target_known hw hwalk,
      lt_levels_of_mem_stays hstay' (lt_levels_of_mem_stays hstay hlevel)⟩

lemma Readies.known (hw : s.timetable.WellFormed) {w : Option Walk}
    (h : s.Readies (.fromVehicle a w) l v t) (ha : a.location.val < s.timetable.nbOfLocations)
    (hlevel : a.level < s.levels) : l.val < s.timetable.nbOfLocations ∧ v < s.levels := by
  cases h with
  | transfer hstay => exact ⟨ha, lt_levels_of_mem_stays hstay hlevel⟩
  | onFoot h => exact h.known hw ha hlevel

lemma knowsStart_transferAll (hw : s.timetable.WellFormed)
    (hq : q.Fits s.timetable.nbOfLocations s.levels) (hk : k < maxRounds)
    (hmarks : MarksArrivals q) {w : Option Walk}
    (ha : a.time = q.state.tmp.time a.location a.level) (hf : a.time.isFeasible = true)
    (h : s.Readies (.fromVehicle a w) l v t) :
    (s.transferAll k q).KnowsStart s.dir k l v t := by
  rw [ha] at hf
  obtain ⟨hlocation, hlevel⟩ := hq.state.tmp.lt_of_isFeasible hf
  obtain ⟨hl, hv⟩ := h.known hw hlocation hlevel
  obtain ⟨q₁, hq₁, hafter₁⟩ := transferAll_performs (hmarks _ _ hf) hlevel hf k
  rw [← ha] at hafter₁
  obtain ⟨q₂, hq₂, hafter₂⟩ := alight_performs_start h k q₁
  have hfits := (hq₁.trans hq₂).fits_of ⟨hq.state.rotateMarks, hq.hits_size⟩
  exact ((knowsStart_improveStart hfits hk hl hv).leaves hafter₂).leaves hafter₁

lemma bestDestination_transferAll_le (hq : q.Fits s.timetable.nbOfLocations s.levels)
    (hk : k ≠ 0) (hmarks : MarksArrivals q) {w : Option Walk}
    (ha : a.time = q.state.tmp.time a.location a.level) (hf : a.time.isFeasible = true)
    (h : s.Stands a w l v t) (hlast : v + 1 = s.levels) {o : Offset}
    (ho : o ∈ s.query.destination) (hexit : q.state.isExit o.location = true)
    (hl : o.location = l) :
    s.dir.cost (s.transferAll k q).bestDestination ≤ s.dir.cost (s.dir.add t o.duration) := by
  rw [ha] at hf
  obtain ⟨_, hlevel⟩ := hq.state.tmp.lt_of_isFeasible hf
  obtain ⟨q₁, hq₁, hafter₁⟩ := transferAll_performs (hmarks _ _ hf) hlevel hf k
  rw [← ha] at hafter₁
  obtain ⟨q₂, hq₂, hafter₂⟩ := alight_performs_reach h k q₁
  have hmem : o ∈ s.query.destination.filter (·.location == l) :=
    List.mem_filter.2 ⟨ho, beq_iff_eq.2 hl⟩
  obtain ⟨egress, hegress, hduration⟩ := Offset.exists_shortest?_le hmem
  have hexits : s.Exits q₂ k l v egress := by
    refine ⟨hk, hlast, ?_, hegress⟩
    unfold SearchState.isExit at hexit ⊢
    rw [(hq₁.trans hq₂).exits_eq, ← hl]
    exact hexit
  have hreached := best_reachDestination_le hexits a w t
  exact Int.le_trans (hafter₂.trans hafter₁).best_le
    (Int.le_trans hreached (Direction.cost_add_le_add hduration))

/-- The best way to the destination is that of a round. -/
def RecordsBest (k : Nat) (p : Progress) : Prop := p.bestDestination.isFeasible = true →
  ∃ j ≤ k, ∃ h, p.hit? j = some h ∧ h.destinationTime = p.bestDestination

lemma RecordsBest.improveStart (h : RecordsBest k p) (j : Nat) (l : LocationIndex) (v : Nat)
    (t : RelTime) : RecordsBest k (s.improveStart j l v t p) := by
  rcases improveStart_cases s j l v t p with ⟨heq, _⟩ | ⟨heq, _⟩ <;> rw [heq] <;> exact h

lemma RecordsBest.reachDestination (hp : p.Fits locations levels) (hk : k < maxRounds)
    (h : RecordsBest k p) (a : Arrival) (w : Option Walk) (l : LocationIndex) (v : Nat)
    (t : RelTime) : RecordsBest k (s.reachDestination k a w l v t p) := by
  rcases reachDestination_cases s k a w l v t p with ⟨heq, _⟩ | ⟨egress, _, _, heq⟩
  · rw [heq]
    exact h
  · rw [heq]
    intro _
    refine ⟨k, Nat.le_refl k, ⟨a, w, l, t, egress, s.dir.add t egress.duration⟩, ?_, rfl⟩
    rw [hit?_setIfInBounds _ _ _ _ _ (by rw [hp.hits_size]; exact hk), if_pos rfl]

lemma recordsBest_transferAll (hq : q.Fits locations levels) (hk : k < maxRounds)
    (h : RecordsBest k q) : RecordsBest k (s.transferAll k q) := by
  refine transferAll_keeps hq ?_ ?_ h
  · intro q a w l v t hq _ _ _ hbest
    exact hbest.reachDestination hq hk a w l v t
  · intro q a w l v t _ _ _ _ hbest
    exact hbest.improveStart k l v t

lemma marksStarts_transferAll (hq : q.Fits locations levels)
    (hunreached : ∀ l v, q.state.start k l v = .infeasible) :
    MarksStarts k (s.transferAll k q) := by
  refine transferAll_keeps hq ?_ ?_ ?_
  · intro q a w l v t _ _ _ _ hmarks
    unfold MarksStarts
    rw [state_reachDestination]
    exact hmarks
  · intro q a w l v t hq _ _ _ hmarks
    exact marksStarts_improveStart hq hmarks
  · intro l v hf
    have hf' : (q.state.start k l v).isFeasible = true := hf
    rw [hunreached] at hf'
    cases hf'

/-- After a round, the marks tell every location that can be left. -/
lemma marksStarts_roundOver (hp : p.Fits locations levels)
    (hunreached : ∀ l v, p.state.start k l v = .infeasible) (routes : List RouteIndex) :
    MarksStarts k (s.roundOver routes k p) := by
  refine marksStarts_transferAll (fits_afterScans hp s routes k) fun l v => ?_
  exact (start_afterScans s routes k p k l v).trans (hunreached l v)

/-- Someone who is ready at a location at a time can ride on a near trip to an arrival. -/
def BringsNear (s : Search) (l : LocationIndex) (level : Nat) (t : RelTime) (a : Arrival) : Prop :=
  ∃ r trip board alight, s.Ride r trip board alight l level a ∧ s.InTime r trip board t ∧
    s.Near trip

/-- After round `k`, whatever can be reached in one step from what was found is known as well, and
each best time was found in some round. -/
structure Settled (s : Search) (k : Nat) (p : Progress) : Prop where
  traced : s.Traced k p
  fits : p.Fits s.timetable.nbOfLocations s.levels
  exits : ∀ o ∈ s.query.destination, p.state.isExit o.location = true
  rides : ∀ j < k, ∀ l v a, (p.state.start j l v).isFeasible = true → a.time.isFeasible = true →
    s.BringsNear l v (p.state.start j l v) a → p.HasArrival s.dir a.location a.level a.time
  starts : ∀ o w l v t, s.Readies (.fromStart o w) l v t → p.HasStart s.dir l v t
  changes : ∀ j a w l v t, a.time = p.state.finish j a.location a.level →
    a.time.isFeasible = true → s.Readies (.fromVehicle a w) l v t → p.HasStart s.dir l v t
  ends : ∀ j a w l v t o, a.time = p.state.finish j a.location a.level →
    a.time.isFeasible = true → s.Stands a w l v t → v + 1 = s.levels →
      o ∈ s.query.destination → o.location = l →
        s.dir.cost p.bestDestination ≤ s.dir.cost (s.dir.add t o.duration)
  best_found : ∀ l v, (p.state.best.time l v).isFeasible = true →
    ∃ j ≤ k, p.state.finish j l v = p.state.best.time l v
  bestStart_found : ∀ l v, (p.state.bestStart.time l v).isFeasible = true →
    ∃ j ≤ k, p.state.start j l v = p.state.bestStart.time l v
  marks : MarksStarts k p
  records : RecordsBest k p

/-- Routes among which are all that can be boarded after round `k`. -/
def Boards (s : Search) (k : Nat) (p : Progress) (routes : List RouteIndex) : Prop :=
  (∀ r ∈ routes, s.query.admits s.timetable r = true) ∧
    ∀ r i stop v, s.query.admits s.timetable r = true → s.stopAt? r i = some stop →
      (p.state.start k stop.location v).isFeasible = true → r ∈ routes

lemma isExit_roundOver (s : Search) (routes : List RouteIndex) (k : Nat) (p : Progress)
    (l : LocationIndex) : (s.roundOver routes k p).state.isExit l = p.state.isExit l := by
  have hscans := scans_scanRoutes s k routes (p.mapState (·.rotateMarks))
  have hleaves := leaves_transferAll s k (s.afterScans routes k p)
  unfold SearchState.isExit
  have hexits : (s.roundOver routes k p).state.exits = p.state.exits :=
    hleaves.exits_eq.trans hscans.exits_eq
  rw [hexits]

/-- The rides of a round bring whoever was ready after the round before. -/
lemma Settled.hasArrival (hw : s.timetable.WellFormed)
    (hordered : s.timetable.StrictlyOrdered) (hanchored : s.Anchored) (h : s.Settled k p)
    (hk : k + 1 < maxRounds) (hroutes : s.Boards k p routes)
    (hstart : (p.state.start k l v).isFeasible = true) (hf : a.time.isFeasible = true)
    (hbrings : s.BringsNear l v (p.state.start k l v) a) :
    (s.roundOver routes (k + 1) p).HasArrival s.dir a.location a.level a.time := by
  obtain ⟨r, trip, board, alight, hride, hintime, hnear⟩ := hbrings
  obtain ⟨minutes, hminutes⟩ := Direction.exists_minutes hstart
  obtain ⟨stop, hstop, hlocation, _⟩ := hride.boarded.begins
  have hr : r ∈ routes := hroutes.2 r board stop v hride.admitted hstop
    (by rw [hlocation]; exact hstart)
  have hready : s.dir.cost (p.state.start k l v) ≤
      s.dir.sign (s.boardMinutes trip (s.positionAt r board)) := by
    have hcost := hintime.cost_le
    have hboard := hintime.feasible
    rw [boardTime_eq] at hcost hboard
    rw [Direction.cost_ofMinutes hboard] at hcost
    exact hcost
  have hcatches := hanchored.catches hw hride.boarded.runs hnear hminutes
    ((h.traced.start_le hw k).1 l v) hready
  apply hasArrival_of_knows h.fits hk
  exact knowsArrival_scanRoutes (p := p.mapState (·.rotateMarks)) hw hordered hr hminutes hcatches
    hride hf (h.fits.state.lt_of_start hstart).2 ⟨h.fits.state.rotateMarks, h.fits.hits_size⟩

/-- Each best arrival of a round was found in it, or in one before. -/
lemma Settled.best_found_roundOver (h : s.Settled k p) (hk : k + 1 < maxRounds)
    (hf : ((s.roundOver routes (k + 1) p).state.best.time l v).isFeasible = true) :
    ∃ j ≤ k + 1, (s.roundOver routes (k + 1) p).state.finish j l v =
      (s.roundOver routes (k + 1) p).state.best.time l v := by
  have hfinish := finish_roundOver h.fits hk s routes
  rw [best_roundOver h.fits] at hf ⊢
  rcases s.dir.best_eq_or (p.state.best.time l v)
    ((s.afterScans routes (k + 1) p).state.tmp.time l v) with heq | heq
  · rw [heq] at hf ⊢
    obtain ⟨j, hj, hfound⟩ := h.best_found l v hf
    refine ⟨j, by omega, ?_⟩
    rw [hfinish, if_neg (by omega)]
    exact hfound
  · rw [heq]
    exact ⟨k + 1, Nat.le_refl _, (hfinish _ _ _).trans (if_pos rfl)⟩

/-- Each best start of a round was found in it, or in one before. -/
lemma Settled.bestStart_found_roundOver (h : s.Settled k p) (hk : k + 1 < maxRounds)
    (hf : ((s.roundOver routes (k + 1) p).state.bestStart.time l v).isFeasible = true) :
    ∃ j ≤ k + 1, (s.roundOver routes (k + 1) p).state.start j l v =
      (s.roundOver routes (k + 1) p).state.bestStart.time l v := by
  rw [bestStart_roundOver h.fits hk] at hf ⊢
  rcases s.dir.best_eq_or (p.state.bestStart.time l v)
    ((s.roundOver routes (k + 1) p).state.start (k + 1) l v) with heq | heq
  · rw [heq] at hf ⊢
    obtain ⟨j, hj, hfound⟩ := h.bestStart_found l v hf
    refine ⟨j, by omega, ?_⟩
    rw [start_roundOver (by omega)]
    exact hfound
  · rw [heq]
    exact ⟨k + 1, Nat.le_refl _, rfl⟩

lemma Settled.roundOver (hw : s.timetable.WellFormed) (hordered : s.timetable.StrictlyOrdered)
    (hanchored : s.Anchored) (h : s.Settled k p) (hk : k + 1 < maxRounds)
    (hroutes : s.Boards k p routes) : s.Settled (k + 1) (s.roundOver routes (k + 1) p) := by
  have himproves := improves_roundOver h.fits hk s routes
  have hfits := fits_afterScans h.fits s routes (k + 1)
  have hfinish := finish_roundOver h.fits hk s routes
  have hfits₀ : (p.mapState (·.rotateMarks)).Fits s.timetable.nbOfLocations s.levels :=
    ⟨h.fits.state.rotateMarks, h.fits.hits_size⟩
  have hmarks : MarksArrivals (s.afterScans routes (k + 1) p) := by
    refine marksArrivals_scanRoutes hfits₀ ?_ (k + 1) routes
    intro l v hf
    have hf' : (p.state.tmp.time l v).isFeasible = true := hf
    rw [h.traced.tmp_unreached] at hf'
    cases hf'
  have hscans := scans_scanRoutes s (k + 1) routes (p.mapState (·.rotateMarks))
  refine ⟨h.traced.roundOver hw hk hroutes.1, fits_roundOver h.fits s routes (k + 1), ?_, ?_, ?_,
    ?_, ?_, fun _ _ => h.best_found_roundOver hk, fun _ _ => h.bestStart_found_roundOver hk, ?_, ?_⟩
  · intro o ho
    rw [isExit_roundOver]
    exact h.exits o ho
  · intro j hj l v a hstart hf hbrings
    rw [start_roundOver (by omega)] at hstart hbrings
    by_cases hjk : j = k
    · subst hjk
      exact h.hasArrival hw hordered hanchored hk hroutes hstart hf hbrings
    · exact (h.rides j (by omega) l v a hstart hf hbrings).improves himproves
  · intro o w l v t hready
    exact (h.starts o w l v t hready).improves himproves
  · intro j a w l v t ha hf hready
    rw [hfinish] at ha
    split at ha
    · exact hasStart_of_knows h.fits hk (knowsStart_transferAll hw hfits hk hmarks ha hf hready)
    · exact (h.changes j a w l v t ha hf hready).improves himproves
  · intro j a w l v t o ha hf hstands hlast ho hl
    rw [hfinish] at ha
    split at ha
    · have hexit : (s.afterScans routes (k + 1) p).state.isExit o.location = true := by
        have hexits : (s.afterScans routes (k + 1) p).state.exits = p.state.exits :=
          hscans.exits_eq
        unfold SearchState.isExit
        rw [hexits]
        exact h.exits o ho
      exact bestDestination_transferAll_le hfits (Nat.succ_ne_zero k) hmarks ha hf hstands hlast ho
        hexit hl
    · exact Int.le_trans himproves.destination_le (h.ends j a w l v t o ha hf hstands hlast ho hl)
  · exact marksStarts_roundOver h.fits
      (fun l v => h.traced.start_unreached _ l v (Nat.lt_succ_self k)) routes
  · have hbest := bestDestination_afterScans s routes (k + 1) p
    refine recordsBest_transferAll hfits hk fun hf => ?_
    have hf' : p.bestDestination.isFeasible = true := by
      rw [← hbest]
      exact hf
    obtain ⟨j, hj, x, hx, htime⟩ := h.records hf'
    exact ⟨j, by omega, x, (hscans.hit_eq j).trans hx, htime.trans hbest.symm⟩

end Search

end JourneyPlanner
