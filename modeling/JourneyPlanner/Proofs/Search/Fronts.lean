import JourneyPlanner.Proofs.Search.Departing
import JourneyPlanner.Proofs.Search.Extending

/-!
# Answers are fronts

The journeys of an answer are in the strict order of their keys, and none of them dominates
another one. For an instant this rests on the rounds: the way to the destination of a round is
better than those of all rounds before it. For an interval it rests on the filter.
-/

namespace JourneyPlanner

namespace Journey

variable {a b : Journey} {js : List Journey}

/-- Strictly before in the order of departures, then of arrivals, then of numbers of transfers. -/
def Precedes (a b : Journey) : Prop :=
  a.departure < b.departure ∨ (a.departure = b.departure ∧
    (a.arrival < b.arrival ∨ (a.arrival = b.arrival ∧ a.nbOfTransfers < b.nbOfTransfers)))

/-- Journeys in strict order, none of which dominates another one. -/
structure IsFront (js : List Journey) : Prop where
  increasing : js.Pairwise Precedes
  antichain : ∀ a ∈ js, ∀ b ∈ js, a.dominates b = false

lemma precedes_iff : Precedes a b ↔ keyLe a b = true ∧ sameKey a b = false := by
  have heq : ∀ t u : Instant, t = u ↔ t.minutes = u.minutes :=
    fun t u => ⟨congrArg Instant.minutes, Instant.ext⟩
  rw [← Bool.not_eq_true, keyLe_iff, sameKey_iff, Precedes, heq, heq]
  change a.departure.minutes < b.departure.minutes ∨ (a.departure.minutes = b.departure.minutes ∧
    (a.arrival.minutes < b.arrival.minutes ∨ (a.arrival.minutes = b.arrival.minutes ∧
      a.nbOfTransfers < b.nbOfTransfers))) ↔ _
  omega

lemma precedes_of_keyLe (h : keyLe a b = true) (hne : a.nbOfTransfers ≠ b.nbOfTransfers) :
    Precedes a b := by
  refine precedes_iff.2 ⟨h, ?_⟩
  rw [← Bool.not_eq_true, sameKey_iff]
  exact fun hsame => hne hsame.2.2

lemma dominates_self (a : Journey) : a.dominates a = false := by
  rw [← Bool.not_eq_true, dominates_iff]
  omega

lemma pairwise_sortByKey (js : List Journey) :
    (sortByKey js).Pairwise fun a b => keyLe a b = true :=
  List.pairwise_mergeSort journeyLe_trans journeyLe_total js

lemma pairwise_dropRepeats (hsorted : js.Pairwise fun a b => keyLe a b = true) :
    (dropRepeats js).Pairwise Precedes := by
  fun_induction dropRepeats js with
  | case1 => exact .nil
  | case2 first rest ih =>
    obtain ⟨hfirst, hrest⟩ := List.pairwise_cons.1 hsorted
    refine List.pairwise_cons.2 ⟨fun b hb => ?_, ih (hrest.sublist (List.dropWhile_sublist _))⟩
    have hmem := mem_of_mem_dropRepeats hb
    rw [dropWhile_sameKey hsorted] at hmem
    obtain ⟨hmem, hother⟩ := List.mem_filter.1 hmem
    exact precedes_iff.2 ⟨hfirst b hmem, Bool.not_eq_true' _ ▸ hother⟩

/-- What the filter leaves is sorted already. -/
lemma sortByKey_of_increasing (h : js.Pairwise Precedes) : sortByKey js = js :=
  List.mergeSort_of_pairwise (h.imp fun hab => (precedes_iff.1 hab).1)

theorem isFront_paretoFilter (js : List Journey) : IsFront (paretoFilter js) := by
  have hdistinct := pairwise_dropRepeats (pairwise_sortByKey js)
  refine ⟨hdistinct.sublist List.filter_sublist, fun a ha b hb => ?_⟩
  have hkept := (List.mem_filter.1 hb).2
  rw [Bool.not_eq_true', List.any_eq_false] at hkept
  exact Bool.eq_false_iff.2 (hkept a (List.mem_filter.1 ha).1)

end Journey

namespace Query

variable {q : Query} {a b : Journey} {js : List Journey}

/-- Each further transfer is worth it: there is one journey for each number of transfers at most,
and one with more transfers ends, in search order, before all those with fewer. -/
structure Improving (q : Query) (js : List Journey) : Prop where
  one_each : (js.map (·.nbOfTransfers)).Nodup
  better : ∀ a ∈ js, ∀ b ∈ js, a.nbOfTransfers < b.nbOfTransfers →
    q.direction.isBetterInstant (q.foundEnd b) (q.foundEnd a) = true

/-- A journey needs more transfers than another one and ends before it, in search order. -/
def Repays (q : Query) (a b : Journey) : Prop :=
  a.nbOfTransfers < b.nbOfTransfers ∧
    q.direction.isBetterInstant (q.foundEnd b) (q.foundEnd a) = true

lemma isBetterInstant_iff (dir : Direction) (t u : Instant) :
    dir.isBetterInstant t u = true ↔ dir.sign t.minutes < dir.sign u.minutes := by
  cases dir with
  | forward => exact decide_eq_true_iff
  | backward =>
    have hneg : -t.minutes < -u.minutes ↔ u.minutes < t.minutes := by omega
    exact decide_eq_true_iff.trans hneg.symm

/-- One of two journeys repays the transfers that it needs more than the other one. -/
def Apart (q : Query) (a b : Journey) : Prop := q.Repays a b ∨ q.Repays b a

instance : Std.Symm q.Apart := ⟨fun _ _ h => h.symm⟩

namespace Apart

lemma transfers_ne (h : q.Apart a b) : a.nbOfTransfers ≠ b.nbOfTransfers := by
  rcases h with hab | hba
  · exact Nat.ne_of_lt hab.1
  · exact Nat.ne_of_gt hba.1

lemma not_dominates (h : q.Apart a b) : a.dominates b = false := by
  rw [← Bool.not_eq_true, Journey.dominates_iff]
  rcases h with ⟨htransfers, hbetter⟩ | ⟨htransfers, _⟩
  · unfold foundEnd at hbetter
    cases hdir : q.direction with
    | forward =>
      rw [hdir] at hbetter
      have hlt : b.arrival.minutes < a.arrival.minutes := of_decide_eq_true hbetter
      omega
    | backward =>
      rw [hdir] at hbetter
      have hlt : a.departure.minutes < b.departure.minutes := of_decide_eq_true hbetter
      omega
  · omega

end Apart

/-- Journeys each of which repays its transfers are a front once they are sorted. -/
lemma isFront_of_repays (h : js.Pairwise q.Repays) :
    Journey.IsFront (Journey.sortByKey js) ∧ q.Improving (Journey.sortByKey js) := by
  have hperm : (Journey.sortByKey js).Perm js := List.mergeSort_perm js Journey.keyLe
  have hapart : (Journey.sortByKey js).Pairwise q.Apart :=
    (hperm.pairwise_iff Or.symm).2 (h.imp fun hab => .inl hab)
  refine ⟨⟨?_, ?_⟩, ⟨?_, ?_⟩⟩
  · exact (Journey.pairwise_sortByKey js).imp₂
      (fun _ _ hle hab => Journey.precedes_of_keyLe hle hab.transfers_ne) hapart
  · intro a ha b hb
    by_cases heq : a = b
    · rw [heq]
      exact b.dominates_self
    · exact (hapart.forall ha hb heq).not_dominates
  · rw [List.Nodup, List.pairwise_map]
    exact hapart.imp fun hab => hab.transfers_ne
  · intro a ha b hb hlt
    have hne : a ≠ b := fun heq => Nat.ne_of_lt hlt (by rw [heq])
    rcases hapart.forall ha hb hne with hab | hba
    · exact hab.2
    · exact absurd hba.1 (Nat.lt_asymm hlt)

end Query

namespace Search

variable {s : Search} {p : Progress} {k locations levels : Nat}

/-- After round `k`, every way to the destination is better than those of the rounds before, and
none is better than the best one. -/
structure Descends (s : Search) (k : Nat) (p : Progress) : Prop where
  best_le : ∀ {j h}, p.hit? j = some h → s.dir.cost p.bestDestination ≤ s.dir.cost h.destinationTime
  hit_lt : ∀ {i j x y}, i < j → p.hit? i = some x → p.hit? j = some y →
    s.dir.cost y.destinationTime < s.dir.cost x.destinationTime
  hit_none : ∀ {j}, k < j → p.hit? j = none

lemma Descends.congr {p' : Progress} (h : s.Descends k p) (hhit : ∀ j, p'.hit? j = p.hit? j)
    (hbest : p'.bestDestination = p.bestDestination) : s.Descends k p' := by
  refine ⟨?_, ?_, ?_⟩
  · intro j x hx
    rw [hhit] at hx
    rw [hbest]
    exact h.best_le hx
  · intro i j x y hij hx hy
    rw [hhit] at hx hy
    exact h.hit_lt hij hx hy
  · intro j hj
    rw [hhit]
    exact h.hit_none hj

lemma Descends.improveStart (h : s.Descends k p) (j : Nat) (l : LocationIndex) (v : Nat)
    (t : RelTime) : s.Descends k (s.improveStart j l v t p) := by
  rcases improveStart_cases s j l v t p with ⟨heq, _⟩ | ⟨heq, _⟩ <;> rw [heq]
  · exact h
  · exact h.congr (fun _ => rfl) rfl

lemma Descends.reachDestination (hp : p.Fits locations levels) (hk : k < maxRounds)
    (h : s.Descends k p) (a : Arrival) (w : Option Walk) (l : LocationIndex) (v : Nat)
    (t : RelTime) : s.Descends k (s.reachDestination k a w l v t p) := by
  rcases reachDestination_cases s k a w l v t p with ⟨heq, _⟩ | ⟨egress, _, hlt, heq⟩
  · rw [heq]
    exact h
  · have hhit := fun j => hit?_setIfInBounds p k j
      ⟨a, w, l, t, egress, s.dir.add t egress.duration⟩ (s.dir.add t egress.duration)
      (by rw [hp.hits_size]; exact hk)
    rw [heq]
    refine ⟨?_, ?_, ?_⟩
    · intro j x hx
      rw [hhit] at hx
      split at hx
      · cases hx
        exact Int.le_refl _
      · exact Int.le_of_lt (Int.lt_of_lt_of_le hlt (h.best_le hx))
    · intro i j x y hij hx hy
      rw [hhit] at hx hy
      -- the new way is that of the last round, and better than the best one before it
      by_cases hi : i = k
      · rw [if_neg (by omega), h.hit_none (by omega)] at hy
        cases hy
      · rw [if_neg hi] at hx
        by_cases hj : j = k
        · rw [if_pos hj] at hy
          cases hy
          exact Int.lt_of_lt_of_le hlt (h.best_le hx)
        · rw [if_neg hj] at hy
          exact h.hit_lt hij hx hy
    · intro j hj
      rw [hhit, if_neg (Nat.ne_of_gt hj)]
      exact h.hit_none hj

lemma Descends.transferAll (hp : p.Fits locations levels) (hk : k < maxRounds)
    (h : s.Descends k p) : s.Descends k (s.transferAll k p) := by
  refine transferAll_keeps hp ?_ ?_ (h.congr (fun _ => rfl) rfl)
  · intro q a w l v t hq _ _ _ hdescends
    exact hdescends.reachDestination hq hk a w l v t
  · intro q a w l v t _ _ _ _ hdescends
    exact hdescends.improveStart k l v t

lemma Descends.roundOver (hp : p.Fits locations levels) (hk : k + 1 < maxRounds)
    (h : s.Descends k p) (routes : List RouteIndex) :
    s.Descends (k + 1) (s.roundOver routes (k + 1) p) := by
  have hscans := scans_scanRoutes s (k + 1) routes (p.mapState (·.rotateMarks))
  have hscanned : s.Descends k (s.afterScans routes (k + 1) p) :=
    h.congr hscans.hit_eq hscans.bestDestination_eq
  have hnext : s.Descends (k + 1) (s.afterScans routes (k + 1) p) :=
    ⟨hscanned.best_le, hscanned.hit_lt, fun hj => hscanned.hit_none (Nat.lt_of_succ_lt hj)⟩
  rw [roundOver_eq]
  exact (hnext.transferAll (fits_afterScans hp s routes (k + 1)) hk).congr (fun _ => rfl) rfl

lemma descends_seed (s : Search) (st : SearchState) : s.Descends 0 (s.seed (s.prepare st)) := by
  have hnone : ∀ j, (s.seed (s.prepare st)).hit? j = none :=
    fun j => (hit?_seeds s (s.prepare st) j).trans (hit?_prepare s st j)
  refine ⟨?_, ?_, fun _ => hnone _⟩
  · intro j h hj
    rw [hnone] at hj
    cases hj
  · intro i j x y _ hx _
    rw [hnone] at hx
    cases hx

lemma descends_explore (s : Search) (hmax : s.query.maxTransfers ≤ maxTransfers)
    (st : SearchState) : ∃ k ≤ s.query.maxTransfers + 1, s.Descends k (s.explore st).1 := by
  obtain ⟨k, hk, _, hlast⟩ := explore_reaches
    (M := fun k p => p.Fits st.nbOfLocations st.levels ∧ s.Descends k p) hmax
    (fun _ p hk h => ⟨fits_roundOver h.1 s (s.routesToScan p.state) _, h.2.roundOver h.1 hk _⟩)
    ⟨fits_seed s st, descends_seed s st⟩
  exact ⟨k, hk, hlast⟩

lemma Told.pairwise_journeys (htold : s.Told) (hw : s.timetable.WellFormed)
    (hanchored : s.Anchored) (hmax : s.query.maxTransfers ≤ maxTransfers) (st : SearchState) :
    (s.journeys (s.explore st).1).Pairwise s.query.Repays := by
  obtain ⟨_, _, hdescends⟩ := descends_explore s hmax st
  obtain ⟨_, _, htraced⟩ := traced_explore hw hmax st
  -- a journey ends when the way to the destination of its round does
  have hfound : ∀ {k j}, s.journeyIn? (s.explore st).1 k = some j → 1 ≤ k ∧
      ∃ h, (s.explore st).1.hit? k = some h ∧
        s.dir.sign (s.query.foundEnd j).minutes =
          s.dir.sign s.midnight + s.dir.cost h.destinationTime := by
    intro k j hj
    obtain ⟨h, hh, hfilter⟩ := Option.bind_eq_some_iff.1 hj
    obtain ⟨before, _, _, hjourney⟩ := htraced.exists_journeyOf? hw hanchored hh
    cases hjourney.symm.trans (Option.filter_eq_some_iff.1 hfilter).1
    have hfeasible := (htraced.hits k h hh).2.1.feasible
    have hend := (instant?_eq (s := s) hfeasible).symm.trans (foundEnd_journey hfeasible k before)
    refine ⟨(htraced.round_range hh).1, h, hh, ?_⟩
    rw [← Option.some.inj hend]
    exact htold.sign_instantOf hfeasible
  rw [journeys_eq, List.pairwise_filterMap]
  refine (List.pairwise_lt_range' 1).imp ?_
  intro i k hik a ha b hb
  obtain ⟨hi, x, hx, hsign⟩ := hfound ha
  obtain ⟨_, y, hy, hsign'⟩ := hfound hb
  have hlt := hdescends.hit_lt hik hx hy
  refine ⟨?_, (Query.isBetterInstant_iff _ _ _).2 ?_⟩
  · rw [nbOfTransfers_of_journeyIn? ha, nbOfTransfers_of_journeyIn? hb]
    omega
  · change s.dir.sign _ < s.dir.sign _
    omega

end Search

namespace Planner

variable {p : Planner}

lemma pairwise_searchFrom (hw : p.timetable.WellFormed) (hfit : p.timetable.calendar.InstantsFit)
    (hmax : p.query.maxTransfers ≤ maxTransfers) (t : Instant) :
    (p.searchFrom t).1.Pairwise p.query.Repays := by
  cases hsearch : Search.at? p.timetable p.query t with
  | none =>
    rw [searchFrom_of_none hsearch]
    exact .nil
  | some s =>
    obtain ⟨htimetable, hquery, hanchored, _, hbase⟩ := Search.at?_sound hsearch
    rw [searchFrom_eq hsearch, ← hquery]
    rw [← htimetable] at hw hfit hbase
    rw [← hquery] at hmax
    have htold : s.Told := ⟨hfit, hbase⟩
    exact htold.pairwise_journeys hw hanchored hmax p.state

lemma isFront_run_of_interval {first last : Instant} (h : p.query.startTime = .interval first last) :
    Journey.IsFront p.run.1 := by
  have hfront := Journey.isFront_paretoFilter ((p.query.startInstants p.timetable first last).flatMap
    fun t => (p.searchFrom t).1)
  rw [run_of_interval h, Journey.sortByKey_of_increasing hfront.increasing]
  exact hfront

end Planner

/-- The journeys of an answer are a front. For an instant, each further transfer is worth it. -/
theorem isFront_run {tt : Timetable} (hbuilt : tt.IsBuilt) (hfit : tt.calendar.InstantsFit)
    {accepting : SearchState} {q : Query} {planner : Planner}
    (haccept : Planner.accept tt accepting q = .ok planner) :
    Journey.IsFront planner.run.1 ∧ ∀ t, q.startTime = .instant t → q.Improving planner.run.1 := by
  obtain ⟨hplanner, hfits, _⟩ := Planner.accept_eq_ok_iff.1 haccept
  have htimetable : planner.timetable = tt := by rw [hplanner]
  have hquery : planner.query = q := by rw [hplanner]
  subst htimetable
  subst hquery
  cases hstart : planner.query.startTime with
  | interval first last =>
    refine ⟨Planner.isFront_run_of_interval hstart, fun t ht => ?_⟩
    cases ht
  | instant t =>
    have hrepays := Planner.pairwise_searchFrom hbuilt.wellFormed hfit hfits.maxTransfers_le t
    rw [Planner.run_of_instant hstart]
    obtain ⟨hfront, himproving⟩ := Query.isFront_of_repays hrepays
    exact ⟨hfront, fun _ _ => himproving⟩

namespace Express

open TwoVehicles (calendar place serviceDay clock)

/-- A slow line from the first place to the last one, and two fast lines by way of another place. -/
def calls : List Call :=
  [.location (place "a"), .location (place "b"), .location (place "c"),
    .serviceDays ((ServiceDays.empty calendar).insert serviceDay),
    .route [⟨⟨0⟩, true, true⟩, ⟨⟨2⟩, true, true⟩] [.bus] [false],
    .transport ⟨0⟩ ⟨"slow", ⟨0⟩, [480, 660].map fun time => ⟨.ofNat time, .ofNat time⟩, []⟩,
    .finishRoute,
    .route [⟨⟨0⟩, true, true⟩, ⟨⟨1⟩, true, true⟩] [.bus] [false],
    .transport ⟨1⟩ ⟨"fast", ⟨0⟩, [480, 500].map fun time => ⟨.ofNat time, .ofNat time⟩, []⟩,
    .finishRoute,
    .route [⟨⟨1⟩, true, true⟩, ⟨⟨2⟩, true, true⟩] [.bus] [false],
    .transport ⟨2⟩ ⟨"faster", ⟨0⟩, [510, 540].map fun time => ⟨.ofNat time, .ofNat time⟩, []⟩,
    .finishRoute]

def timetable : Timetable :=
  let b := ((Builder.new calendar).run calls).2
  { calendar := b.calendar
    locations := b.locations
    children := .ofKeyed 3 []
    serviceDays := b.serviceDays
    routes := b.routes
    bikes := .ofRegister b.bikes
    transports := b.transports
    routesByLocation := ⟨#[⟨0⟩, ⟨1⟩, ⟨1⟩, ⟨2⟩, ⟨0⟩, ⟨2⟩], #[2, 4, 6], by decide, rfl⟩
    footpathsFrom := .ofKeyed 3 []
    footpathsTo := .ofKeyed 3 []
    timedFootpathsFrom := .ofKeyed 3 []
    timedFootpathsTo := .ofKeyed 3 [] }

lemma isBuilt : timetable.IsBuilt := ⟨calendar, calls, by cbv⟩

lemma instantsFit : timetable.calendar.InstantsFit := by
  have hcalendar : timetable.calendar = calendar := by cbv
  rw [hcalendar]
  exact TwoVehicles.instantsFit_calendar

def query : Query :=
  { TwoVehicles.query with
    startTime := .instant (clock 470)
    destination := [⟨⟨2⟩, .zero, 0⟩] }

def state : SearchState := .sized 1 3 3 0

def planner : Planner := ⟨timetable, query, state, 0⟩

def search : Search := ⟨timetable, query, serviceDay, .ofMinutes 470⟩

lemma accept_eq : Planner.accept timetable state query = .ok planner := by cbv

lemma at?_eq : Search.at? timetable query (clock 470) = some search := by cbv

/-- The change of vehicles saves two hours, and both journeys are told. -/
theorem isFront_run_planner : planner.run.1.length = 2 ∧
    Journey.IsFront planner.run.1 ∧ query.Improving planner.run.1 := by
  have haccept : Planner.accept timetable state query = .ok planner := by cbv
  have hlength : (planner.searchFrom (clock 470)).1.length = 2 := by decide +kernel
  obtain ⟨hfront, himproving⟩ := isFront_run isBuilt instantsFit haccept
  refine ⟨?_, hfront, himproving (clock 470) rfl⟩
  rw [Planner.run_of_instant rfl, Journey.sortByKey, List.length_mergeSort]
  exact hlength

end Express

end JourneyPlanner
