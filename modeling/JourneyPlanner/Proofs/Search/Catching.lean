import JourneyPlanner.Proofs.Network.Overtaking
import JourneyPlanner.Proofs.Search.FirstTrip

/-!
# Catching a trip

The trip that is taken at a stop is a best one of all that can be caught there on the days that are
looked at. How far these days reach decides the rest: whoever is ready earlier still catches a trip
of theirs, and every trip of the same day or the next one is among them, but for one service day of
a backward search.
-/

namespace JourneyPlanner

namespace Direction

/-- A service day does not lie beyond the last one, in search order, that is looked at for someone
who is ready on a day. -/
def Reaches (dir : Direction) (readyDay day : Int) : Prop :=
  match dir with
  | forward => day ≤ readyDay + 1
  | backward => readyDay - 4 ≤ day

instance (dir : Direction) (readyDay day : Int) : Decidable (dir.Reaches readyDay day) := by
  cases dir <;> exact inferInstanceAs (Decidable (_ ≤ _))

/-- Whoever is ready earlier looks at the same days, as far as these reach. -/
lemma mem_tripDays_of_reaches {dir : Direction} {ready ready' day : Int}
    (hle : dir.sign ready ≤ dir.sign ready') (hday : day ∈ dir.tripDays (ready' / 1440))
    (hreaches : dir.Reaches (ready / 1440) day) : day ∈ dir.tripDays (ready / 1440) := by
  unfold Reaches at hreaches
  cases dir with
  | forward =>
    simp only [sign_forward] at hle
    rw [mem_tripDays_forward] at hday ⊢
    omega
  | backward =>
    simp only [sign_backward] at hle
    rw [mem_tripDays_backward] at hday ⊢
    omega

end Direction

namespace Search

variable {s : Search} {r : RouteIndex} {position : Nat} {ready : Int} {t t' u : RelTime}
  {trip : Trip}

/-- The vehicles of a route have an event at a position at which a ride can begin. -/
def BoardsAt (s : Search) (r : RouteIndex) (position : Nat) : Prop :=
  (position, s.dir.boardEvent) ∈ StopEvent.all (s.timetable.stops r).size

instance (s : Search) (r : RouteIndex) (position : Nat) : Decidable (s.BoardsAt r position) :=
  inferInstanceAs (Decidable (_ ∈ _))

lemma BoardsAt.row_lt (h : s.BoardsAt r position) :
    s.dir.boardEvent.row position < s.timetable.nbOfEvents r :=
  (StopEvent.row_lt h).1

/-- A trip that can be caught, and none that can be caught is boarded before it. -/
structure CatchesFirst (s : Search) (r : RouteIndex) (position : Nat) (ready : Int) (trip : Trip) :
    Prop where
  catches : s.Catches r position ready trip
  notBefore : ∀ other, s.Catches r position ready other →
    s.dir.NotBefore (s.boardMinutes trip position) (s.boardMinutes other position)

/-- A better finite time is that of better minutes, whatever the other minutes are cut to. -/
lemma Catches.notBefore_of_cost_le (h : s.Catches r position ready trip)
    (ht : t.minutes? = some ready) {best : Trip}
    (hf : (s.boardTime best position).isFeasible = true)
    (hcost : s.dir.cost (s.boardTime best position) ≤ s.dir.cost (s.boardTime trip position)) :
    s.dir.NotBefore (s.boardMinutes best position) (s.boardMinutes trip position) := by
  have hr := RelTime.range_of_minutes? ht
  have hintime := Direction.notBefore_iff.1 h.in_time
  rw [boardTime_eq] at hf
  rw [boardTime_eq, boardTime_eq, Direction.cost_ofMinutes hf] at hcost
  rw [RelTime.isFeasible_ofMinutes_iff] at hf
  rw [Direction.notBefore_iff]
  by_cases htrip : (RelTime.ofMinutes (s.boardMinutes trip position)).isFeasible = true
  · rw [Direction.cost_ofMinutes htrip] at hcost
    exact hcost
  · -- the minutes are not before `ready`, so they are beyond the range at its far end
    rw [RelTime.isFeasible_ofMinutes_iff] at htrip
    cases hdir : s.dir <;>
      simp only [hdir, Direction.sign_forward, Direction.sign_backward] at hintime ⊢ <;> omega

lemma firstTrip?_eq_none_iff (hw : s.timetable.WellFormed)
    (hrow : s.dir.boardEvent.row position < s.timetable.nbOfEvents r)
    (ht : t.minutes? = some ready) :
    s.firstTrip? r position t = none ↔ ∀ trip, ¬s.Catches r position ready trip := by
  constructor
  · intro hnone trip hcatches
    obtain ⟨other, u, hfirst, _⟩ := firstTrip?_best hw hrow ht hcatches
    rw [hnone] at hfirst
    cases hfirst
  · intro hmissed
    cases hfirst : s.firstTrip? r position t with
    | none => rfl
    | some taken =>
      obtain ⟨trip, u⟩ := taken
      obtain ⟨minutes, hminutes, hcatches, _⟩ := firstTrip?_sound hw hrow hfirst
      rw [ht] at hminutes
      cases hminutes
      exact absurd hcatches (hmissed trip)

/-- No trip is taken exactly where none can be caught; where one can be boarded at a finite time,
the trip taken is a first one of all that can be caught, with the time at which it is boarded. -/
theorem firstTrip?_eq_exhaustive (hbuilt : s.timetable.IsBuilt) (hboard : s.BoardsAt r position)
    (ht : t.minutes? = some ready) :
    (s.firstTrip? r position t = none ↔ ∀ trip, ¬s.Catches r position ready trip) ∧
      ((∃ trip, s.Catches r position ready trip ∧ (s.boardTime trip position).isFeasible = true) →
        ∃ best, s.firstTrip? r position t = some (best, s.boardTime best position) ∧
          s.CatchesFirst r position ready best) := by
  have hw := hbuilt.wellFormed
  have hrow := hboard.row_lt
  refine ⟨firstTrip?_eq_none_iff hw hrow ht, ?_⟩
  rintro ⟨trip, hcatches, hf⟩
  obtain ⟨best, u, hfirst, hcost⟩ := firstTrip?_best hw hrow ht hcatches
  obtain ⟨minutes, hminutes, hbest, rfl⟩ := firstTrip?_sound hw hrow hfirst
  rw [ht] at hminutes
  cases hminutes
  have hfeasible := Direction.isFeasible_of_le hcost hf
  refine ⟨best, hfirst, hbest, ?_⟩
  intro other hother
  obtain ⟨same, v, hsame, hle⟩ := firstTrip?_best hw hrow ht hother
  rw [hfirst] at hsame
  cases hsame
  exact hother.notBefore_of_cost_le ht hfeasible hle

end Search

namespace NightLine

/-- Back from the second stop, at ten, on the day after the last departures. -/
def search : Search :=
  { timetable := timetable
    query :=
      { startTime := .instant (.clamp (18265 * 1440 + 600))
        direction := .backward
        start := [⟨⟨1⟩, .zero, 0⟩]
        destination := [⟨⟨0⟩, .zero, 0⟩]
        vias := []
        allowedClasses := .all
        requireBikes := false
        maxTransfers := 0 }
    baseDay := ⟨8, by decide⟩
    start := .ofMinutes 600 }

def slowTrip : Trip := ⟨⟨1⟩, firstDay⟩

/-- The second vehicle of the first day comes in after the first vehicle of the second day, and is
taken although its service day is looked at before. -/
theorem firstTrip?_slowTrip : search.Catches ⟨0⟩ 1 600 slowTrip ∧
    (search.boardTime slowTrip 1).isFeasible = true ∧
      ∃ best, search.firstTrip? ⟨0⟩ 1 (.ofMinutes 600) = some (best, search.boardTime best 1) ∧
        search.CatchesFirst ⟨0⟩ 1 600 best := by
  have hcatches : search.Catches ⟨0⟩ 1 600 slowTrip :=
    ⟨by cbv, by decide +kernel, by decide +kernel, by cbv, by decide +kernel⟩
  have hf : (search.boardTime slowTrip 1).isFeasible = true := by cbv
  exact ⟨hcatches, hf, (Search.firstTrip?_eq_exhaustive isBuilt (by decide +kernel) rfl).2
    ⟨slowTrip, hcatches, hf⟩⟩

example : search.firstTrip? ⟨0⟩ 1 (.ofMinutes 600) = some (slowTrip, .ofMinutes 120) := by cbv

end NightLine

namespace Search

variable {s : Search} {r : RouteIndex} {position : Nat} {ready : Int} {t t' u : RelTime}
  {trip : Trip}

/-- Whoever is ready no later, at whatever time, catches a trip that is boarded no later. -/
def NeverLoses (s : Search) (r : RouteIndex) (position : Nat) : Prop :=
  ∀ t t' trip u', s.dir.isBetterOrEq t t' = true → s.firstTrip? r position t' = some (trip, u') →
    u'.isFeasible = true →
      ∃ other u, s.firstTrip? r position t = some (other, u) ∧ s.dir.isBetterOrEq u u' = true

/-- Whoever is ready no later than someone who catches a trip, and looks at its service day,
catches a trip that is boarded no later. -/
theorem exists_firstTrip?_of_isBetterOrEq (hbuilt : s.timetable.IsBuilt)
    (hboard : s.BoardsAt r position) (hle : s.dir.isBetterOrEq t t' = true)
    (h : s.firstTrip? r position t' = some (trip, u)) (ht : t.minutes? = some ready)
    (hreaches : s.dir.Reaches (ready / 1440) (trip.day.daysSince s.baseDay)) :
    ∃ other v, s.firstTrip? r position t = some (other, v) ∧ s.dir.isBetterOrEq v u = true := by
  have hw := hbuilt.wellFormed
  have hrow := hboard.row_lt
  obtain ⟨ready', ht', hcatches, rfl⟩ := firstTrip?_sound hw hrow h
  rw [Direction.isBetterOrEq_iff, Direction.cost_of_minutes? ht, Direction.cost_of_minutes? ht']
    at hle
  have hintime := Direction.notBefore_iff.1 hcatches.in_time
  have hearlier : s.Catches r position ready trip :=
    { hcatches with
      in_window := Direction.mem_tripDays_of_reaches hle hcatches.in_window hreaches
      in_time := Direction.notBefore_iff.2 (Int.le_trans hle hintime) }
  obtain ⟨other, v, hfirst, hcost⟩ := firstTrip?_best hw hrow ht hearlier
  exact ⟨other, v, hfirst, Direction.isBetterOrEq_iff.2 hcost⟩

end Search

namespace LongHaul

def calendar : Calendar := ⟨⟨18262⟩, ⟨18273⟩, by decide, by decide⟩

def place (id : String) : Location := ⟨⟨⟨0⟩, id⟩, "", .station, none, none, .zero⟩

def serviceDay : Day := ⟨9, by decide⟩

/-- The coach leaves at eight on its service day, and arrives four days later at eleven in the
evening. -/
def calls : List Call :=
  [.location (place "a"), .location (place "b"),
    .serviceDays ((ServiceDays.empty calendar).insert serviceDay),
    .route [⟨⟨0⟩, true, true⟩, ⟨⟨1⟩, true, true⟩] [.coach] [false],
    .transport ⟨0⟩ ⟨"coach", ⟨0⟩, [⟨.midnight, .ofNat 480⟩, ⟨.ofNat 7140, .midnight⟩], []⟩,
    .finishRoute]

def builder : Builder := ((Builder.new calendar).run calls).2

def timetable : Timetable := builder.freeze

lemma isBuilt : timetable.IsBuilt :=
  ⟨calendar, calls, Builder.build_eq_ok_iff.2 ⟨by cbv, by cbv, by cbv, rfl⟩⟩

def coach : Trip := ⟨⟨0⟩, serviceDay⟩

/-- Between the two stops, from the beginning of a day or back from there. -/
def search (dir : Direction) (baseDay : Day) : Search :=
  { timetable := timetable
    query :=
      { startTime := .instant (.clamp ((18257 + baseDay.number) * 1440))
        direction := dir
        start := [⟨⟨0⟩, .zero, 0⟩]
        destination := [⟨⟨1⟩, .zero, 0⟩]
        vias := []
        allowedClasses := .all
        requireBikes := false
        maxTransfers := 0 }
    baseDay := baseDay
    start := .zero }

/-- Four days before the coach leaves. -/
def before : Search := search .forward calendar.firstDay

/-- Two days after the coach has arrived. -/
def after : Search := search .backward ⟨15, by decide⟩

/-- Who is ready on the day before the coach leaves catches it like who is ready an hour before. -/
theorem firstTrip?_dayBefore :
    Direction.forward.isBetterOrEq (.ofMinutes 4500) (.ofMinutes 6180) = true ∧
      before.firstTrip? ⟨0⟩ 0 (.ofMinutes 6180) = some (coach, .ofMinutes 6240) ∧
        ∃ other u, before.firstTrip? ⟨0⟩ 0 (.ofMinutes 4500) = some (other, u) ∧
          Direction.forward.isBetterOrEq u (.ofMinutes 6240) = true := by
  have hlate : before.firstTrip? ⟨0⟩ 0 (.ofMinutes 6180) = some (coach, .ofMinutes 6240) := by cbv
  exact ⟨by decide, hlate, Search.exists_firstTrip?_of_isBetterOrEq isBuilt (by decide +kernel)
    (by decide) hlate rfl (by decide +kernel)⟩

/-- Who is ready some days before the coach leaves, or has some days left after it arrives, does not
catch it. -/
theorem loses_coach : timetable.IsBuilt ∧ (before.BoardsAt ⟨0⟩ 0 ∧ ¬before.NeverLoses ⟨0⟩ 0) ∧
    (after.BoardsAt ⟨0⟩ 1 ∧ ¬after.NeverLoses ⟨0⟩ 1) := by
  refine ⟨isBuilt, ⟨by decide +kernel, fun h => ?_⟩, ⟨by decide +kernel, fun h => ?_⟩⟩
  · have hlost : before.firstTrip? ⟨0⟩ 0 (.ofMinutes 480) = none := by cbv
    obtain ⟨other, u, hfirst, _⟩ := h (.ofMinutes 480) (.ofMinutes 6180) coach (.ofMinutes 6240)
      (by decide) (by cbv) (by decide)
    rw [hlost] at hfirst
    cases hfirst
  · have hlost : after.firstTrip? ⟨0⟩ 1 (.ofMinutes 1400) = none := by cbv
    obtain ⟨other, u, hfirst, _⟩ := h (.ofMinutes 1400) (.ofMinutes (-1480)) coach
      (.ofMinutes (-1500)) (by decide) (by cbv) (by decide)
    rw [hlost] at hfirst
    cases hfirst

end LongHaul

namespace Search

variable {s : Search} {r : RouteIndex} {position : Nat} {ready : Int} {t t' u : RelTime}
  {trip : Trip}

/-- A trip is boarded on the day on which someone is ready, or on the next one in search order, and
not before. -/
structure ComesSoon (s : Search) (r : RouteIndex) (position : Nat) (ready : Int) (trip : Trip) :
    Prop where
  runs : s.Runs r trip
  in_time : s.dir.NotBefore ready (s.boardMinutes trip position)
  soon : s.boardMinutes trip position / 1440 = ready / 1440 ∨
    s.boardMinutes trip position / 1440 = ready / 1440 + s.dir.sign 1

/-- A trip that comes soon is never missed for a worse one. -/
def SeesAhead (s : Search) (r : RouteIndex) (position : Nat) : Prop :=
  ∀ t ready trip, t.minutes? = some ready → s.ComesSoon r position ready trip →
    (s.boardTime trip position).isFeasible = true → ∃ other u,
      s.firstTrip? r position t = some (other, u) ∧
        s.dir.isBetterOrEq u (s.boardTime trip position) = true

/-- A backward search does not look at this service day, although a trip that left on it may arrive
on the day before someone is ready. -/
def LeavesOut (s : Search) (ready : Int) (day : Day) : Prop :=
  s.dir = .backward ∧ day.daysSince s.baseDay = ready / 1440 - 5

/-- A vehicle is under way for less than five days, so the days on which trips leave that come soon
are few. -/
lemma ComesSoon.mem_tripDays (hw : s.timetable.WellFormed) (h : s.ComesSoon r position ready trip)
    (hday : ¬s.LeavesOut ready trip.day) :
    trip.day.daysSince s.baseDay ∈ s.dir.tripDays (ready / 1440) := by
  have hsoon := h.soon
  have hspan := hw.in_span r (s.dir.boardEvent.row position)
    (trip.transport.val - (s.timetable.transportsOf r).start.val)
  have hdays : maxDaysInTrip * minutesPerDay = 7200 := rfl
  rw [boardMinutes_row hw h.runs] at hsoon
  unfold rowMinutes at hsoon
  unfold LeavesOut at hday
  generalize (s.timetable.cell _ _ _).minutes = time at hsoon hspan
  generalize trip.day.daysSince s.baseDay = day at hsoon hday ⊢
  cases hdir : s.dir with
  | forward =>
    rw [hdir, Direction.sign_forward] at hsoon
    rw [Direction.mem_tripDays_forward]
    omega
  | backward =>
    simp only [hdir, Direction.sign_backward, true_and] at hsoon hday
    rw [Direction.mem_tripDays_backward]
    omega

/-- Where a trip comes soon, one is taken that is boarded no later, unless it left on the service
day that is left out. -/
theorem exists_firstTrip?_of_comesSoon (hbuilt : s.timetable.IsBuilt)
    (hboard : s.BoardsAt r position) (ht : t.minutes? = some ready)
    (h : s.ComesSoon r position ready trip)
    (hday : ¬s.LeavesOut ready trip.day) :
    ∃ other u, s.firstTrip? r position t = some (other, u) ∧
      s.dir.isBetterOrEq u (s.boardTime trip position) = true := by
  have hw := hbuilt.wellFormed
  have hcatches : s.Catches r position ready trip :=
    { of_route := h.runs.of_route
      in_window := h.mem_tripDays hw hday
      in_calendar := hw.active_lt h.runs.active
      active := h.runs.active
      in_time := h.in_time }
  obtain ⟨other, u, hfirst, hcost⟩ := firstTrip?_best hw hboard.row_lt ht hcatches
  exact ⟨other, u, hfirst, Direction.isBetterOrEq_iff.2 hcost⟩

end Search

namespace LongHaul

/-- One day after the coach has arrived. -/
def nextDay : Search := search .backward ⟨14, by decide⟩

/-- The coach is caught on the day on which it arrives. -/
theorem firstTrip?_sameDay : nextDay.ComesSoon ⟨0⟩ 1 (-40) coach ∧
    ∃ other u, nextDay.firstTrip? ⟨0⟩ 1 (.ofMinutes (-40)) = some (other, u) ∧
      Direction.backward.isBetterOrEq u (nextDay.boardTime coach 1) = true := by
  have hsoon : nextDay.ComesSoon ⟨0⟩ 1 (-40) coach :=
    ⟨⟨by cbv, by cbv⟩, by decide +kernel, by decide +kernel⟩
  exact ⟨hsoon, Search.exists_firstTrip?_of_comesSoon isBuilt (by decide +kernel) rfl hsoon
    fun h => absurd h.2 (by decide +kernel)⟩

/-- On the next day the coach is missed, which came in on the evening before. -/
theorem not_seesAhead_nextDay :
    timetable.IsBuilt ∧ nextDay.BoardsAt ⟨0⟩ 1 ∧ ¬nextDay.SeesAhead ⟨0⟩ 1 := by
  refine ⟨isBuilt, by decide +kernel, fun h => ?_⟩
  have hmissed : nextDay.firstTrip? ⟨0⟩ 1 (.ofMinutes 60) = none := by cbv
  obtain ⟨other, u, hfirst, _⟩ := h (.ofMinutes 60) 60 coach rfl
    ⟨⟨by cbv, by cbv⟩, by decide +kernel, by decide +kernel⟩ (by cbv)
  rw [hmissed] at hfirst
  cases hfirst

end LongHaul

end JourneyPlanner
