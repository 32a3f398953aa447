import JourneyPlanner.Proofs.Network.WellFormed
import JourneyPlanner.Proofs.Time.Costs
import JourneyPlanner.Search.Exhaustive
import JourneyPlanner.Search.Itinerary

/-!
# Ways through a timetable

What someone can do who follows the rules of a search, in search order: get ready at a location,
ride on a trip, leave it, stay at via stops and walk. A search and the reconstruction of its
journeys are compared with these relations, and never with each other.
-/

namespace JourneyPlanner

namespace Offset

lemma mem_of_shortest? {offsets : List Offset} {o : Offset} (h : shortest? offsets = some o) :
    o ∈ offsets := by
  cases offsets with
  | nil => cases h
  | cons first rest =>
    rw [← Option.some.inj h]
    refine List.foldlRecOn (motive := fun o => o ∈ first :: rest) _ _ List.mem_cons_self ?_
    intro b hb a ha
    split
    · exact List.mem_cons_of_mem _ ha
    · exact hb

lemma foldl_shortest_le (offsets : List Offset) (first : Offset) :
    ∀ o ∈ first :: offsets,
      (offsets.foldl (fun a b => if b.duration < a.duration then b else a) first).duration ≤
        o.duration := by
  induction offsets generalizing first with
  | nil =>
    intro o ho
    rw [List.mem_singleton.1 ho]
    exact Nat.le_refl _
  | cons next rest ih =>
    intro o ho
    rw [List.foldl_cons]
    have hnext := ih (if next.duration < first.duration then next else first)
    have hstep : ∀ x ∈ [first, next],
        (if next.duration < first.duration then next else first).duration ≤ x.duration := by
      intro x hx
      split
      · rename_i hlt
        rcases List.mem_pair.1 hx with rfl | rfl
        · exact Nat.le_of_lt hlt
        · exact Nat.le_refl _
      · rename_i hnot
        rcases List.mem_pair.1 hx with rfl | rfl
        · exact Nat.le_refl _
        · exact Nat.le_of_not_lt hnot
    rcases List.mem_cons.1 ho with rfl | ho
    · exact Nat.le_trans (hnext _ List.mem_cons_self) (hstep _ List.mem_cons_self)
    · rcases List.mem_cons.1 ho with rfl | ho
      · exact Nat.le_trans (hnext _ List.mem_cons_self)
          (hstep _ (List.mem_cons_of_mem _ List.mem_cons_self))
      · exact hnext o (List.mem_cons_of_mem _ ho)

lemma exists_shortest?_le {offsets : List Offset} {o : Offset} (ho : o ∈ offsets) :
    ∃ shortest, shortest? offsets = some shortest ∧ shortest.duration ≤ o.duration := by
  cases offsets with
  | nil => exact absurd ho List.not_mem_nil
  | cons first rest => exact ⟨_, rfl, foldl_shortest_le rest first o ho⟩

end Offset

namespace Search

variable {s : Search} {l : LocationIndex} {r : RouteIndex} {trip : Trip}

lemma le_of_mem_staysAt {vias : List ViaStop} {level v : Nat} {stay d : Duration}
    (h : (v, d) ∈ staysAt l level stay vias) : level ≤ v ∧ v ≤ level + vias.length := by
  induction vias generalizing level stay with
  | nil =>
    obtain ⟨rfl, rfl⟩ := Prod.mk.inj (List.mem_singleton.1 h)
    exact ⟨Nat.le_refl _, Nat.le_refl _⟩
  | cons via rest ih =>
    rw [staysAt] at h
    rcases List.mem_cons.1 h with heq | h
    · obtain ⟨rfl, rfl⟩ := Prod.mk.inj heq
      exact ⟨Nat.le_refl _, Nat.le_add_right _ _⟩
    · split at h
      · have := ih h
        rw [List.length_cons]
        omega
      · cases h

lemma lookup_staysAt {vias : List ViaStop} {level v : Nat} {stay d : Duration} :
    (staysAt l level stay vias).lookup v = some d ↔ (v, d) ∈ staysAt l level stay vias := by
  induction vias generalizing level stay with
  | nil =>
    rw [staysAt, List.lookup_cons, List.mem_singleton]
    by_cases hv : v = level
    · simp [hv, eq_comm]
    · simp [hv, beq_eq_false_iff_ne.2 hv]
  | cons via rest ih =>
    rw [staysAt, List.lookup_cons, List.mem_cons, Prod.mk.injEq]
    by_cases hv : v = level
    · subst hv
      have hnot : (v, d) ∉ if via.location = l then staysAt l (v + 1) (stay.add via.stay) rest
          else [] := by
        split
        · intro h
          have := (le_of_mem_staysAt h).1
          omega
        · exact List.not_mem_nil
      rw [BEq.rfl, or_iff_left hnot, Option.some.injEq, eq_comm]
      exact (and_iff_right rfl).symm
    · rw [beq_eq_false_iff_ne.2 hv, or_iff_right fun h => hv h.1]
      by_cases hl : via.location = l
      · rw [if_pos hl]
        exact ih
      · rw [if_neg hl]
        exact iff_of_false (fun h => nomatch h) List.not_mem_nil

lemma stay?_eq_some_iff {level v : Nat} {d : Duration} :
    s.stay? l level v = some d ↔ (v, d) ∈ s.stays l level :=
  lookup_staysAt

lemma le_of_mem_stays {level v : Nat} {d : Duration} (h : (v, d) ∈ s.stays l level) :
    level ≤ v :=
  (le_of_mem_staysAt h).1

lemma lt_levels_of_mem_stays {level v : Nat} {d : Duration} (h : (v, d) ∈ s.stays l level)
    (hlevel : level < s.levels) : v < s.levels := by
  have hle := (le_of_mem_staysAt h).2
  have hlength : s.query.searchVias.length = s.query.vias.length := by
    unfold Query.searchVias
    split
    · rfl
    · exact List.length_reverse
  unfold levels Query.levels at hlevel ⊢
  rw [List.length_drop, hlength] at hle
  omega

lemma self_mem_stays (l : LocationIndex) (level : Nat) : (level, .zero) ∈ s.stays l level := by
  unfold stays
  cases s.query.searchVias.drop level <;> exact List.mem_cons_self

/-- Someone who reached an arrival, and possibly walked, is at a location at a time. -/
inductive Stands (s : Search) (a : Arrival) : Option Walk → LocationIndex → Nat → RelTime → Prop
  | here {level : Nat} {stay : Duration} : (level, stay) ∈ s.stays a.location a.level →
      Stands s a none a.location level (s.dir.add a.time stay)
  | walked {level level' : Nat} {stay stay' : Duration} {w : Walk} :
      (level, stay) ∈ s.stays a.location a.level →
      w ∈ s.walks a.location (s.dir.add a.time stay) → (level', stay') ∈ s.stays w.target level →
      Stands s a (some w) w.target level' (s.dir.add w.finish stay')

/-- Someone can be ready for a vehicle at a location at a time. -/
inductive Readies (s : Search) : Approach → LocationIndex → Nat → RelTime → Prop
  | start {o : Offset} {level : Nat} {stay : Duration} : o ∈ s.query.start →
      (level, stay) ∈ s.stays o.location 0 →
      Readies s (.fromStart o none) o.location level (s.dir.add (s.seedTime o) stay)
  | startOnFoot {o : Offset} {w : Walk} {level : Nat} {stay : Duration} : o ∈ s.query.start →
      w ∈ s.walks o.location (s.seedTime o) → (level, stay) ∈ s.stays w.target 0 →
      Readies s (.fromStart o (some w)) w.target level (s.dir.add w.finish stay)
  | transfer {a : Arrival} {level : Nat} {stay : Duration} :
      (level, stay) ∈ s.stays a.location a.level →
      Readies s (.fromVehicle a none) a.location level
        (s.dir.add a.time (stay.longer (s.timetable.locations.transferTime a.location)))
  | onFoot {a : Arrival} {w : Walk} {l : LocationIndex} {level : Nat} {t : RelTime} :
      Stands s a (some w) l level t → Readies s (.fromVehicle a (some w)) l level t

/-- A way to the destination ends by an egress of the query, with every via stop behind. -/
structure Arrives (s : Search) (h : Hit) : Prop where
  stands : ∃ level, level + 1 = s.levels ∧ Stands s h.arrival h.walk h.location level h.time
  egress_eq : s.egress? h.location = some h.egress
  time_eq : h.destinationTime = s.dir.add h.time h.egress.duration
  feasible : h.destinationTime.isFeasible = true

/-- The number of stops of a route. -/
def nbOfStops (s : Search) (r : RouteIndex) : Nat := (s.timetable.stops r).size

/-- The position of the stop met in a step. -/
def positionAt (s : Search) (r : RouteIndex) (step : Nat) : Nat :=
  s.dir.position (s.nbOfStops r) step

def stopAt? (s : Search) (r : RouteIndex) (step : Nat) : Option RouteStop :=
  (s.timetable.stops r)[s.positionAt r step]?

/-- The minutes from the midnight of the base day to the event at which a trip is left. -/
def alightMinutes (s : Search) (trip : Trip) (position : Nat) : Int :=
  trip.day.daysSince s.baseDay * 1440 +
    (s.timetable.eventTime trip.transport position s.dir.alightEvent).minutes

lemma boardTime_eq (s : Search) (trip : Trip) (position : Nat) :
    s.boardTime trip position = .ofMinutes (s.boardMinutes trip position) := rfl

lemma alightTime_eq (s : Search) (trip : Trip) (position : Nat) :
    s.alightTime trip position = .ofMinutes (s.alightMinutes trip position) := rfl

/-- A trip runs on a route. -/
structure Runs (s : Search) (r : RouteIndex) (trip : Trip) : Prop where
  of_route : (s.timetable.transportsOf r).contains trip.transport = true
  active : s.timetable.isActive trip.transport trip.day = true

/-- Someone who rides through a location comes there from one via level to another. -/
def PassesAt (s : Search) (l : LocationIndex) (level level' : Nat) : Prop :=
  level ≤ level' ∧ ∀ v, level ≤ v → v < level' →
    ∃ via, s.viaAt? v l = some via ∧ via.stay = .zero

/-- Someone who rides through the stops from the step `first` on, with a via level, comes to a
step with another one. -/
inductive PassesVias (s : Search) (r : RouteIndex) (first level : Nat) : Nat → Nat → Prop
  | nil : PassesVias s r first level first level
  | snoc {step v v' : Nat} {stop : RouteStop} : PassesVias s r first level step v →
      s.stopAt? r step = some stop → s.PassesAt stop.location v v' →
      PassesVias s r first level (step + 1) v'

/-- Someone boarded a trip at a location in the step `board`, with a via level, and comes to a
later step with another one. -/
structure Boarded (s : Search) (r : RouteIndex) (trip : Trip) (board : Nat) (l : LocationIndex)
    (level step level' : Nat) : Prop where
  runs : s.Runs r trip
  goes_on : board < step
  begins : ∃ stop, s.stopAt? r board = some stop ∧ stop.location = l ∧ stop.canStart s.dir = true
  continues : ∀ i, board ≤ i → i < step →
    s.query.canLeave s.timetable r (s.positionAt r i) = true
  passes : s.PassesVias r (board + 1) level step level'

/-- A ride from a location that ends at an arrival. -/
structure Ride (s : Search) (r : RouteIndex) (trip : Trip) (board alight : Nat)
    (l : LocationIndex) (level : Nat) (a : Arrival) : Prop where
  admitted : s.query.admits s.timetable r = true
  boarded : s.Boarded r trip board l level alight a.level
  alight_lt : alight < s.nbOfStops r
  ends : ∃ stop, s.stopAt? r alight = some stop ∧ stop.location = a.location ∧
    stop.canFinish s.dir = true
  time_eq : a.time = s.alightTime trip (s.positionAt r alight)

/-- Someone who is ready at a time can board a trip in a step. -/
structure InTime (s : Search) (r : RouteIndex) (trip : Trip) (board : Nat) (t : RelTime) :
    Prop where
  feasible : (s.boardTime trip (s.positionAt r board)).isFeasible = true
  cost_le : s.dir.cost t ≤ s.dir.cost (s.boardTime trip (s.positionAt r board))

/-- Someone who is ready at a location at a time can ride to an arrival. -/
def Brings (s : Search) (l : LocationIndex) (level : Nat) (t : RelTime) (a : Arrival) : Prop :=
  ∃ r trip board alight, s.Ride r trip board alight l level a ∧ s.InTime r trip board t

/-- The minutes from the midnight of the base day to the event in a row of the table of a route. -/
def rowMinutes (s : Search) (r : RouteIndex) (trip : Trip) (row : Nat) : Int :=
  trip.day.daysSince s.baseDay * 1440 +
    (s.timetable.cell r row (trip.transport.val - (s.timetable.transportsOf r).start.val)).minutes

def boardRow (s : Search) (r : RouteIndex) (step : Nat) : Nat :=
  s.dir.boardEvent.row (s.positionAt r step)

def alightRow (s : Search) (r : RouteIndex) (step : Nat) : Nat :=
  s.dir.alightEvent.row (s.positionAt r step)

lemma boardMinutes_row (hw : s.timetable.WellFormed) (h : s.Runs r trip) (position : Nat) :
    s.boardMinutes trip position = s.rowMinutes r trip (s.dir.boardEvent.row position) := by
  rw [boardMinutes, Timetable.eventTime, hw.route_of h.of_route, Timetable.columnTime_eq_cell]
  rfl

lemma boardMinutes_eq (hw : s.timetable.WellFormed) (h : s.Runs r trip) (step : Nat) :
    s.boardMinutes trip (s.positionAt r step) = s.rowMinutes r trip (s.boardRow r step) :=
  boardMinutes_row hw h _

lemma alightMinutes_eq (hw : s.timetable.WellFormed) (h : s.Runs r trip) (step : Nat) :
    s.alightMinutes trip (s.positionAt r step) = s.rowMinutes r trip (s.alightRow r step) := by
  rw [alightMinutes, Timetable.eventTime, hw.route_of h.of_route, Timetable.columnTime_eq_cell]
  rfl

lemma boardRow_lt {step : Nat} (h : step + 1 < s.nbOfStops r) :
    s.boardRow r step < s.timetable.nbOfEvents r := by
  unfold boardRow Timetable.nbOfEvents positionAt
  unfold nbOfStops at *
  cases s.dir <;> simp only [Direction.boardEvent, StopEvent.row, Direction.position] <;> omega

lemma alightRow_lt {step : Nat} (hpos : 0 < step) (h : step < s.nbOfStops r) :
    s.alightRow r step < s.timetable.nbOfEvents r := by
  unfold alightRow Timetable.nbOfEvents positionAt
  unfold nbOfStops at *
  cases s.dir <;> simp only [Direction.alightEvent, Direction.opposite, Direction.boardEvent,
    StopEvent.row, Direction.position] <;> omega

/-- The rows of a table in search order. -/
def rowLe (s : Search) (i j : Nat) : Prop :=
  match s.dir with
  | .forward => i ≤ j
  | .backward => j ≤ i

lemma boardRow_le_alightRow {i j : Nat} (hij : i < j) (hj : j < s.nbOfStops r) :
    s.rowLe (s.boardRow r i) (s.alightRow r j) := by
  unfold rowLe boardRow alightRow positionAt
  cases s.dir <;> simp only [Direction.alightEvent, Direction.opposite, Direction.boardEvent,
    StopEvent.row, Direction.position] <;> omega

lemma boardRow_le_boardRow {i j : Nat} (hij : i ≤ j) :
    s.rowLe (s.boardRow r i) (s.boardRow r j) := by
  unfold rowLe boardRow positionAt
  cases s.dir <;> simp only [Direction.boardEvent, StopEvent.row, Direction.position] <;> omega

lemma alightRow_le_alightRow {i j : Nat} (hij : i ≤ j) :
    s.rowLe (s.alightRow r i) (s.alightRow r j) := by
  unfold rowLe alightRow positionAt
  cases s.dir <;> simp only [Direction.alightEvent, Direction.opposite, Direction.boardEvent,
    StopEvent.row, Direction.position] <;> omega

lemma column_lt (h : s.Runs r trip) :
    trip.transport.val - (s.timetable.transportsOf r).start.val <
      (s.timetable.transportsOf r).size := by
  have := IndexRange.contains_iff.1 h.of_route
  omega

/-- A trip meets its events in search order. -/
lemma rowMinutes_mono (hw : s.timetable.WellFormed) (h : s.Runs r trip) {i j : Nat}
    (hi : i < s.timetable.nbOfEvents r) (hj : j < s.timetable.nbOfEvents r) (hij : s.rowLe i j) :
    s.dir.sign (s.rowMinutes r trip i) ≤ s.dir.sign (s.rowMinutes r trip j) := by
  unfold rowLe at hij
  unfold rowMinutes
  cases hdir : s.dir with
  | forward =>
    rw [hdir] at hij
    have := hw.along hij hj (column_lt h)
    simp only [Direction.sign_forward]
    omega
  | backward =>
    rw [hdir] at hij
    have := hw.along hij hi (column_lt h)
    simp only [Direction.sign_backward]
    omega

lemma boardMinutes_le_alightMinutes (hw : s.timetable.WellFormed) (h : s.Runs r trip) {i j : Nat}
    (hij : i < j) (hj : j < s.nbOfStops r) :
    s.dir.sign (s.boardMinutes trip (s.positionAt r i)) ≤
      s.dir.sign (s.alightMinutes trip (s.positionAt r j)) := by
  rw [boardMinutes_eq hw h, alightMinutes_eq hw h]
  exact rowMinutes_mono hw h (boardRow_lt (by omega)) (alightRow_lt (by omega) hj)
    (boardRow_le_alightRow hij hj)

/-- Someone who boards a trip in time and leaves it at a finite time boards it at a finite time. -/
lemma inTime_of_alight (hw : s.timetable.WellFormed) (h : s.Runs r trip) {i j : Nat}
    (hij : i < j) (hj : j < s.nbOfStops r) {t : RelTime} (ht : t.isFeasible = true)
    (hti : s.dir.cost t ≤ s.dir.sign (s.boardMinutes trip (s.positionAt r i)))
    (hfinish : (s.alightTime trip (s.positionAt r j)).isFeasible = true) :
    s.InTime r trip i t := by
  have hle := boardMinutes_le_alightMinutes hw h hij hj
  rw [alightTime_eq] at hfinish
  have hboard := Direction.isFeasible_between ht hti hle hfinish
  refine ⟨hboard, ?_⟩
  rw [boardTime_eq, Direction.cost_ofMinutes hboard]
  exact hti

lemma cost_boardTime_le_alightTime (hw : s.timetable.WellFormed) (h : s.Runs r trip) {i j : Nat}
    (hij : i < j) (hj : j < s.nbOfStops r)
    (hi : (s.boardTime trip (s.positionAt r i)).isFeasible = true) :
    s.dir.cost (s.boardTime trip (s.positionAt r i)) ≤
      s.dir.cost (s.alightTime trip (s.positionAt r j)) := by
  have hle := boardMinutes_le_alightMinutes hw h hij hj
  rw [boardTime_eq] at hi ⊢
  exact Direction.cost_ofMinutes_mono hi (Int.le_of_eq (Direction.cost_ofMinutes hi)) hle

end Search

end JourneyPlanner
