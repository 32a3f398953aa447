import JourneyPlanner.Proofs.Search.Ways

/-!
# The first trip

The trip that is taken at a stop can be caught there, and none that can be caught is boarded
before it, in search order.
-/

namespace JourneyPlanner

namespace Day

lemma daysSince_eq_of_shift? {base day : Day} {offset : Int} (h : base.shift? offset = some day) :
    day.daysSince base = offset := by
  unfold shift? ofInt? at h
  split at h
  · cases h
    unfold daysSince
    dsimp only
    omega
  · cases h

lemma shift?_daysSince (base day : Day) : base.shift? (day.daysSince base) = some day := by
  have hlt := day.number_lt
  unfold shift? ofInt? daysSince
  have hsum : (base.number : Int) + (day.number - base.number) = day.number := by omega
  rw [hsum, dif_pos (by omega)]
  rfl

end Day

namespace Direction

lemma notBefore_iff {dir : Direction} {a b : Int} : dir.NotBefore a b ↔ dir.sign a ≤ dir.sign b := by
  cases dir
  · exact Iff.rfl
  · exact Int.neg_le_neg_iff.symm

lemma mem_consecutiveDays {first day : Int} {span : Nat} :
    day ∈ (List.range span).map (fun i : Nat => first + (i : Int)) ↔
      first ≤ day ∧ day < first + span := by
  simp only [List.mem_map, List.mem_range]
  constructor
  · rintro ⟨i, hi, rfl⟩
    omega
  · intro h
    exact ⟨(day - first).toNat, by omega, by omega⟩

lemma mem_tripDays_forward {readyDay day : Int} :
    day ∈ forward.tripDays readyDay ↔ readyDay - 4 ≤ day ∧ day ≤ readyDay + 1 := by
  simp only [tripDays, maxDaysInTrip, mem_consecutiveDays]
  omega

lemma mem_tripDays_backward {readyDay day : Int} :
    day ∈ backward.tripDays readyDay ↔ readyDay - 4 ≤ day ∧ day ≤ readyDay := by
  simp only [tripDays, maxDaysInTrip, mem_consecutiveDays]
  omega

end Direction

namespace Search

/-- The first item of a sorted list that passes a test comes before every item that does. -/
lemma exists_find?_of_pairwise {α : Type} {R : α → α → Prop} {p : α → Bool} {items : List α}
    (hsorted : items.Pairwise R) (hrefl : ∀ a, R a a) {a : α} (ha : a ∈ items)
    (hpass : p a = true) : ∃ b, items.find? p = some b ∧ R b a := by
  induction items with
  | nil => exact absurd ha List.not_mem_nil
  | cons x rest ih =>
    rw [List.pairwise_cons] at hsorted
    by_cases hx : p x = true
    · refine ⟨x, List.find?_cons_of_pos hx, ?_⟩
      rcases List.mem_cons.1 ha with rfl | hmem
      · exact hrefl a
      · exact hsorted.1 a hmem
    · rw [List.find?_cons_of_neg hx]
      rcases List.mem_cons.1 ha with rfl | hmem
      · exact absurd hpass hx
      · exact ih hsorted.2 hmem

variable {s : Search} {r : RouteIndex} {position : Nat} {ready : Int} {trip : Trip}

/-- The minutes at which the trips of the day of midnight board, by column. -/
def columnMinutes (s : Search) (r : RouteIndex) (position column : Nat) : Int :=
  (s.timetable.columnTime r column position s.dir.boardEvent).minutes

lemma columnMinutes_mono (hw : s.timetable.WellFormed)
    (hrow : s.dir.boardEvent.row position < s.timetable.nbOfEvents r) {c d : Nat} (hcd : c ≤ d)
    (hd : d < (s.timetable.transportsOf r).size) :
    s.columnMinutes r position c ≤ s.columnMinutes r position d := by
  have := hw.across hrow hcd hd
  unfold columnMinutes
  rw [Timetable.columnTime_eq_cell, Timetable.columnTime_eq_cell]
  omega

/-- Bisection separates the columns whose times pass a test from the others, if every time before one
that passes does so too. -/
lemma lt_partitionPoint_columns (hw : s.timetable.WellFormed)
    (hrow : s.dir.boardEvent.row position < s.timetable.nbOfEvents r) {p : Int → Bool}
    (hp : ∀ a b, a ≤ b → p b = true → p a = true) {c : Nat}
    (hc : c < (s.timetable.transportsOf r).size) :
    (c < partitionPoint (s.timetable.transportsOf r).size fun column =>
      p (s.columnMinutes r position column)) ↔ p (s.columnMinutes r position c) = true :=
  lt_partitionPoint_iff
    (fun _ _ hij hj hpass => hp _ _ (columnMinutes_mono hw hrow hij hj) hpass) hc

lemma mem_catchable (hw : s.timetable.WellFormed)
    (hrow : s.dir.boardEvent.row position < s.timetable.nbOfEvents r) {threshold : Int} {c : Nat} :
    c ∈ s.catchable r position threshold ↔ c < (s.timetable.transportsOf r).size ∧
      s.dir.sign threshold ≤ s.dir.sign (s.columnMinutes r position c) := by
  unfold catchable
  cases hdir : s.dir with
  | forward =>
    have hle := partitionPoint_le (s.timetable.transportsOf r).size fun column =>
      decide (s.columnMinutes r position column < threshold)
    have hcut := lt_partitionPoint_columns hw hrow (p := fun minutes => decide (minutes < threshold))
      (fun a b hab hb => decide_eq_true (Int.lt_of_le_of_lt hab (of_decide_eq_true hb))) (c := c)
    simp only [columnMinutes, hdir, decide_eq_true_eq, List.mem_range'_1,
      Direction.sign_forward] at hle hcut ⊢
    omega
  | backward =>
    have hle := partitionPoint_le (s.timetable.transportsOf r).size fun column =>
      decide (s.columnMinutes r position column ≤ threshold)
    have hcut := lt_partitionPoint_columns hw hrow (p := fun minutes => decide (minutes ≤ threshold))
      (fun a b hab hb => decide_eq_true (Int.le_trans hab (of_decide_eq_true hb))) (c := c)
    simp only [columnMinutes, hdir, decide_eq_true_eq, List.mem_reverse, List.mem_range,
      Direction.sign_backward] at hle hcut ⊢
    omega

lemma pairwise_catchable (s : Search) (r : RouteIndex) (position : Nat) (threshold : Int) :
    (s.catchable r position threshold).Pairwise fun c d : Nat => s.dir.sign c ≤ s.dir.sign d := by
  unfold catchable
  cases s.dir with
  | forward =>
    apply List.Pairwise.imp _ List.pairwise_lt_range'
    intro c d hlt
    simp only [Direction.sign_forward]
    omega
  | backward =>
    rw [List.pairwise_reverse]
    apply List.Pairwise.imp _ List.pairwise_lt_range
    intro c d hlt
    simp only [Direction.sign_backward]
    omega

lemma runs_nth (hw : s.timetable.WellFormed) {c : Nat}
    (hc : c < (s.timetable.transportsOf r).size) (day : Day) (position : Nat) :
    (s.timetable.transportsOf r).contains ((s.timetable.transportsOf r).nth c) = true ∧
      s.boardMinutes ⟨(s.timetable.transportsOf r).nth c, day⟩ position =
        day.daysSince s.baseDay * 1440 + s.columnMinutes r position c := by
  have hcontains : (s.timetable.transportsOf r).contains ((s.timetable.transportsOf r).nth c) =
      true := IndexRange.contains_iff.2 ⟨Nat.le_add_right _ _, Nat.add_lt_add_left hc _⟩
  refine ⟨hcontains, ?_⟩
  rw [boardMinutes, Timetable.eventTime, hw.route_of hcontains, IndexRange.nth,
    Nat.add_sub_cancel_left]
  rfl

lemma exists_column (h : (s.timetable.transportsOf r).contains trip.transport = true) :
    ∃ c < (s.timetable.transportsOf r).size, trip.transport = (s.timetable.transportsOf r).nth c := by
  have hrange := IndexRange.contains_iff.1 h
  refine ⟨trip.transport.val - (s.timetable.transportsOf r).start.val, by omega, Index.ext ?_⟩
  rw [IndexRange.nth]
  dsimp only
  omega

lemma Catches.runs (h : s.Catches r position ready trip) : s.Runs r trip :=
  ⟨h.of_route, h.active⟩

lemma daysSince_of_tripOn? {offset : Int} {t : RelTime}
    (h : s.tripOn? r position ready offset = some (trip, t)) :
    trip.day.daysSince s.baseDay = offset := by
  unfold tripOn? at h
  simp only [Option.bind_eq_bind, Option.bind_eq_some_iff, Option.filter_eq_some_iff,
    Option.pure_def, Option.some.injEq, Prod.mk.injEq] at h
  obtain ⟨day, ⟨hday, _⟩, _, _, rfl, _⟩ := h
  exact Day.daysSince_eq_of_shift? hday

lemma tripOn?_sound (hw : s.timetable.WellFormed)
    (hrow : s.dir.boardEvent.row position < s.timetable.nbOfEvents r) {offset : Int} {t : RelTime}
    (hwindow : offset ∈ s.dir.tripDays (ready / 1440))
    (h : s.tripOn? r position ready offset = some (trip, t)) :
    s.Catches r position ready trip ∧ t = s.boardTime trip position := by
  unfold tripOn? at h
  simp only [Option.bind_eq_bind, Option.bind_eq_some_iff, Option.filter_eq_some_iff,
    decide_eq_true_eq, Option.pure_def, Option.some.injEq, Prod.mk.injEq] at h
  obtain ⟨day, ⟨hday, hcalendar⟩, column, hfind, rfl, rfl⟩ := h
  have hactive := List.find?_some hfind
  obtain ⟨hlt, htime⟩ := (mem_catchable hw hrow).1 (List.mem_of_find?_eq_some hfind)
  obtain ⟨hroute, hminutes⟩ := runs_nth hw hlt day position
  have hdays := Day.daysSince_eq_of_shift? hday
  refine ⟨⟨hroute, ?_, hcalendar, hactive, ?_⟩, rfl⟩
  · rw [hdays]
    exact hwindow
  · rw [Direction.notBefore_iff, hminutes, hdays]
    cases hdir : s.dir <;> simp only [hdir, Direction.sign_forward, Direction.sign_backward] at *
      <;> omega

/-- Of two trips of one day, one stands before the other in search order, or they are the same. -/
structure StandsFirst (s : Search) (trip other : Trip) : Prop where
  day_eq : trip.day = other.day
  le : s.dir.sign trip.transport.val ≤ s.dir.sign other.transport.val

/-- The trip taken on a service day stands before every other one of the day that can be caught. -/
lemma tripOn?_first (hw : s.timetable.WellFormed)
    (hrow : s.dir.boardEvent.row position < s.timetable.nbOfEvents r)
    (h : s.Catches r position ready trip) :
    ∃ other t, s.tripOn? r position ready (trip.day.daysSince s.baseDay) = some (other, t) ∧
      s.StandsFirst other trip := by
  obtain ⟨c, hc, hcolumn⟩ := exists_column h.of_route
  have hmem : c ∈ s.catchable r position (ready - trip.day.daysSince s.baseDay * 1440) := by
    have hminutes := (runs_nth hw hc trip.day position).2
    have htime := h.in_time
    rw [← hcolumn] at hminutes
    rw [Direction.notBefore_iff, hminutes] at htime
    rw [mem_catchable hw hrow]
    refine ⟨hc, ?_⟩
    cases hdir : s.dir <;> simp only [hdir, Direction.sign_forward, Direction.sign_backward] at *
      <;> omega
  have hactive : s.timetable.isActive ((s.timetable.transportsOf r).nth c) trip.day = true := by
    rw [← hcolumn]
    exact h.active
  obtain ⟨d, hfind, hle⟩ := exists_find?_of_pairwise (pairwise_catchable s r position _)
    (fun _ => Int.le_refl _) hmem
    (p := fun column => s.timetable.isActive ((s.timetable.transportsOf r).nth column) trip.day)
    hactive
  refine ⟨⟨(s.timetable.transportsOf r).nth d, trip.day⟩,
    s.boardTime ⟨(s.timetable.transportsOf r).nth d, trip.day⟩ position, ?_, rfl, ?_⟩
  · unfold tripOn?
    rw [Day.shift?_daysSince, Option.filter_some, if_pos (decide_eq_true h.in_calendar)]
    simp only [Option.bind_eq_bind, Option.bind_some, hfind]
    rfl
  · rw [hcolumn]
    simp only [IndexRange.nth]
    cases hdir : s.dir <;> simp only [hdir, Direction.sign_forward, Direction.sign_backward] at *
      <;> omega

/-- A trip that stands before another one of its day meets every event of the route no later. -/
lemma StandsFirst.rowMinutes_le (hw : s.timetable.WellFormed) {other : Trip}
    (h : s.StandsFirst trip other) (hruns : s.Runs r trip) (hruns' : s.Runs r other) {row : Nat}
    (hrow : row < s.timetable.nbOfEvents r) :
    s.dir.sign (s.rowMinutes r trip row) ≤ s.dir.sign (s.rowMinutes r other row) := by
  have hle := h.le
  have hlt := column_lt hruns
  have hlt' := column_lt hruns'
  unfold rowMinutes
  rw [h.day_eq]
  generalize (s.timetable.transportsOf r).start.val = start at hlt hlt' ⊢
  cases hdir : s.dir with
  | forward =>
    simp only [hdir, Direction.sign_forward] at hle ⊢
    have := hw.across hrow (by omega : trip.transport.val - start ≤ other.transport.val - start) hlt'
    omega
  | backward =>
    simp only [hdir, Direction.sign_backward] at hle ⊢
    have := hw.across hrow (by omega : other.transport.val - start ≤ trip.transport.val - start) hlt
    omega

/-- No trip of the service day that can be caught is boarded before the one that is taken. -/
lemma tripOn?_best (hw : s.timetable.WellFormed)
    (hrow : s.dir.boardEvent.row position < s.timetable.nbOfEvents r)
    (h : s.Catches r position ready trip) :
    ∃ other t, s.tripOn? r position ready (trip.day.daysSince s.baseDay) = some (other, t) ∧
      s.dir.sign (s.boardMinutes other position) ≤ s.dir.sign (s.boardMinutes trip position) := by
  obtain ⟨other, t, hon, hfirst⟩ := tripOn?_first hw hrow h
  have hruns := (tripOn?_sound hw hrow h.in_window hon).1.runs
  refine ⟨other, t, hon, ?_⟩
  rw [boardMinutes_row hw hruns, boardMinutes_row hw h.runs]
  exact hfirst.rowMinutes_le hw hruns h.runs hrow

/-- The better one of two trips is one of them, and neither is better than it. -/
lemma betterTrip_spec (s : Search) (best : Option (Trip × RelTime)) (next : Trip × RelTime) :
    ∃ b, s.betterTrip best next = some b ∧ (some b = best ∨ b = next) ∧
      s.dir.cost b.2 ≤ s.dir.cost next.2 ∧
      ∀ c, some c = best → s.dir.cost b.2 ≤ s.dir.cost c.2 := by
  unfold betterTrip
  cases best with
  | none => exact ⟨next, rfl, Or.inr rfl, Int.le_refl _, fun c h => nomatch h⟩
  | some old =>
    dsimp only
    by_cases hbetter : s.dir.isBetter next.2 old.2 = true
    · rw [if_pos hbetter]
      refine ⟨next, rfl, Or.inr rfl, Int.le_refl _, fun c h => ?_⟩
      cases h
      exact Int.le_of_lt (Direction.isBetter_iff.1 hbetter)
    · rw [if_neg hbetter]
      refine ⟨old, rfl, Or.inl rfl, Direction.isBetter_false_iff.1 hbetter, fun c h => ?_⟩
      cases h
      exact Int.le_refl _

/-- The best one of several trips is one of them, and none of them is better. -/
lemma foldl_betterTrip (s : Search) (candidates : List (Trip × RelTime))
    (best : Option (Trip × RelTime)) :
    (∀ c, candidates.foldl s.betterTrip best = some c → some c = best ∨ c ∈ candidates) ∧
      ∀ c, some c = best ∨ c ∈ candidates → ∃ b, candidates.foldl s.betterTrip best = some b ∧
        s.dir.cost b.2 ≤ s.dir.cost c.2 := by
  induction candidates generalizing best with
  | nil =>
    refine ⟨fun c h => Or.inl h.symm, fun c h => ?_⟩
    rcases h with rfl | h
    · exact ⟨c, rfl, Int.le_refl _⟩
    · exact absurd h List.not_mem_nil
  | cons next rest ih =>
    obtain ⟨b, hb, hfrom, hnext, hold⟩ := betterTrip_spec s best next
    rw [List.foldl_cons, hb]
    obtain ⟨hmem, hmin⟩ := ih (some b)
    refine ⟨fun c h => ?_, fun c h => ?_⟩
    · rcases hmem c h with heq | hrest
      · cases heq
        refine hfrom.imp id fun heq => ?_
        rw [heq]
        exact List.mem_cons_self
      · exact Or.inr (List.mem_cons_of_mem _ hrest)
    · rcases h with heq | h
      · obtain ⟨x, hx, hle⟩ := hmin b (Or.inl rfl)
        exact ⟨x, hx, Int.le_trans hle (hold c heq)⟩
      · rcases List.mem_cons.1 h with rfl | hrest
        · obtain ⟨x, hx, hle⟩ := hmin b (Or.inl rfl)
          exact ⟨x, hx, Int.le_trans hle hnext⟩
        · exact hmin c (Or.inr hrest)

/-- The trip that is taken can be caught, and the time is that of boarding it. -/
theorem firstTrip?_sound (hw : s.timetable.WellFormed)
    (hrow : s.dir.boardEvent.row position < s.timetable.nbOfEvents r) {t u : RelTime}
    (h : s.firstTrip? r position t = some (trip, u)) :
    ∃ minutes, t.minutes? = some minutes ∧ s.Catches r position minutes trip ∧
      u = s.boardTime trip position := by
  unfold firstTrip? at h
  obtain ⟨minutes, hminutes, h⟩ := Option.bind_eq_some_iff.1 h
  refine ⟨minutes, hminutes, ?_⟩
  rcases (foldl_betterTrip s _ none).1 _ h with hnone | hmem
  · cases hnone
  · obtain ⟨offset, hoffset, hon⟩ := List.mem_filterMap.1 hmem
    exact tripOn?_sound hw hrow hoffset hon

/-- The trip that is taken stands before every other one of its day that can be caught. -/
lemma firstTrip?_first (hw : s.timetable.WellFormed)
    (hrow : s.dir.boardEvent.row position < s.timetable.nbOfEvents r) {t u : RelTime} {minutes : Int}
    (ht : t.minutes? = some minutes) {other : Trip}
    (h : s.firstTrip? r position t = some (other, u)) (hcatches : s.Catches r position minutes trip)
    (hday : other.day = trip.day) : s.StandsFirst other trip := by
  unfold firstTrip? at h
  rw [ht, Option.bind_eq_bind, Option.bind_some] at h
  rcases (foldl_betterTrip s _ none).1 _ h with hnone | hmem
  · cases hnone
  · obtain ⟨offset, _, hon⟩ := List.mem_filterMap.1 hmem
    obtain ⟨first, v, hfirst, hstands⟩ := tripOn?_first hw hrow hcatches
    rw [← hday, daysSince_of_tripOn? hon, hon] at hfirst
    cases hfirst
    exact hstands

/-- A trip is taken where one can be caught, and it is boarded at the best time. -/
theorem firstTrip?_best (hw : s.timetable.WellFormed)
    (hrow : s.dir.boardEvent.row position < s.timetable.nbOfEvents r) {t : RelTime} {minutes : Int}
    (ht : t.minutes? = some minutes) (h : s.Catches r position minutes trip) :
    ∃ other u, s.firstTrip? r position t = some (other, u) ∧
      s.dir.cost u ≤ s.dir.cost (s.boardTime trip position) := by
  obtain ⟨c, u, hon, hle⟩ := tripOn?_best hw hrow h
  have hcatches := tripOn?_sound hw hrow h.in_window hon
  have hcost : s.dir.cost u ≤ s.dir.cost (s.boardTime trip position) := by
    have htime := hcatches.1.in_time
    have hfeasible : t.isFeasible = true := by rw [RelTime.isFeasible, ht]; rfl
    rw [Direction.notBefore_iff, ← Direction.cost_of_minutes? ht] at htime
    rw [hcatches.2, boardTime_eq, boardTime_eq]
    exact Direction.cost_ofMinutes_mono hfeasible htime hle
  have hmem : (c, u) ∈ (s.dir.tripDays (minutes / 1440)).filterMap (s.tripOn? r position minutes) :=
    List.mem_filterMap.2 ⟨_, h.in_window, hon⟩
  obtain ⟨⟨other, v⟩, hother, hbest⟩ := (foldl_betterTrip s _ none).2 _ (Or.inr hmem)
  refine ⟨other, v, ?_, Int.le_trans hbest hcost⟩
  unfold firstTrip?
  rw [ht]
  exact hother

end Search

end JourneyPlanner
