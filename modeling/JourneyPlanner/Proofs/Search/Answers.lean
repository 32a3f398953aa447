import JourneyPlanner.Proofs.Search.Soundness

/-!
# Answers

What a query answers comes from its searches, and is therefore made of itineraries.
-/

namespace JourneyPlanner

namespace Instant

lemma mem_of_mem_distinct {ts : List Instant} {t : Instant} (h : t ∈ distinct ts) : t ∈ ts := by
  fun_induction distinct ts with
  | case1 a rest ih => exact List.mem_cons_of_mem _ (ih h)
  | case2 a b rest hne ih =>
    rcases List.mem_cons.1 h with rfl | h
    · exact List.mem_cons_self
    · exact List.mem_cons_of_mem _ (ih h)
  | case3 ts _ => exact h

end Instant

namespace Journey

variable {js : List Journey} {j : Journey}

lemma mem_sortByKey : j ∈ sortByKey js ↔ j ∈ js :=
  (List.mergeSort_perm js keyLe).mem_iff

lemma mem_of_mem_dropRepeats (h : j ∈ dropRepeats js) : j ∈ js := by
  fun_induction dropRepeats js with
  | case1 => exact h
  | case2 first rest ih =>
    rcases List.mem_cons.1 h with rfl | h
    · exact List.mem_cons_self
    · exact List.mem_cons_of_mem _ ((List.dropWhile_sublist _).subset (ih h))

lemma mem_of_mem_paretoFilter (h : j ∈ paretoFilter js) : j ∈ js :=
  mem_sortByKey.1 (mem_of_mem_dropRepeats (List.mem_filter.1 h).1)

end Journey

namespace Query

variable {q : Query} {tt : Timetable} {t first last : Instant}

lemma mem_interval_of_mem_startInstants (h : t ∈ q.startInstants tt first last) :
    first ≤ t ∧ t ≤ last := by
  have hsorted := Instant.mem_of_mem_distinct h
  obtain ⟨_, hinside⟩ := List.mem_filter.1 (List.mem_mergeSort.1 hsorted)
  rw [Bool.and_eq_true, decide_eq_true_iff, decide_eq_true_iff] at hinside
  exact hinside

lemma covers_of_mem_searchedInstants (h : t ∈ q.searchedInstants tt) : q.startTime.Covers t := by
  unfold searchedInstants at h
  cases hstart : q.startTime with
  | instant u =>
    rw [hstart] at h
    exact List.mem_singleton.1 h
  | interval first last =>
    rw [hstart] at h
    exact mem_interval_of_mem_startInstants h

end Query

namespace Planner

variable {p : Planner} {j : Journey}

/-- A journey comes from a search from an instant. -/
def Answers (p : Planner) (t : Instant) (j : Journey) : Prop := ∃ s st,
  Search.at? p.timetable p.query t = some s ∧ j ∈ s.journeys (s.explore st).1

lemma searchFrom_keeps (p : Planner) (t : Instant) :
    (p.searchFrom t).2.timetable = p.timetable ∧ (p.searchFrom t).2.query = p.query := by
  unfold searchFrom
  split <;> exact ⟨rfl, rfl⟩

lemma searchFrom_eq {s : Search} {t : Instant}
    (h : Search.at? p.timetable p.query t = some s) :
    (p.searchFrom t).1 = s.journeys (s.explore p.state).1 := by
  unfold searchFrom
  rw [h]

lemma answers_of_mem_searchFrom {t : Instant} (h : j ∈ (p.searchFrom t).1) : p.Answers t j := by
  cases hsearch : Search.at? p.timetable p.query t with
  | none =>
    unfold searchFrom at h
    rw [hsearch] at h
    exact absurd h List.not_mem_nil
  | some s =>
    rw [searchFrom_eq hsearch] at h
    exact ⟨s, p.state, hsearch, h⟩

lemma answers_of_mem_searchAll {ts : List Instant} (h : j ∈ (p.searchAll ts).1.flatten) :
    ∃ t ∈ ts, p.Answers t j := by
  induction ts generalizing p with
  | nil => exact absurd h List.not_mem_nil
  | cons t rest ih =>
    obtain ⟨htimetable, hquery⟩ := p.searchFrom_keeps t
    rw [searchAll, List.flatten_cons, List.mem_append] at h
    rcases h with hfirst | hrest
    · exact ⟨t, List.mem_cons_self, answers_of_mem_searchFrom hfirst⟩
    · obtain ⟨u, hu, hanswers⟩ := ih hrest
      unfold Answers at hanswers
      rw [htimetable, hquery] at hanswers
      exact ⟨u, List.mem_cons_of_mem _ hu, hanswers⟩

/-- A journey of a query comes from a search from one of its instants. -/
lemma answers_of_mem_run (h : j ∈ p.run.1) :
    ∃ t ∈ p.query.searchedInstants p.timetable, p.Answers t j := by
  unfold run at h
  unfold Query.searchedInstants
  cases hstart : p.query.startTime with
  | instant t =>
    rw [hstart] at h
    exact ⟨t, List.mem_singleton.2 rfl, answers_of_mem_searchFrom (Journey.mem_sortByKey.1 h)⟩
  | interval first last =>
    rw [hstart] at h
    exact answers_of_mem_searchAll (Journey.mem_of_mem_paretoFilter (Journey.mem_sortByKey.1 h))

end Planner

namespace Search

variable {s : Search} {j : Journey}

/-- A journey of a search that knows its instants is an itinerary from the instant searched. -/
theorem Told.isItinerary_of_mem (htold : s.Told) (hw : s.timetable.WellFormed)
    (hanchored : s.Anchored) (hmax : s.query.maxTransfers ≤ maxTransfers) {st : SearchState}
    (h : j ∈ s.journeys (s.explore st).1) :
    j.IsItinerary s.timetable s.query ∧ s.instant? s.start = some (s.query.givenEnd j) := by
  obtain ⟨k, hit, before, hk, harrives, hleads, htimed, rfl⟩ :=
    exists_way_of_mem_journeys hw hanchored hmax h
  exact ⟨htold.isItinerary hw harrives hleads htimed hk,
    givenEnd_journey hanchored.isFeasible k before⟩

end Search

/-- Every journey of an accepted query is an itinerary between offsets of the query. It begins, in
the direction of the search, at an instant that was searched and that the start time covers. -/
theorem isItinerary_of_mem_run {tt : Timetable} (hbuilt : tt.IsBuilt)
    (hfit : tt.calendar.InstantsFit) {accepting : SearchState} {q : Query} {planner : Planner}
    (haccept : Planner.accept tt accepting q = .ok planner) {j : Journey}
    (h : j ∈ planner.run.1) :
    j.IsItinerary tt q ∧ q.givenEnd j ∈ q.searchedInstants tt ∧
      q.startTime.Covers (q.givenEnd j) := by
  obtain ⟨rfl, hfits, _⟩ := Planner.accept_eq_ok_iff.1 haccept
  obtain ⟨t, ht, s, st, hsearch, hj⟩ := Planner.answers_of_mem_run h
  obtain ⟨rfl, rfl, hanchored, hstart, hbase⟩ := Search.at?_sound hsearch
  obtain ⟨hitinerary, hgiven⟩ := Search.Told.isItinerary_of_mem ⟨hfit, hbase⟩ hbuilt.wellFormed
    hanchored hfits.maxTransfers_le hj
  have ht' : s.query.givenEnd j = t := Option.some.inj (hgiven.symm.trans hstart)
  rw [ht']
  exact ⟨hitinerary, ht, Query.covers_of_mem_searchedInstants ht⟩

lemma TwoVehicles.calendar_timetable {second : Nat} (h : second = 540 ∨ second = 545) :
    (timetable second).calendar = calendar := by
  rcases h with rfl | rfl <;> cbv

lemma TwoVehicles.instantsFit_calendar : calendar.InstantsFit := by
  intro day n hday hgt hlt
  have hdays : calendar.nbOfDays = 8 := by cbv
  have horigin : calendar.origin.minutes = 26290080 := by cbv
  omega

lemma TwoVehicles.instantsFit {second : Nat} (h : second = 540 ∨ second = 545) :
    (timetable second).calendar.InstantsFit := by
  rw [calendar_timetable h]
  exact instantsFit_calendar

/-- The only journey of the sample query leaves at ten past eight. -/
theorem TwoVehicles.isItinerary_of_mem_run_head : ∃ j, (planner 540).run.1.head? = some j ∧
    j.IsItinerary (timetable 540) query ∧ query.givenEnd j ∈ query.searchedInstants (timetable 540) ∧
      query.startTime.Covers (query.givenEnd j) := by
  have hsome : (planner 540).run.1.head?.isSome = true := by decide +kernel
  obtain ⟨j, hj⟩ := Option.isSome_iff_exists.1 hsome
  exact ⟨j, hj, isItinerary_of_mem_run (isBuilt (.inl rfl)) (instantsFit (.inl rfl))
    (accept_eq (.inl rfl)) (List.mem_of_head? hj)⟩

end JourneyPlanner
