import JourneyPlanner.Proofs.Search.Accepting
import JourneyPlanner.Proofs.Search.Forgetting
import JourneyPlanner.Proofs.Search.Recovery
import JourneyPlanner.Request.Solver

/-!
# Serving one request after the other

What a solver has served before has no part in its answers: a search state is searched as a new one
would be, whatever timetable, direction and query it served last.
-/

namespace JourneyPlanner

section Solving

variable {tt : Timetable} {q : Query} {a b st : SearchState}

lemma SearchState.sizes_eq_iff : a.sizes = b.sizes ↔
    a.levels = b.levels ∧ a.nbOfLocations = b.nbOfLocations ∧ a.nbOfRoutes = b.nbOfRoutes := by
  unfold SearchState.sizes
  rw [Prod.mk.injEq, Prod.mk.injEq]

lemma SearchState.sizes_of_isSizedFor (h : st.isSizedFor tt.nbOfLocations tt.nbOfRoutes = true) :
    st.sizes = (st.levels, tt.nbOfLocations, tt.nbOfRoutes) := by
  unfold SearchState.isSizedFor at h
  rw [Bool.and_eq_true, beq_iff_eq, beq_iff_eq] at h
  unfold SearchState.sizes
  rw [h.1, h.2]

lemma Planner.accept_congr (hsizes : a.sizes = b.sizes) :
    accept tt a q = (accept tt b q).map fun p => { p with state := a } := by
  obtain ⟨hlevels, hlocations, hroutes⟩ := SearchState.sizes_eq_iff.1 hsizes
  unfold accept SearchState.nbOfVias SearchState.isSizedFor
  rw [hlevels, hlocations, hroutes]
  cases q.validate tt (b.levels - 1) with
  | error e => rfl
  | ok _ => cases b.nbOfLocations == tt.nbOfLocations && b.nbOfRoutes == tt.nbOfRoutes <;> rfl

/-- A query is answered alike in all states of the same sizes. -/
lemma solve_congr (hsizes : a.sizes = b.sizes) : (solve tt a q).1 = (solve tt b q).1 := by
  unfold solve
  rw [Planner.accept_congr hsizes]
  cases h : Planner.accept tt b q with
  | error e => rfl
  | ok p =>
    obtain ⟨rfl, _, _⟩ := Planner.accept_eq_ok_iff.1 h
    exact congrArg Except.ok (Planner.run_congr rfl rfl hsizes)

/-- What every search keeps in the state is kept by an answer. -/
lemma solve_keeps {M : SearchState → Prop}
    (hexplore : ∀ (s : Search) (st : SearchState), M st → M (s.explore st).1.state) (h : M st) :
    M (solve tt st q).2 := by
  unfold solve
  cases haccept : Planner.accept tt st q with
  | error e => exact h
  | ok p =>
    obtain ⟨rfl, _, _⟩ := Planner.accept_eq_ok_iff.1 haccept
    exact Planner.run_retains hexplore h

end Solving

namespace Solver

variable {s s' : Solver} {tt : Timetable} {st : SearchState}

lemma sizes_sizedFor (st : SearchState) (tt : Timetable) :
    (sizedFor st tt).sizes = (st.levels, tt.nbOfLocations, tt.nbOfRoutes) := by
  unfold sizedFor
  split
  · exact SearchState.sizes_of_isSizedFor ‹_›
  · rfl

/-- One state is kept for each number of via stops, and its tables are as large as it is said. -/
structure Keeps (s : Solver) : Prop where
  length_eq : s.states.length = maxVias + 1
  levels_eq : ∀ {i : Nat} {st : SearchState}, s.states[i]? = some st → st.levels = i + 1
  shaped : ∀ {i : Nat} {st : SearchState}, s.states[i]? = some st →
    st.Shaped st.nbOfLocations st.levels

lemma states_new_eq {i : Nat} (h : new.states[i]? = some st) : st = .new (i + 1) := by
  unfold new at h
  rw [List.getElem?_map, Option.map_eq_some_iff] at h
  obtain ⟨vias, hvias, rfl⟩ := h
  obtain ⟨_, rfl⟩ := List.getElem?_eq_some_iff.1 hvias
  rw [List.getElem_range]

lemma keeps_new : new.Keeps where
  length_eq := rfl
  levels_eq h := by
    rw [states_new_eq h]
    rfl
  shaped h := by
    rw [states_new_eq h]
    exact SearchState.shaped_sized _ _ _ _

lemma shaped_sizedFor (h : st.Shaped st.nbOfLocations st.levels) (tt : Timetable) :
    (sizedFor st tt).Shaped (sizedFor st tt).nbOfLocations (sizedFor st tt).levels := by
  unfold sizedFor
  split
  · exact h
  · exact SearchState.shaped_sized _ _ _ _

lemma levels_sizedFor (st : SearchState) (tt : Timetable) : (sizedFor st tt).levels = st.levels :=
  congrArg Prod.fst (sizes_sizedFor st tt)

/-- A search keeps a shaped state shaped, with its number of levels. -/
lemma shaped_of_explore {levels : Nat} (s : Search) (st : SearchState)
    (h : st.levels = levels ∧ st.Shaped st.nbOfLocations st.levels) :
    (s.explore st).1.state.levels = levels ∧ (s.explore st).1.state.Shaped
      (s.explore st).1.state.nbOfLocations (s.explore st).1.state.levels := by
  obtain ⟨hlevels, hlocations, _⟩ := SearchState.sizes_eq_iff.1 (Search.sizes_explore s st)
  rw [hlevels, hlocations]
  exact ⟨h.1, Search.shaped_explore s st⟩

/-- An answer leaves the states as they are to be kept. -/
lemma Keeps.answer (h : s.Keeps) (e : Enquiry) : (s.answer e).2.Keeps := by
  unfold Solver.answer Solver.solve
  dsimp only
  generalize hq : e.request.query e.params e.role = q
  cases hstate : s.states[q.vias.length]? with
  | none => exact h
  | some st =>
    dsimp only
    generalize hused : (JourneyPlanner.solve e.timetable (sizedFor st e.timetable) q).2 = used
    have hsolved : used.levels = st.levels ∧ used.Shaped used.nbOfLocations used.levels := by
      rw [← hused]
      exact solve_keeps
        (M := fun st' => st'.levels = st.levels ∧ st'.Shaped st'.nbOfLocations st'.levels)
        shaped_of_explore
        ⟨levels_sizedFor st e.timetable, shaped_sizedFor (h.shaped hstate) e.timetable⟩
    have hset : ∀ {i : Nat} {st' : SearchState},
        (s.states.set q.vias.length used)[i]? = some st' →
          st'.levels = i + 1 ∧ st'.Shaped st'.nbOfLocations st'.levels := by
      intro i st' hi
      rw [List.getElem?_set] at hi
      split at hi
      · rename_i heq
        subst heq
        split at hi
        · cases hi
          exact ⟨hsolved.1.trans (h.levels_eq hstate), hsolved.2⟩
        · cases hi
      · exact ⟨h.levels_eq hi, h.shaped hi⟩
    exact ⟨(List.length_set ..).trans h.length_eq, fun hi => (hset hi).1, fun hi => (hset hi).2⟩

lemma Keeps.after (h : s.Keeps) (history : List Enquiry) : (s.after history).Keeps :=
  List.foldlRecOn (motive := Keeps) history _ h fun _ hs e _ => hs.answer e

/-- Solvers that keep such states answer alike. -/
lemma Keeps.answer_congr (h : s.Keeps) (h' : s'.Keeps) (e : Enquiry) :
    (s.answer e).1 = (s'.answer e).1 := by
  unfold Solver.answer Solver.solve
  dsimp only
  generalize e.request.query e.params e.role = q
  rcases Nat.lt_or_ge q.vias.length (maxVias + 1) with hlt | hge
  · obtain ⟨st, hst⟩ : ∃ st, s.states[q.vias.length]? = some st :=
      ⟨_, List.getElem?_eq_getElem (h.length_eq ▸ hlt)⟩
    obtain ⟨st', hst'⟩ : ∃ st', s'.states[q.vias.length]? = some st' :=
      ⟨_, List.getElem?_eq_getElem (h'.length_eq ▸ hlt)⟩
    have hsizes : (sizedFor st e.timetable).sizes = (sizedFor st' e.timetable).sizes := by
      rw [sizes_sizedFor, sizes_sizedFor, h.levels_eq hst, h'.levels_eq hst']
    rw [hst, hst']
    dsimp only
    rw [solve_congr hsizes]
  · rw [List.getElem?_eq_none (h.length_eq ▸ hge), List.getElem?_eq_none (h'.length_eq ▸ hge)]

end Solver

/-- An answer does not depend on what was answered before: not on the enquiries that a solver has
served, and not on what the searches before have left in the search state. A state that a solver
keeps is overwritten in place before a search, and nothing is left in it then. -/
theorem answer_after_eq (history history' : List Enquiry) (e : Enquiry) :
    ((Solver.new.after history).answer e).1 = ((Solver.new.after history').answer e).1 ∧
      (∀ st ∈ (Solver.new.after history).states, st.clear = st.reset) ∧
      ∀ (tt : Timetable) (q : Query) (a b : SearchState),
        a.isSizedFor tt.nbOfLocations tt.nbOfRoutes = true →
        b.isSizedFor tt.nbOfLocations tt.nbOfRoutes = true → a.levels = b.levels →
        (solve tt a q).1 = (solve tt b q).1 := by
  have hkeeps := Solver.keeps_new.after history
  refine ⟨hkeeps.answer_congr (Solver.keeps_new.after history') e, ?_, ?_⟩
  · intro st hst
    obtain ⟨i, hi⟩ := List.mem_iff_getElem?.1 hst
    exact (hkeeps.shaped hi).clear_eq_reset
  · intro tt q a b ha hb hlevels
    apply solve_congr
    rw [SearchState.sizes_of_isSizedFor ha, SearchState.sizes_of_isSizedFor hb, hlevels]

namespace TwoVehicles

def enquiry (second : Nat) : Enquiry :=
  ⟨timetable second, ⟨query.startTime, query.start, query.destination, []⟩, .default, .departure⟩

/-- What another timetable leaves in the state has no part in the journeys of this one. -/
theorem answer_after_other : ∃ journeys, (solve (timetable 540) state query).1 = .ok journeys ∧
    journeys ≠ [] ∧
    (solve (timetable 540) (solve (timetable 545) state query).2 query).1 = .ok journeys ∧
    ((Solver.new.after [enquiry 545]).answer (enquiry 540)).1 =
      (Solver.new.answer (enquiry 540)).1 := by
  obtain ⟨hhistory, _, hstates⟩ := answer_after_eq [enquiry 545] [] (enquiry 540)
  have hsolve : (solve (timetable 540) state query).1 = .ok (planner 540).run.1 := by
    unfold solve
    rw [accept_eq (.inl rfl)]
  have hsome : (planner 540).run.1 ≠ [] := by decide +kernel
  have hused : (solve (timetable 545) state query).2.isSizedFor (timetable 540).nbOfLocations
      (timetable 540).nbOfRoutes = true := by decide +kernel
  have hlevels : (solve (timetable 545) state query).2.levels = state.levels := by decide +kernel
  exact ⟨_, hsolve, hsome,
    (hstates (timetable 540) query _ state hused (by decide +kernel) hlevels).trans hsolve, hhistory⟩

end TwoVehicles

end JourneyPlanner
