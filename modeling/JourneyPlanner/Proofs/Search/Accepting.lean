import Mathlib.Tactic.Common
import JourneyPlanner.Search.Planner

/-!
# Accepted queries

What an accepted query promises to the search.
-/

namespace JourneyPlanner

namespace Query

/-- A query that fits a timetable and a search for a number of via stops. -/
structure Fits (q : Query) (tt : Timetable) (nbOfVias : Nat) : Prop where
  starts : q.start.isEmpty = false
  ends : q.destination.isEmpty = false
  known : ∀ l ∈ q.locations, l.val < tt.nbOfLocations
  vias_le : q.vias.length ≤ maxVias
  vias_eq : q.vias.length = nbOfVias
  consistent : ∀ via ∈ q.vias, via.isContradictory = false
  maxTransfers_le : q.maxTransfers ≤ JourneyPlanner.maxTransfers
  start_ok : Query.checkStartTime tt q.startTime = .ok ()

/-- The queries that are accepted are those that fit. -/
lemma validate_eq_ok_iff {q : Query} {tt : Timetable} {nbOfVias : Nat} :
    q.validate tt nbOfVias = .ok () ↔ q.Fits tt nbOfVias := by
  constructor
  · intro h
    unfold validate at h
    dsimp only at h
    split at h
    · cases h
    rename_i hstarts
    split at h
    · cases h
    rename_i hends
    split at h
    · cases h
    rename_i hknown
    split at h
    · cases h
    rename_i hle
    split at h
    · cases h
    rename_i hvias
    split at h
    · cases h
    rename_i hconsistent
    split at h
    · cases h
    rename_i htransfers
    refine ⟨Bool.eq_false_iff.2 hstarts, Bool.eq_false_iff.2 hends,
      fun l hl => ?_, Nat.le_of_not_lt hle, not_not.1 hvias, fun via hvia => ?_,
      Nat.le_of_not_lt htransfers, h⟩
    · by_contra hnot
      have hfound : (q.locations.find? fun l => decide (tt.nbOfLocations ≤ l.val)).isSome = true :=
        List.find?_isSome.2 ⟨l, hl, decide_eq_true (Nat.le_of_not_lt hnot)⟩
      obtain ⟨m, hm⟩ := Option.isSome_iff_exists.1 hfound
      exact hknown m hm
    · by_contra hnot
      have hfound : (q.vias.find? (·.isContradictory)).isSome = true :=
        List.find?_isSome.2 ⟨via, hvia, Bool.of_not_eq_false hnot⟩
      obtain ⟨m, hm⟩ := Option.isSome_iff_exists.1 hfound
      exact hconsistent m hm
  · intro h
    have hknown : (q.locations.find? fun l => decide (tt.nbOfLocations ≤ l.val)) = none :=
      List.find?_eq_none.2 fun l hl hfound => absurd (of_decide_eq_true hfound)
        (Nat.not_le_of_lt (h.known l hl))
    have hconsistent : q.vias.find? (·.isContradictory) = none :=
      List.find?_eq_none.2 fun via hvia hfound => by
        rw [h.consistent via hvia] at hfound
        cases hfound
    unfold validate
    rw [h.starts, h.ends, hknown, hconsistent]
    dsimp only
    rw [if_neg Bool.false_ne_true, if_neg (Nat.not_lt_of_le h.vias_le),
      if_neg (not_not.2 h.vias_eq), if_neg (Nat.not_lt_of_le h.maxTransfers_le)]
    exact h.start_ok

end Query

namespace Planner

lemma accept_eq_ok_iff {tt : Timetable} {state : SearchState} {q : Query} {p : Planner} :
    accept tt state q = .ok p ↔ p = ⟨tt, q, state, 0⟩ ∧ q.Fits tt state.nbOfVias ∧
      state.isSizedFor tt.nbOfLocations tt.nbOfRoutes = true := by
  rw [← Query.validate_eq_ok_iff]
  unfold accept
  cases hvalidate : q.validate tt state.nbOfVias with
  | error e => exact iff_of_false (fun h => nomatch h) fun h => nomatch h.2.1
  | ok u =>
    cases hsized : state.isSizedFor tt.nbOfLocations tt.nbOfRoutes with
    | false => exact iff_of_false (fun h => nomatch h) fun h => nomatch h.2.2
    | true =>
      constructor
      · intro h
        cases h
        exact ⟨rfl, rfl, rfl⟩
      · rintro ⟨rfl, _, _⟩
        rfl

lemma nbOfLocations_eq_of_isSizedFor {state : SearchState} {locations routes : Nat}
    (h : state.isSizedFor locations routes = true) : state.nbOfLocations = locations := by
  unfold SearchState.isSizedFor at h
  rw [Bool.and_eq_true, beq_iff_eq] at h
  exact h.1

end Planner

end JourneyPlanner
