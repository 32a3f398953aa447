import JourneyPlanner.Proofs.Journey.Filtering
import JourneyPlanner.Proofs.Search.Answers
import JourneyPlanner.Proofs.Search.Forgetting

/-!
# One more transfer

A query that allows one more transfer makes one more round. The rounds before it, and the journeys
that are told from them, are those of the query that allows less.
-/

namespace JourneyPlanner

namespace Search

variable {s : Search} {st : SearchState} {j : Journey} {k : Nat}

/-- The journey of a round. -/
def journeyIn? (s : Search) (p : Progress) (k : Nat) : Option Journey :=
  (p.hit? k).bind fun h => (s.journeyOf? p.state k h).filter (s.query.allowsStays s.timetable)

lemma journeys_eq (s : Search) (p : Progress) :
    s.journeys p = (List.range' 1 (s.query.maxTransfers + 1)).filterMap (s.journeyIn? p) := rfl

/-- A journey of round `k` changes vehicles `k - 1` times. -/
lemma nbOfTransfers_of_journeyIn? {p : Progress} (h : s.journeyIn? p k = some j) :
    j.nbOfTransfers = k - 1 := by
  unfold journeyIn? at h
  obtain ⟨hit, _, hfilter⟩ := Option.bind_eq_some_iff.1 h
  obtain ⟨hjourney, _⟩ := Option.filter_eq_some_iff.1 hfilter
  unfold journeyOf? at hjourney
  obtain ⟨_, _, hlegs⟩ := Option.bind_eq_some_iff.1 hjourney
  obtain ⟨_, _, hstart⟩ := Option.bind_eq_some_iff.1 hlegs
  obtain ⟨_, _, hfinish⟩ := Option.bind_eq_some_iff.1 hstart
  obtain ⟨_, _, hends⟩ := Option.bind_eq_some_iff.1 hfinish
  cases Option.some.inj hends
  rfl

lemma rounds_zero (s : Search) (k : Nat) (p : Progress) : s.rounds 0 k p = (p, k - 1) := rfl

lemma rounds_eq (s : Search) (remaining k : Nat) (p : Progress) :
    s.rounds (remaining + 1) k p = if (s.round k p).state.anyMarked then
      s.rounds remaining (k + 1) (s.round k p) else (s.round k p, k) := rfl

/-- A search that may make one more round does not make it, or makes it in the end. -/
lemma rounds_succ (s : Search) (remaining k : Nat) (p : Progress) :
    (s.rounds (remaining + 1) k p).1 = (s.rounds remaining k p).1 ∨
      (s.rounds (remaining + 1) k p).1 = s.round (k + remaining) (s.rounds remaining k p).1 := by
  induction remaining generalizing k p with
  | zero =>
    right
    rw [rounds_eq, rounds_zero, rounds_zero]
    by_cases hmarked : (s.round k p).state.anyMarked = true
    · rw [if_pos hmarked]
      rfl
    · rw [if_neg hmarked]
      rfl
  | succ remaining ih =>
    rw [rounds_eq s (remaining + 1) k, rounds_eq s remaining k]
    by_cases hmarked : (s.round k p).state.anyMarked = true
    · have hround : k + (remaining + 1) = k + 1 + remaining := by omega
      rw [if_pos hmarked, if_pos hmarked, hround]
      exact ih (k + 1) (s.round k p)
    · rw [if_neg hmarked, if_neg hmarked]
      exact .inl rfl

/-- The same search for a query that allows one more transfer. -/
def more (s : Search) : Search := s.asking s.query.startTime (s.query.maxTransfers + 1)

lemma explore_more (s : Search) (st : SearchState) :
    (s.more.explore st).1 = (s.explore st).1 ∨
      (s.more.explore st).1 = s.round (s.query.maxTransfers + 2) (s.explore st).1 := by
  have hrounds : s.more.explore st =
      s.rounds (s.query.maxTransfers + 2) 1 (s.seed (s.prepare st)) := by
    unfold explore more
    rw [rounds_asking]
    rfl
  have hlast : s.query.maxTransfers + 2 = 1 + (s.query.maxTransfers + 1) := by omega
  rw [hrounds]
  conv => rhs; rhs; rw [hlast]
  exact rounds_succ s (s.query.maxTransfers + 1) 1 _

/-- One more round leaves the ways to the destination, and the ends, of those before it. -/
lemma journeyIn?_more (hw : s.timetable.WellFormed) (hmore : s.query.maxTransfers < maxTransfers)
    (st : SearchState) (hk : k < s.query.maxTransfers + 2) :
    s.more.journeyIn? (s.more.explore st).1 k = s.journeyIn? (s.explore st).1 k := by
  have hmax : maxRounds = maxTransfers + 2 := rfl
  obtain ⟨_, _, htraced⟩ := traced_explore (s := s) hw (Nat.le_of_lt hmore) st
  obtain ⟨_, _, hfits⟩ := htraced.fits
  have hkept : (s.more.explore st).1.hit? k = (s.explore st).1.hit? k ∧
      SearchState.AgreeBefore k (s.more.explore st).1.state (s.explore st).1.state := by
    rcases s.explore_more st with heq | heq <;> rw [heq]
    · exact ⟨rfl, fun _ _ _ _ => rfl⟩
    · refine ⟨hit?_roundOver (Nat.ne_of_lt hk), fun i l v hi => ?_⟩
      exact (finish_roundOver hfits (by omega) s _ i l v).trans (if_neg (by omega))
  have hjourney : ∀ h, s.more.journeyOf? (s.more.explore st).1.state k h =
      s.journeyOf? (s.explore st).1.state k h := by
    intro h
    unfold more at hkept ⊢
    rw [journeyOf?_asking, journeyOf?_congr hkept.2]
  unfold journeyIn?
  rw [hkept.1]
  simp only [hjourney]
  rfl

/-- The journeys of a search are those with few transfers of the search that allows one more. -/
lemma journeys_more (hw : s.timetable.WellFormed) (hmore : s.query.maxTransfers < maxTransfers)
    (st : SearchState) : s.journeys (s.explore st).1 =
      (s.more.journeys (s.more.explore st).1).filter fun j =>
        decide (j.nbOfTransfers ≤ s.query.maxTransfers) := by
  have hrange : List.range' 1 (s.more.query.maxTransfers + 1) =
      List.range' 1 (s.query.maxTransfers + 1) ++ [s.query.maxTransfers + 2] := by
    have hconcat := List.range'_1_concat (s := 1) (n := s.query.maxTransfers + 1)
    rwa [Nat.add_comm 1 (s.query.maxTransfers + 1)] at hconcat
  have hfirst : (List.range' 1 (s.query.maxTransfers + 1)).filterMap
      (s.more.journeyIn? (s.more.explore st).1) = s.journeys (s.explore st).1 := by
    rw [journeys_eq]
    refine List.filterMap_congr fun k hk => journeyIn?_more hw hmore st ?_
    have hk' := List.mem_range'_1.1 hk
    omega
  have hkept : ∀ j ∈ s.journeys (s.explore st).1,
      decide (j.nbOfTransfers ≤ s.query.maxTransfers) = true := by
    intro j hj
    rw [journeys_eq] at hj
    obtain ⟨k, hk, hin⟩ := List.mem_filterMap.1 hj
    have htransfers := nbOfTransfers_of_journeyIn? hin
    have hk' := List.mem_range'_1.1 hk
    rw [decide_eq_true_eq]
    omega
  have hdropped : ∀ j ∈ [s.query.maxTransfers + 2].filterMap
      (s.more.journeyIn? (s.more.explore st).1),
      ¬decide (j.nbOfTransfers ≤ s.query.maxTransfers) = true := by
    intro j hj
    obtain ⟨k, hk, hin⟩ := List.mem_filterMap.1 hj
    have htransfers := nbOfTransfers_of_journeyIn? hin
    rw [List.mem_singleton.1 hk] at htransfers
    rw [decide_eq_true_eq]
    omega
  rw [journeys_eq s.more, hrange, List.filterMap_append, List.filter_append, hfirst,
    List.filter_eq_self.2 hkept, List.filter_eq_nil_iff.2 hdropped, List.append_nil]

end Search

namespace Planner

variable {p : Planner}

/-- The same planner for a query that allows one more transfer. -/
def more (p : Planner) : Planner :=
  { p with query := { p.query with maxTransfers := p.query.maxTransfers + 1 } }

lemma at?_more (p : Planner) (t : Instant) : Search.at? p.more.timetable p.more.query t =
    (Search.at? p.timetable p.query t).map Search.more := by
  unfold Search.at?
  rw [Option.map_map]
  rfl

/-- The journeys from an instant are those with few transfers of one more transfer allowed. -/
lemma searchFrom_more (hw : p.timetable.WellFormed) (hmore : p.query.maxTransfers < maxTransfers)
    (t : Instant) : (p.searchFrom t).1 =
      (p.more.searchFrom t).1.filter fun j => decide (j.nbOfTransfers ≤ p.query.maxTransfers) := by
  have hat := p.at?_more t
  cases h : Search.at? p.timetable p.query t with
  | none =>
    rw [h] at hat
    rw [searchFrom_of_none h, searchFrom_of_none hat, List.filter_nil]
  | some s =>
    rw [h] at hat
    obtain ⟨htimetable, hquery, _⟩ := Search.at?_sound h
    rw [searchFrom_of_some h, searchFrom_of_some hat, ← hquery]
    dsimp only
    rw [Search.journeys_more (htimetable ▸ hw) (hquery ▸ hmore) p.state]
    rfl

lemma run_more (hw : p.timetable.WellFormed) (hmore : p.query.maxTransfers < maxTransfers) :
    p.run.1 = p.more.run.1.filter fun j => decide (j.nbOfTransfers ≤ p.query.maxTransfers) := by
  have hsearch := fun t => searchFrom_more hw hmore t
  cases hstart : p.query.startTime with
  | instant t =>
    rw [run_of_instant hstart, run_of_instant (p := p.more) hstart, hsearch,
      Journey.filter_sortByKey]
  | interval first last =>
    have hkeys : ∀ a b : Journey, a.sameKey b = true →
        decide (a.nbOfTransfers ≤ p.query.maxTransfers) =
          decide (b.nbOfTransfers ≤ p.query.maxTransfers) := by
      intro a b hsame
      rw [(Journey.sameKey_iff.1 hsame).2.2]
    have hdominates : ∀ a b : Journey, a.dominates b = true →
        decide (b.nbOfTransfers ≤ p.query.maxTransfers) = true →
          decide (a.nbOfTransfers ≤ p.query.maxTransfers) = true := by
      intro a b hdominates hb
      have hle := (Journey.dominates_iff.1 hdominates).1.2.2
      rw [decide_eq_true_eq] at hb ⊢
      omega
    rw [run_of_interval hstart, run_of_interval (p := p.more) hstart, Journey.filter_sortByKey,
      Journey.filter_paretoFilter hkeys hdominates, List.filter_flatMap]
    simp only [hsearch]
    rfl

end Planner

namespace TwoVehicles

end TwoVehicles

end JourneyPlanner
