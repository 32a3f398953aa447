import JourneyPlanner.Proofs.Search.InRange.Basic
import JourneyPlanner.Proofs.Search.Settling
import JourneyPlanner.Search.Checked.Transfer

/-!
# Changing vehicles in range

Footpaths lead to known locations only, and a stay at via stops never leads beyond the last level.
So whoever leaves a vehicle, or the start, at a known location comes to places of the tables only.
-/

namespace JourneyPlanner

open Checked

/-- An arrival has a place in the tables of a search. -/
structure Arrival.Fits (a : Arrival) (s : Search) : Prop where
  location_lt : a.location.val < s.timetable.nbOfLocations
  level_lt : a.level < s.levels

namespace Search

variable {s : Search} {p : Progress} {k v : Nat} {l : LocationIndex} {t : RelTime} {a : Arrival}
  {w : Option Walk}

lemma walksM_eq_ok (hg : s.Grounded) (hl : l.val < s.timetable.nbOfLocations) (t : RelTime) :
    s.walksM l t = .ok (s.walks l t) := by
  rw [walksM, Timetable.footpathsM_eq_ok hg.filled hl, ok_bind,
    Timetable.timedFootpathsM_eq_ok hg.filled hl, ok_bind, walks]
  cases s.instant? t with
  | none =>
    dsimp only
    rw [List.append_nil]
    rfl
  | some instant =>
    dsimp only
    rw [TimedFootpath.walksM_eq_ok]
    rfl

lemma reachOnFootM_eq_ok (hp : s.Sized p) (hk : k < maxRounds)
    (hl : l.val < s.timetable.nbOfLocations) (hv : v < s.levels) :
    s.reachOnFootM k a w l v t p = .ok (s.reachOnFoot k a w l v t p) ∧
      s.Sized (s.reachOnFoot k a w l v t p) := by
  refine foldlM_eq_ok (P := s.Sized) (fun q reached hmem hq => ?_) hp
  obtain ⟨hreach, hsized⟩ := reachDestinationM_eq_ok hq hk a w l reached.1 reached.2
  rw [reached_eq] at hmem
  obtain ⟨stay, hstay, rfl⟩ := List.mem_map.1 hmem
  dsimp only at hreach ⊢
  rw [hreach, ok_bind]
  exact improveStartM_eq_ok hsized hk hl (lt_levels_of_mem_stays hstay hv) _

lemma walkOnM_eq_ok (hg : s.Grounded) (hp : s.Sized p) (hk : k < maxRounds)
    (hl : a.location.val < s.timetable.nbOfLocations) (hv : v < s.levels) :
    s.walkOnM k a v t p = .ok (s.walkOn k a v t p) ∧ s.Sized (s.walkOn k a v t p) := by
  rw [walkOnM, walksM_eq_ok hg hl, ok_bind]
  exact foldlM_eq_ok (P := s.Sized) (fun _ _ hwalk hq =>
    reachOnFootM_eq_ok hq hk (target_known hg.wellFormed hwalk) hv) hp

lemma alightM_eq_ok (hg : s.Grounded) (hp : s.Sized p) (hk : k < maxRounds) (ha : a.Fits s) :
    s.alightM k a p = .ok (s.alight k a p) ∧ s.Sized (s.alight k a p) := by
  rw [alightM, Timetable.transferTimeM_eq_ok ha.location_lt, ok_bind]
  refine foldlM_eq_ok (P := s.Sized) (fun q stay hstay hq => ?_) hp
  have hv := lt_levels_of_mem_stays hstay ha.level_lt
  obtain ⟨hreach, hreached⟩ := reachDestinationM_eq_ok hq hk a none a.location stay.1
    (s.dir.add a.time stay.2)
  obtain ⟨hstart, hstarted⟩ := improveStartM_eq_ok hreached hk ha.location_lt hv
    (s.dir.add a.time (stay.2.longer (s.timetable.locations.transferTime a.location)))
  dsimp only
  rw [hreach, ok_bind, hstart, ok_bind]
  exact walkOnM_eq_ok hg hstarted hk ha.location_lt hv

lemma alightAtM_eq_ok (hg : s.Grounded) (hp : s.Sized p) (hk : k < maxRounds)
    (hl : l.val < s.timetable.nbOfLocations) :
    s.alightAtM k p l = .ok (s.alightAt k p l) ∧ s.Sized (s.alightAt k p l) := by
  refine foldlM_eq_ok (P := s.Sized) (fun q v hv hq => ?_) hp
  have hlevel := List.mem_range.1 hv
  rw [Labels.timeM_eq_ok hq.state.fits.tmp hl hlevel, ok_bind]
  dsimp only
  split
  · exact alightM_eq_ok hg hq hk ⟨hl, hlevel⟩
  · exact ⟨rfl, hq⟩

lemma transferAllM_eq_ok (hg : s.Grounded) (hp : s.Sized p) (hk : k < maxRounds) :
    s.transferAllM k p = .ok (s.transferAll k p) ∧ s.Sized (s.transferAll k p) :=
  foldlM_eq_ok (P := s.Sized) (fun _ _ hl hq =>
    alightAtM_eq_ok hg hq hk (hp.state.fits.lt_of_mem_marked hl)) hp.rotateMarks

lemma seedOffsetM_eq_ok (hg : s.Grounded) (hp : s.Sized p) {o : Offset}
    (ho : o ∈ s.query.start) :
    s.seedOffsetM p o = .ok (s.seedOffset p o) ∧ s.Sized (s.seedOffset p o) := by
  have hl := hg.start_known o ho
  obtain ⟨hfoot, hsized⟩ := reachOnFootM_eq_ok (k := 0) (t := s.seedTime o) (w := none)
    (a := ⟨o.location, 0, s.seedTime o⟩) hp (by decide) hl s.levels_pos
  rw [seedOffsetM, hfoot, ok_bind]
  exact walkOnM_eq_ok hg hsized (by decide) hl s.levels_pos

lemma seedM_eq_ok (hg : s.Grounded) (hp : s.Sized p) :
    s.seedM p = .ok (s.seed p) ∧ s.Sized (s.seed p) := by
  obtain ⟨hloop, hsized⟩ := foldlM_eq_ok (P := s.Sized) (l := s.query.start)
    (fun q o ho hq => seedOffsetM_eq_ok hg hq ho) hp
  rw [seedM, hloop, ok_bind, SearchState.finishRoundM_eq_ok hsized.state (by decide), ok_bind,
    Progress.mapState_const _ (·.finishRound s.dir 0)]
  exact ⟨rfl, hsized.finishRound _ _⟩

end Search

end JourneyPlanner
