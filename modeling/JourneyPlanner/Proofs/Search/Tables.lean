import JourneyPlanner.Proofs.Time.Costs
import JourneyPlanner.Search.State

/-!
# The tables of a search

A state that has been sized keeps its tables in their shape. What is stated below is what they
answer after each change, and after the end of a round.
-/

namespace JourneyPlanner

namespace Labels

/-- A table of times for a number of locations and of levels. -/
structure Fits (g : Labels) (locations levels : Nat) : Prop where
  rows_eq : g.rows = locations
  columns_eq : g.columns = levels

variable {g h : Labels} {locations levels : Nat} {l l' : LocationIndex} {v v' : Nat} {t : RelTime}

lemma fits_unreached (locations levels : Nat) : (unreached locations levels).Fits locations levels :=
  ⟨rfl, rfl⟩

lemma Fits.setTime (hg : g.Fits locations levels) (l : LocationIndex) (v : Nat) (t : RelTime) :
    (g.setTime l v t).Fits locations levels :=
  ⟨(Grid.rows_set g l.val v t).trans hg.rows_eq, (Grid.columns_set g l.val v t).trans hg.columns_eq⟩

/-- A time that is reached has a place in the table. -/
lemma Fits.lt_of_isFeasible (hg : g.Fits locations levels) (h : (g.time l v).isFeasible = true) :
    l.val < locations ∧ v < levels := by
  rw [← hg.rows_eq, ← hg.columns_eq, ← Grid.get?_isSome_iff]
  unfold time at h
  cases hget : g.get? l.val v with
  | none =>
    rw [hget] at h
    cases h
  | some t => rfl

lemma Fits.time_setTime_self (hg : g.Fits locations levels) (hl : l.val < locations)
    (hv : v < levels) : (g.setTime l v t).time l v = t := by
  rw [time_setTime, if_pos ⟨rfl, rfl, by rw [hg.rows_eq]; exact hl, by rw [hg.columns_eq]; exact hv⟩]

lemma time_setTime_cases (g : Labels) (l : LocationIndex) (v : Nat) (t : RelTime)
    (l' : LocationIndex) (v' : Nat) :
    (g.setTime l v t).time l' v' = g.time l' v' ∨
      (l' = l ∧ v' = v ∧ (g.setTime l v t).time l' v' = t) := by
  rw [time_setTime]
  split
  · rename_i h
    exact Or.inr ⟨(Index.ext h.1).symm, h.2.1.symm, rfl⟩
  · exact Or.inl rfl

lemma fits_zipWith (hg : g.Fits locations levels) (f : RelTime → RelTime → RelTime) :
    Fits (g.zipWith f h) locations levels := ⟨hg.rows_eq, hg.columns_eq⟩

lemma time_zipWith_best (hg : g.Fits locations levels) (hh : h.Fits locations levels)
    (dir : Direction) (l : LocationIndex) (v : Nat) :
    time (g.zipWith dir.best h) l v = dir.best (g.time l v) (h.time l v) := by
  unfold time
  rw [Grid.get?_zipWith (hh.rows_eq.trans hg.rows_eq.symm)
    (hh.columns_eq.trans hg.columns_eq.symm)]
  by_cases hin : l.val < locations ∧ v < levels
  · have hgs : (g.get? l.val v).isSome = true :=
      Grid.get?_isSome_iff.2 (by rw [hg.rows_eq, hg.columns_eq]; exact hin)
    have hhs : (h.get? l.val v).isSome = true :=
      Grid.get?_isSome_iff.2 (by rw [hh.rows_eq, hh.columns_eq]; exact hin)
    obtain ⟨a, ha⟩ := Option.isSome_iff_exists.1 hgs
    obtain ⟨b, hb⟩ := Option.isSome_iff_exists.1 hhs
    rw [ha, hb]
    rfl
  · have hgn : g.get? l.val v = none := by
      rw [← Option.not_isSome_iff_eq_none, Grid.get?_isSome_iff, hg.rows_eq, hg.columns_eq]
      exact hin
    have hhn : h.get? l.val v = none := by
      rw [← Option.not_isSome_iff_eq_none, Grid.get?_isSome_iff, hh.rows_eq, hh.columns_eq]
      exact hin
    rw [hgn, hhn]
    cases dir <;> rfl

end Labels

namespace SearchState

/-- The tables of a state are as large as they are said to be. -/
structure Fits (st : SearchState) (locations levels : Nat) : Prop where
  levels_eq : st.levels = levels
  locations_eq : st.nbOfLocations = locations
  tmp : st.tmp.Fits locations levels
  best : st.best.Fits locations levels
  bestStart : st.bestStart.Fits locations levels
  starts : ∀ {k : Nat} {g : Labels}, st.starts[k]? = some g → g.Fits locations levels
  starts_size : st.starts.size = maxRounds
  ends_size : st.ends.size = maxRounds
  marks_capacity : st.marks.capacity = locations

variable {st : SearchState} {locations levels k j : Nat} {l l' : LocationIndex} {v v' : Nat}
  {t : RelTime}

lemma fits_sized (levels locations routes realtimeTransports : Nat) :
    (sized levels locations routes realtimeTransports).Fits locations levels where
  levels_eq := rfl
  locations_eq := rfl
  tmp := Labels.fits_unreached _ _
  best := Labels.fits_unreached _ _
  bestStart := Labels.fits_unreached _ _
  starts := by
    intro k g h
    have hget : (Array.replicate maxRounds (Labels.unreached locations levels))[k]? = some g := h
    rw [Array.getElem?_replicate] at hget
    split at hget
    · cases hget
      exact Labels.fits_unreached _ _
    · cases hget
  starts_size := Array.size_replicate
  ends_size := Array.size_replicate
  marks_capacity := BitSet.capacity_empty _

lemma Fits.lt_of_start (hst : st.Fits locations levels)
    (h : (st.start k l v).isFeasible = true) : l.val < locations ∧ v < levels := by
  unfold start at h
  cases hg : st.starts[k]? with
  | none =>
    rw [hg] at h
    cases h
  | some g =>
    rw [hg] at h
    exact (hst.starts hg).lt_of_isFeasible h

lemma start_setStart_cases (st : SearchState) (k : Nat) (l : LocationIndex) (v : Nat)
    (t : RelTime) (j : Nat) (l' : LocationIndex) (v' : Nat) :
    (st.setStart k l v t).start j l' v' = st.start j l' v' ∨
      (j = k ∧ l' = l ∧ v' = v ∧ (st.setStart k l v t).start j l' v' = t) := by
  unfold start setStart
  rw [Array.getElem?_modify]
  by_cases hj : k = j
  · subst hj
    rw [if_pos rfl]
    cases st.starts[k]? with
    | none => exact Or.inl rfl
    | some g => exact (g.time_setTime_cases l v t l' v').imp id fun h => ⟨rfl, h⟩
  · rw [if_neg hj]
    exact Or.inl rfl

lemma Fits.start_setStart_self (hst : st.Fits locations levels) (hk : k < maxRounds)
    (hl : l.val < locations) (hv : v < levels) : (st.setStart k l v t).start k l v = t := by
  have hsize : k < st.starts.size := by rw [hst.starts_size]; exact hk
  have hget := Array.getElem?_eq_getElem hsize
  unfold start setStart
  rw [Array.getElem?_modify, if_pos rfl, hget]
  exact (hst.starts hget).time_setTime_self hl hv

lemma Fits.setTmp (hst : st.Fits locations levels) : (st.setTmp l v t).Fits locations levels :=
  { hst with tmp := hst.tmp.setTime l v t }

lemma Fits.setStart (hst : st.Fits locations levels) :
    (st.setStart k l v t).Fits locations levels where
  levels_eq := hst.levels_eq
  locations_eq := hst.locations_eq
  tmp := hst.tmp
  best := hst.best
  bestStart := hst.bestStart
  starts := by
    intro j g h
    unfold SearchState.setStart at h
    rw [Array.getElem?_modify] at h
    split at h
    · obtain ⟨g', hg', rfl⟩ := Option.map_eq_some_iff.1 h
      exact (hst.starts hg').setTime l v t
    · exact hst.starts h
  starts_size := by
    unfold SearchState.setStart
    rw [Array.size_modify]
    exact hst.starts_size
  ends_size := hst.ends_size
  marks_capacity := hst.marks_capacity

lemma Fits.mark (hst : st.Fits locations levels) : (st.mark l).Fits locations levels :=
  { hst with
    marks_capacity := by
      unfold SearchState.mark
      rw [BitSet.capacity_insert]
      exact hst.marks_capacity }

lemma Fits.rotateMarks (hst : st.Fits locations levels) : st.rotateMarks.Fits locations levels :=
  { hst with
    marks_capacity := by
      unfold SearchState.rotateMarks BitSet.clear
      rw [BitSet.capacity_empty]
      exact hst.marks_capacity }

lemma mem_marked : l ∈ st.marked ↔ st.marks.contains l.val = true := by
  unfold marked
  rw [← BitSet.mem_toList, List.mem_map]
  constructor
  · rintro ⟨i, hi, rfl⟩
    exact hi
  · intro h
    exact ⟨l.val, h, rfl⟩

lemma marks_mark_self (hl : l.val < st.marks.capacity) : (st.mark l).marks.contains l.val = true := by
  unfold SearchState.mark
  rw [BitSet.contains_insert]
  simp [hl]

lemma marks_mark_of (h : st.marks.contains l'.val = true) :
    (st.mark l).marks.contains l'.val = true := by
  unfold SearchState.mark
  rw [BitSet.contains_insert, h]
  rfl

@[simp] lemma tmp_finishRound (dir : Direction) :
    (st.finishRound dir k).tmp.time l v = .infeasible := Labels.time_unreached _ _ _ _

lemma finish_finishRound (dir : Direction) (hk : k < st.ends.size) :
    (st.finishRound dir k).finish j l v = if j = k then st.tmp.time l v else st.finish j l v := by
  unfold finish finishRound
  by_cases hj : j = k
  · subst hj
    rw [if_pos rfl, Array.getElem?_setIfInBounds_self_of_lt hk]
    rfl
  · rw [if_neg hj, Array.getElem?_setIfInBounds_ne (Ne.symm hj)]

lemma Fits.best_finishRound (hst : st.Fits locations levels) (dir : Direction) :
    (st.finishRound dir k).best.time l v = dir.best (st.best.time l v) (st.tmp.time l v) :=
  Labels.time_zipWith_best hst.best hst.tmp dir l v

lemma Fits.bestStart_finishRound (hst : st.Fits locations levels) (dir : Direction)
    (hk : k < maxRounds) : (st.finishRound dir k).bestStart.time l v =
      dir.best (st.bestStart.time l v) (st.start k l v) := by
  have hk' : k < st.starts.size := by
    rw [hst.starts_size]
    exact hk
  obtain ⟨labels, hget⟩ : ∃ labels, st.starts[k]? = some labels :=
    ⟨_, Array.getElem?_eq_getElem hk'⟩
  unfold start finishRound
  rw [hget]
  exact Labels.time_zipWith_best hst.bestStart (hst.starts hget) dir l v

lemma Fits.finishRound (hst : st.Fits locations levels) (dir : Direction) (k : Nat) :
    (st.finishRound dir k).Fits locations levels where
  levels_eq := hst.levels_eq
  locations_eq := hst.locations_eq
  tmp := by
    unfold SearchState.finishRound
    rw [hst.locations_eq, hst.levels_eq]
    exact Labels.fits_unreached _ _
  best := Labels.fits_zipWith hst.best _
  bestStart := by
    unfold SearchState.finishRound
    split
    · exact Labels.fits_zipWith hst.bestStart _
    · exact hst.bestStart
  starts := hst.starts
  starts_size := hst.starts_size
  ends_size := by
    unfold SearchState.finishRound
    rw [Array.size_setIfInBounds]
    exact hst.ends_size
  marks_capacity := hst.marks_capacity

end SearchState

end JourneyPlanner
