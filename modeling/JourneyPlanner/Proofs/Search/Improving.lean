import JourneyPlanner.Proofs.Search.Tables
import JourneyPlanner.Search.Progress

/-!
# Improving what is known

The three operations by which a search writes down what it finds. Each of them either finds that
nothing is improved, or changes a single entry; what has been written once is never made worse.
-/

namespace JourneyPlanner

namespace Progress

structure Fits (p : Progress) (locations levels : Nat) : Prop where
  state : p.state.Fits locations levels
  hits_size : p.hits.size = maxRounds

/-- From one progress to another one, only working times were improved, and marks set. -/
structure Scans (dir : Direction) (p p' : Progress) : Prop where
  same : p' = { p with state := { p.state with tmp := p'.state.tmp, marks := p'.state.marks } }
  tmp_le : ∀ l v, dir.cost (p'.state.tmp.time l v) ≤ dir.cost (p.state.tmp.time l v)
  marks_of : ∀ l : LocationIndex, p.state.marks.contains l.val = true →
    p'.state.marks.contains l.val = true
  fits_of : ∀ {locations levels}, p.Fits locations levels → p'.Fits locations levels

/-- From one progress to another one, only the starts of a round and the way to the destination
were improved, and marks set. -/
structure Leaves (dir : Direction) (k : Nat) (p p' : Progress) : Prop where
  same : p' = { p with
    state := { p.state with starts := p'.state.starts, marks := p'.state.marks }
    hits := p'.hits
    bestDestination := p'.bestDestination }
  start_of_ne : ∀ j l v, j ≠ k → p'.state.start j l v = p.state.start j l v
  start_le : ∀ l v, dir.cost (p'.state.start k l v) ≤ dir.cost (p.state.start k l v)
  hit_of_ne : ∀ j, j ≠ k → p'.hit? j = p.hit? j
  best_le : dir.cost p'.bestDestination ≤ dir.cost p.bestDestination
  marks_of : ∀ l : LocationIndex, p.state.marks.contains l.val = true →
    p'.state.marks.contains l.val = true
  fits_of : ∀ {locations levels}, p.Fits locations levels → p'.Fits locations levels

variable {dir : Direction} {k : Nat} {p p' p'' : Progress}

lemma Scans.refl (dir : Direction) (p : Progress) : Scans dir p p :=
  ⟨rfl, fun _ _ => Int.le_refl _, fun _ h => h, fun h => h⟩

lemma Scans.trans (h : Scans dir p p') (h' : Scans dir p' p'') : Scans dir p p'' where
  same := by
    have hsame := h'.same
    rw [h.same] at hsame
    exact hsame
  tmp_le := fun l v => Int.le_trans (h'.tmp_le l v) (h.tmp_le l v)
  marks_of := fun l hl => h'.marks_of l (h.marks_of l hl)
  fits_of := fun hp => h'.fits_of (h.fits_of hp)

lemma Scans.start_eq (h : Scans dir p p') (j : Nat) (l : LocationIndex) (v : Nat) :
    p'.state.start j l v = p.state.start j l v := by
  rw [h.same]
  rfl

lemma Scans.finish_eq (h : Scans dir p p') (j : Nat) (l : LocationIndex) (v : Nat) :
    p'.state.finish j l v = p.state.finish j l v := by
  rw [h.same]
  rfl

lemma Scans.best_eq (h : Scans dir p p') : p'.state.best = p.state.best := by
  rw [h.same]

lemma Scans.bestStart_eq (h : Scans dir p p') : p'.state.bestStart = p.state.bestStart := by
  rw [h.same]

lemma Scans.bestDestination_eq (h : Scans dir p p') : p'.bestDestination = p.bestDestination := by
  rw [h.same]

lemma Scans.hit_eq (h : Scans dir p p') (j : Nat) : p'.hit? j = p.hit? j := by
  rw [h.same]
  rfl

lemma Scans.exits_eq (h : Scans dir p p') : p'.state.exits = p.state.exits := by
  rw [h.same]

lemma Leaves.refl (dir : Direction) (k : Nat) (p : Progress) : Leaves dir k p p :=
  ⟨rfl, fun _ _ _ _ => rfl, fun _ _ => Int.le_refl _, fun _ _ => rfl, Int.le_refl _,
    fun _ h => h, fun h => h⟩

lemma Leaves.trans (h : Leaves dir k p p') (h' : Leaves dir k p' p'') : Leaves dir k p p'' where
  same := by
    have hsame := h'.same
    rw [h.same] at hsame
    exact hsame
  start_of_ne := fun j l v hj => (h'.start_of_ne j l v hj).trans (h.start_of_ne j l v hj)
  start_le := fun l v => Int.le_trans (h'.start_le l v) (h.start_le l v)
  hit_of_ne := fun j hj => (h'.hit_of_ne j hj).trans (h.hit_of_ne j hj)
  best_le := Int.le_trans h'.best_le h.best_le
  marks_of := fun l hl => h'.marks_of l (h.marks_of l hl)
  fits_of := fun hp => h'.fits_of (h.fits_of hp)

lemma Leaves.tmp_eq (h : Leaves dir k p p') : p'.state.tmp = p.state.tmp := by
  rw [h.same]

lemma Leaves.best_eq (h : Leaves dir k p p') : p'.state.best = p.state.best := by
  rw [h.same]

lemma Leaves.bestStart_eq (h : Leaves dir k p p') : p'.state.bestStart = p.state.bestStart := by
  rw [h.same]

lemma Leaves.exits_eq (h : Leaves dir k p p') : p'.state.exits = p.state.exits := by
  rw [h.same]

lemma Leaves.finish_eq (h : Leaves dir k p p') (j : Nat) (l : LocationIndex) (v : Nat) :
    p'.state.finish j l v = p.state.finish j l v := by
  rw [h.same]
  rfl

/-- A vehicle is known to reach a location no later, unless that is of no use. -/
def KnowsArrival (dir : Direction) (p : Progress) (l : LocationIndex) (v : Nat) (t : RelTime) :
    Prop :=
  dir.cost (p.state.tmp.time l v) ≤ dir.cost t ∨ dir.cost (p.state.best.time l v) ≤ dir.cost t ∨
    dir.cost p.bestDestination ≤ dir.cost t

/-- A location is known to be left no later, unless that is of no use. -/
def KnowsStart (dir : Direction) (k : Nat) (p : Progress) (l : LocationIndex) (v : Nat)
    (t : RelTime) : Prop :=
  dir.cost (p.state.start k l v) ≤ dir.cost t ∨
    dir.cost (p.state.bestStart.time l v) ≤ dir.cost t ∨ dir.cost p.bestDestination ≤ dir.cost t

lemma KnowsArrival.scans {l : LocationIndex} {v : Nat} {t : RelTime}
    (h : p.KnowsArrival dir l v t) (hp : Scans dir p p') : p'.KnowsArrival dir l v t := by
  have hle := hp.tmp_le l v
  unfold KnowsArrival at *
  rw [hp.best_eq, hp.bestDestination_eq]
  omega

lemma KnowsArrival.mono {l : LocationIndex} {v : Nat} {t t' : RelTime}
    (h : p.KnowsArrival dir l v t) (hle : dir.cost t ≤ dir.cost t') : p.KnowsArrival dir l v t' := by
  unfold KnowsArrival at *
  omega

lemma KnowsStart.leaves {l : LocationIndex} {v : Nat} {t : RelTime}
    (h : p.KnowsStart dir k l v t) (hp : Leaves dir k p p') : p'.KnowsStart dir k l v t := by
  have hle := hp.start_le l v
  have hbest := hp.best_le
  unfold KnowsStart at *
  rw [hp.bestStart_eq]
  omega

end Progress

namespace Search

variable {s : Search} {p : Progress} {k : Nat} {l : LocationIndex} {v : Nat} {t : RelTime}
  {locations levels : Nat}

lemma improveArrival_cases (s : Search) (l : LocationIndex) (v : Nat) (t : RelTime)
    (p : Progress) :
    (s.improveArrival l v t p = p ∧ p.KnowsArrival s.dir l v t) ∨
      (s.improveArrival l v t p = p.mapState (fun st => (st.setTmp l v t).mark l) ∧
        ¬p.KnowsArrival s.dir l v t) := by
  have hknows : p.KnowsArrival s.dir l v t ↔ ¬(s.dir.isBetter t (p.state.tmp.time l v) &&
      s.dir.isBetter t (p.state.best.time l v) && s.dir.isBetter t p.bestDestination) = true := by
    unfold Progress.KnowsArrival
    simp only [Bool.and_eq_true, Direction.isBetter_iff]
    omega
  unfold improveArrival
  split
  · rename_i h
    exact Or.inr ⟨rfl, fun hk => hknows.1 hk h⟩
  · rename_i h
    exact Or.inl ⟨rfl, hknows.2 h⟩

lemma scans_improveArrival (s : Search) (l : LocationIndex) (v : Nat) (t : RelTime)
    (p : Progress) : p.Scans s.dir (s.improveArrival l v t p) := by
  rcases improveArrival_cases s l v t p with ⟨heq, _⟩ | ⟨heq, hnew⟩
  · rw [heq]
    exact Progress.Scans.refl _ _
  · rw [heq]
    refine ⟨rfl, ?_, fun l' => SearchState.marks_mark_of,
      fun hp => ⟨hp.state.setTmp.mark, hp.hits_size⟩⟩
    intro l' v'
    have hlt : s.dir.cost t < s.dir.cost (p.state.tmp.time l v) := by
      unfold Progress.KnowsArrival at hnew
      omega
    rcases p.state.tmp.time_setTime_cases l v t l' v' with h | ⟨rfl, rfl, h⟩
    · exact Int.le_of_eq (congrArg _ h)
    · exact Int.le_trans (Int.le_of_eq (congrArg _ h)) (Int.le_of_lt hlt)

lemma knowsArrival_improveArrival (hp : p.Fits locations levels) (hl : l.val < locations)
    (hv : v < levels) : (s.improveArrival l v t p).KnowsArrival s.dir l v t := by
  rcases improveArrival_cases s l v t p with ⟨heq, hknown⟩ | ⟨heq, _⟩
  · rw [heq]
    exact hknown
  · rw [heq]
    exact Or.inl (Int.le_of_eq (congrArg _ (hp.state.tmp.time_setTime_self hl hv)))

/-- A working time that is written was not there before. -/
lemma tmp_improveArrival_cases (s : Search) (l : LocationIndex) (v : Nat) (t : RelTime)
    (p : Progress) (l' : LocationIndex) (v' : Nat) :
    (s.improveArrival l v t p).state.tmp.time l' v' = p.state.tmp.time l' v' ∨
      (l' = l ∧ v' = v ∧ (s.improveArrival l v t p).state.tmp.time l' v' = t) := by
  rcases improveArrival_cases s l v t p with ⟨heq, _⟩ | ⟨heq, _⟩
  · rw [heq]
    exact Or.inl rfl
  · rw [heq]
    exact p.state.tmp.time_setTime_cases l v t l' v'

/-- A location with a working time is marked. -/
def MarksArrivals (p : Progress) : Prop := ∀ l v, (p.state.tmp.time l v).isFeasible = true →
  p.state.marks.contains l.val = true

lemma marksArrivals_improveArrival (hp : p.Fits locations levels) (h : MarksArrivals p) :
    MarksArrivals (s.improveArrival l v t p) := by
  intro l' v' hf
  rcases improveArrival_cases s l v t p with ⟨heq, _⟩ | ⟨heq, _⟩
  · rw [heq] at hf ⊢
    exact h l' v' hf
  · have hin := (hp.state.tmp.setTime l v t).lt_of_isFeasible (l := l') (v := v')
    rw [heq] at hf ⊢
    rcases p.state.tmp.time_setTime_cases l v t l' v' with hold | ⟨rfl, rfl, _⟩
    · apply SearchState.marks_mark_of
      exact h l' v' (by rw [← hold]; exact hf)
    · apply SearchState.marks_mark_self
      have hcapacity : (p.state.setTmp l' v' t).marks.capacity = locations :=
        hp.state.marks_capacity
      rw [hcapacity]
      exact (hin hf).1

lemma improveStart_cases (s : Search) (k : Nat) (l : LocationIndex) (v : Nat) (t : RelTime)
    (p : Progress) :
    (s.improveStart k l v t p = p ∧ p.KnowsStart s.dir k l v t) ∨
      (s.improveStart k l v t p = p.mapState (fun st => (st.setStart k l v t).mark l) ∧
        ¬p.KnowsStart s.dir k l v t) := by
  have hknows : p.KnowsStart s.dir k l v t ↔ ¬(s.dir.isBetter t (p.state.start k l v) &&
      s.dir.isBetter t (p.state.bestStart.time l v) && s.dir.isBetter t p.bestDestination) =
        true := by
    unfold Progress.KnowsStart
    simp only [Bool.and_eq_true, Direction.isBetter_iff]
    omega
  unfold improveStart
  split
  · rename_i h
    exact Or.inr ⟨rfl, fun hk => hknows.1 hk h⟩
  · rename_i h
    exact Or.inl ⟨rfl, hknows.2 h⟩

lemma start_improveStart_cases (s : Search) (k : Nat) (l : LocationIndex) (v : Nat) (t : RelTime)
    (p : Progress) (j : Nat) (l' : LocationIndex) (v' : Nat) :
    (s.improveStart k l v t p).state.start j l' v' = p.state.start j l' v' ∨
      (j = k ∧ l' = l ∧ v' = v ∧ (s.improveStart k l v t p).state.start j l' v' = t) := by
  rcases improveStart_cases s k l v t p with ⟨heq, _⟩ | ⟨heq, _⟩
  · rw [heq]
    exact Or.inl rfl
  · rw [heq]
    exact p.state.start_setStart_cases k l v t j l' v'

lemma leaves_improveStart (s : Search) (k : Nat) (l : LocationIndex) (v : Nat) (t : RelTime)
    (p : Progress) : p.Leaves s.dir k (s.improveStart k l v t p) := by
  rcases improveStart_cases s k l v t p with ⟨heq, _⟩ | ⟨heq, hnew⟩
  · rw [heq]
    exact Progress.Leaves.refl _ _ _
  · rw [heq]
    have hlt : s.dir.cost t < s.dir.cost (p.state.start k l v) := by
      unfold Progress.KnowsStart at hnew
      omega
    refine ⟨rfl, ?_, ?_, fun _ _ => rfl, Int.le_refl _, fun l' => SearchState.marks_mark_of,
      fun hp => ⟨hp.state.setStart.mark, hp.hits_size⟩⟩
    · intro j l' v' hj
      rcases p.state.start_setStart_cases k l v t j l' v' with h | ⟨rfl, _, _, _⟩
      · exact h
      · exact absurd rfl hj
    · intro l' v'
      rcases p.state.start_setStart_cases k l v t k l' v' with h | ⟨_, rfl, rfl, h⟩
      · exact Int.le_of_eq (congrArg _ h)
      · exact Int.le_trans (Int.le_of_eq (congrArg _ h)) (Int.le_of_lt hlt)

lemma knowsStart_improveStart (hp : p.Fits locations levels) (hk : k < maxRounds)
    (hl : l.val < locations) (hv : v < levels) :
    (s.improveStart k l v t p).KnowsStart s.dir k l v t := by
  rcases improveStart_cases s k l v t p with ⟨heq, hknown⟩ | ⟨heq, _⟩
  · rw [heq]
    exact hknown
  · rw [heq]
    exact Or.inl (Int.le_of_eq (congrArg _ (hp.state.start_setStart_self hk hl hv)))

/-- A location with a start for the next vehicle is marked. -/
def MarksStarts (k : Nat) (p : Progress) : Prop := ∀ l v,
  (p.state.start k l v).isFeasible = true → p.state.marks.contains l.val = true

lemma marksStarts_improveStart (hp : p.Fits locations levels) (h : MarksStarts k p) :
    MarksStarts k (s.improveStart k l v t p) := by
  intro l' v' hf
  rcases improveStart_cases s k l v t p with ⟨heq, _⟩ | ⟨heq, _⟩
  · rw [heq] at hf ⊢
    exact h l' v' hf
  · have hin := (hp.state.setStart (k := k) (l := l) (v := v) (t := t)).lt_of_start
      (k := k) (l := l') (v := v')
    rw [heq] at hf ⊢
    rcases p.state.start_setStart_cases k l v t k l' v' with hold | ⟨_, rfl, rfl, _⟩
    · apply SearchState.marks_mark_of
      exact h l' v' (by rw [← hold]; exact hf)
    · apply SearchState.marks_mark_self
      have hcapacity : (p.state.setStart k l' v' t).marks.capacity = locations :=
        hp.state.marks_capacity
      rw [hcapacity]
      exact (hin hf).1

/-- An egress leads from a location, after some vehicle and with every via stop behind. -/
structure Exits (s : Search) (p : Progress) (k : Nat) (l : LocationIndex) (v : Nat)
    (egress : Offset) : Prop where
  not_first : k ≠ 0
  last_level : v + 1 = s.levels
  isExit : p.state.isExit l = true
  egress_eq : s.egress? l = some egress

lemma reachDestination_cases (s : Search) (k : Nat) (a : Arrival) (w : Option Walk)
    (l : LocationIndex) (v : Nat) (t : RelTime) (p : Progress) :
    (s.reachDestination k a w l v t p = p ∧ ∀ egress, s.Exits p k l v egress →
        s.dir.cost p.bestDestination ≤ s.dir.cost (s.dir.add t egress.duration)) ∨
      ∃ egress, s.Exits p k l v egress ∧
        s.dir.cost (s.dir.add t egress.duration) < s.dir.cost p.bestDestination ∧
        s.reachDestination k a w l v t p = { p with
          bestDestination := s.dir.add t egress.duration
          hits := p.hits.setIfInBounds k
            (some ⟨a, w, l, t, egress, s.dir.add t egress.duration⟩) } := by
  unfold reachDestination
  by_cases hexit : k = 0 ∨ v + 1 ≠ s.levels ∨ (!p.state.isExit l) = true
  · rw [if_pos hexit]
    refine Or.inl ⟨rfl, fun egress h => ?_⟩
    rcases hexit with h0 | hlevel | hnot
    · exact absurd h0 h.not_first
    · exact absurd h.last_level hlevel
    · rw [h.isExit] at hnot
      cases hnot
  · rw [if_neg hexit]
    cases hegress : s.egress? l with
    | none =>
      refine Or.inl ⟨rfl, fun egress h => ?_⟩
      rw [h.egress_eq] at hegress
      cases hegress
    | some egress =>
      have hexits : s.Exits p k l v egress :=
        ⟨fun h => hexit (Or.inl h), not_not.1 fun h => hexit (Or.inr (Or.inl h)),
          by simpa using fun h => hexit (Or.inr (Or.inr h)), hegress⟩
      dsimp only
      by_cases hbetter : s.dir.isBetter (s.dir.add t egress.duration) p.bestDestination = true
      · rw [if_pos hbetter]
        exact Or.inr ⟨egress, hexits, Direction.isBetter_iff.1 hbetter, rfl⟩
      · rw [if_neg hbetter]
        refine Or.inl ⟨rfl, fun other h => ?_⟩
        have heq : some egress = some other := hegress.symm.trans h.egress_eq
        rw [← Option.some.inj heq]
        exact Direction.isBetter_false_iff.1 hbetter

lemma hit?_setIfInBounds (p : Progress) (k j : Nat) (h : Hit) (t : RelTime)
    (hk : k < p.hits.size) :
    Progress.hit? { p with bestDestination := t, hits := p.hits.setIfInBounds k (some h) } j =
      if j = k then some h else p.hit? j := by
  unfold Progress.hit?
  by_cases hj : j = k
  · subst hj
    rw [if_pos rfl, Array.getElem?_setIfInBounds_self_of_lt hk]
    rfl
  · rw [if_neg hj, Array.getElem?_setIfInBounds_ne (Ne.symm hj)]

lemma leaves_reachDestination (s : Search) (k : Nat) (a : Arrival) (w : Option Walk)
    (l : LocationIndex) (v : Nat) (t : RelTime) (p : Progress) :
    p.Leaves s.dir k (s.reachDestination k a w l v t p) := by
  rcases reachDestination_cases s k a w l v t p with ⟨heq, _⟩ | ⟨egress, _, hlt, heq⟩
  · rw [heq]
    exact Progress.Leaves.refl _ _ _
  · rw [heq]
    refine ⟨rfl, fun _ _ _ _ => rfl, fun _ _ => Int.le_refl _, ?_, Int.le_of_lt hlt,
      fun _ h => h, fun hp => ⟨hp.state, by rw [Array.size_setIfInBounds]; exact hp.hits_size⟩⟩
    intro j hj
    unfold Progress.hit?
    rw [Array.getElem?_setIfInBounds_ne (Ne.symm hj)]

lemma state_reachDestination (s : Search) (k : Nat) (a : Arrival) (w : Option Walk)
    (l : LocationIndex) (v : Nat) (t : RelTime) (p : Progress) :
    (s.reachDestination k a w l v t p).state = p.state := by
  rcases reachDestination_cases s k a w l v t p with ⟨heq, _⟩ | ⟨egress, _, _, heq⟩
  · rw [heq]
  · rw [heq]

/-- In round 0 the destination is not reached. -/
lemma reachDestination_zero (s : Search) (a : Arrival) (w : Option Walk) (l : LocationIndex)
    (v : Nat) (t : RelTime) (p : Progress) : s.reachDestination 0 a w l v t p = p := by
  unfold reachDestination
  rw [if_pos (Or.inl rfl)]

/-- A way to the destination is known that is no worse. -/
lemma best_reachDestination_le {egress : Offset} (h : s.Exits p k l v egress) (a : Arrival)
    (w : Option Walk) (t : RelTime) :
    s.dir.cost (s.reachDestination k a w l v t p).bestDestination ≤
      s.dir.cost (s.dir.add t egress.duration) := by
  rcases reachDestination_cases s k a w l v t p with ⟨heq, hknown⟩ | ⟨other, hother, _, heq⟩
  · rw [heq]
    exact hknown egress h
  · have hsame : some other = some egress := hother.egress_eq.symm.trans h.egress_eq
    refine Int.le_of_eq ?_
    rw [heq, Option.some.inj hsame]

end Search

end JourneyPlanner
