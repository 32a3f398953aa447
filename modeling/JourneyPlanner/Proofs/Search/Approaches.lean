import JourneyPlanner.Proofs.Search.Tracing

/-!
# How a traveller got ready

The reconstruction looks for a way to be ready by a deadline among those that a round supports.
What it finds is one of them, and it finds one when there is any.
-/

namespace JourneyPlanner

namespace Search

variable {s : Search} {l target : LocationIndex} {t deadline : RelTime} {w : Walk}
  {st : SearchState} {k level : Nat}

lemma onTime_iff {ready : RelTime} :
    s.onTime deadline ready = true ↔ s.dir.cost ready ≤ s.dir.cost deadline :=
  Direction.isBetterOrEq_iff

lemma mem_downFrom {n i : Nat} : i ∈ downFrom n ↔ i ≤ n := by
  unfold downFrom
  rw [List.mem_reverse, List.mem_range]
  omega

lemma mem_walks : w ∈ s.walks l t ↔
    (∃ f ∈ s.timetable.footpaths s.dir l, s.footpathWalk l t f = w) ∨
      ∃ instant, s.instant? t = some instant ∧ ∃ target x,
        (target, x) ∈ TimedFootpath.walks s.dir (s.timetable.timedFootpaths s.dir l) instant ∧
          s.timedWalk l t target x = w := by
  unfold walks
  rw [List.mem_append, List.mem_map]
  cases s.instant? t with
  | none => simp
  | some instant => simp

lemma mem_walksTo (hw : s.timetable.WellFormed) :
    w ∈ s.walksTo l target t ↔ w ∈ s.walks l t ∧ w.target = target := by
  rw [mem_walks]
  unfold walksTo
  rw [List.mem_append, List.mem_map]
  have hplain : (∃ f ∈ (s.timetable.footpaths s.dir l).filter (·.target == target),
      s.footpathWalk l t f = w) ↔
        (∃ f ∈ s.timetable.footpaths s.dir l, s.footpathWalk l t f = w) ∧ w.target = target := by
    constructor
    · rintro ⟨f, hf, rfl⟩
      obtain ⟨hmem, htarget⟩ := List.mem_filter.1 hf
      exact ⟨⟨f, hmem, rfl⟩, beq_iff_eq.1 htarget⟩
    · rintro ⟨⟨f, hf, rfl⟩, htarget⟩
      exact ⟨f, List.mem_filter.2 ⟨hf, beq_iff_eq.2 htarget⟩, rfl⟩
  rw [hplain, or_and_right]
  refine or_congr_right ?_
  cases s.instant? t with
  | none => simp
  | some instant =>
    simp only [Option.mem_toList, Option.map_eq_some_iff, Option.some.injEq, exists_eq_left',
      TimedFootpath.mem_walks_iff (hw.timed_sorted s.dir l)]
    constructor
    · rintro ⟨x, hx, rfl⟩
      exact ⟨⟨target, x, hx, rfl⟩, rfl⟩
    · rintro ⟨⟨target', x, hx, rfl⟩, rfl⟩
      exact ⟨x, hx, rfl⟩

lemma source_of_mem_walks (h : w ∈ s.walks l t) : w.source = l := by
  rcases mem_walks.1 h with ⟨f, _, rfl⟩ | ⟨_, _, _, _, _, rfl⟩ <;> rfl

/-- A walk can be seen from its target. -/
lemma mem_walkSources (hw : s.timetable.WellFormed) (h : w ∈ s.walks l t) :
    l ∈ s.walkSources w.target := by
  unfold walkSources
  rw [List.mem_eraseDups, List.mem_mergeSort, List.mem_append, List.mem_map, List.mem_map]
  rcases mem_walks.1 h with ⟨f, hf, rfl⟩ | ⟨instant, _, target, x, hx, rfl⟩
  · exact Or.inl ⟨_, hw.footpath_back hf, rfl⟩
  · obtain ⟨f, hf, rfl⟩ := TimedFootpath.exists_mem_of_mem_walks hx
    exact Or.inr ⟨_, hw.timed_back hf, rfl⟩

/-- A walk begins no earlier than someone is there, and does not end before it begins. -/
lemma cost_of_mem_walks (h : w ∈ s.walks l t) :
    s.dir.cost t ≤ s.dir.cost w.start ∧ s.dir.cost w.start ≤ s.dir.cost w.finish := by
  rcases mem_walks.1 h with ⟨f, _, rfl⟩ | ⟨_, _, target, x, _, rfl⟩
  · exact ⟨Int.le_refl _, Direction.cost_le_add _ _⟩
  · refine ⟨Direction.cost_le_add _ _, ?_⟩
    unfold timedWalk
    dsimp only
    rw [WaitingWalk.total, Duration.add_comm, ← Direction.add_add]
    exact Direction.cost_le_add _ _

lemma Stands.cost_le {a : Arrival} {w : Option Walk} {v : Nat} (h : s.Stands a w l v t) :
    s.dir.cost a.time ≤ s.dir.cost t := by
  cases h with
  | here _ => exact Direction.cost_le_add _ _
  | walked _ hw _ =>
    have hwalk := cost_of_mem_walks hw
    exact Int.le_trans (Direction.cost_le_add _ _)
      (Int.le_trans (Int.le_trans hwalk.1 hwalk.2) (Direction.cost_le_add _ _))

/-- When someone was somewhere before getting ready. -/
def approachTime (s : Search) : Approach → RelTime
  | .fromStart o _ => s.seedTime o
  | .fromVehicle a _ => a.time

lemma Readies.cost_le {approach : Approach} {v : Nat} (h : s.Readies approach l v t) :
    s.dir.cost (s.approachTime approach) ≤ s.dir.cost t := by
  cases h with
  | start _ _ => exact Direction.cost_le_add _ _
  | startOnFoot _ hw _ =>
    have hwalk := cost_of_mem_walks hw
    exact Int.le_trans (Int.le_trans hwalk.1 hwalk.2) (Direction.cost_le_add _ _)
  | transfer _ => exact Direction.cost_le_add _ _
  | onFoot h => exact h.cost_le

lemma approachFromStart?_sound {approach : Approach} (hw : s.timetable.WellFormed)
    (h : s.approachFromStart? l level deadline = some approach) :
    ∃ o w t, approach = .fromStart o w ∧ s.Readies approach l level t ∧
      s.dir.cost t ≤ s.dir.cost deadline := by
  unfold approachFromStart? at h
  obtain ⟨stay, hstay, h⟩ := Option.bind_eq_some_iff.1 h
  have hmem := stay?_eq_some_iff.1 hstay
  obtain ⟨o, ho, hfound⟩ := List.exists_of_findSome?_eq_some h
  split at hfound
  · rename_i hhere
    cases hfound
    refine ⟨o, none, s.dir.add (s.seedTime o) stay, rfl, ?_, onTime_iff.1 hhere.2⟩
    rw [← hhere.1] at hmem ⊢
    exact .start ho hmem
  · obtain ⟨w, hfind, rfl⟩ := Option.map_eq_some_iff.1 hfound
    obtain ⟨hwalk, htarget⟩ := (mem_walksTo hw).1 (List.mem_of_find?_eq_some hfind)
    have hready := List.find?_some hfind
    refine ⟨o, some w, s.dir.add w.finish stay, rfl, ?_, onTime_iff.1 hready⟩
    rw [← htarget] at hmem ⊢
    exact .startOnFoot ho hwalk hmem

lemma approachFromStart?_complete {o : Offset} {walk : Option Walk} (hw : s.timetable.WellFormed)
    (h : s.Readies (.fromStart o walk) l level t) (ht : s.dir.cost t ≤ s.dir.cost deadline) :
    (s.approachFromStart? l level deadline).isSome = true := by
  unfold approachFromStart?
  cases h with
  | start ho hstay =>
    rw [stay?_eq_some_iff.2 hstay]
    refine List.findSome?_isSome_iff.2 ⟨o, ho, ?_⟩
    rw [if_pos ⟨rfl, onTime_iff.2 ht⟩]
    rfl
  | startOnFoot ho hwalk hstay =>
    rename_i w stay
    rw [stay?_eq_some_iff.2 hstay]
    refine List.findSome?_isSome_iff.2 ⟨o, ho, ?_⟩
    split
    · rfl
    · rw [Option.isSome_map, List.find?_isSome]
      exact ⟨w, (mem_walksTo hw).2 ⟨hwalk, rfl⟩, onTime_iff.2 ht⟩

lemma approachByTransfer?_sound {approach : Approach}
    (h : s.approachByTransfer? st k l level deadline = some approach) :
    ∃ a w t, approach = .fromVehicle a w ∧ s.Readies approach l level t ∧
      s.dir.cost t ≤ s.dir.cost deadline ∧ a.time = st.finish k a.location a.level ∧
        a.time.isFeasible = true := by
  unfold approachByTransfer? at h
  obtain ⟨before, _, hfound⟩ := List.exists_of_findSome?_eq_some h
  obtain ⟨stay, hstay, hfound⟩ := Option.bind_eq_some_iff.1 hfound
  split at hfound
  · rename_i hready
    rw [Bool.and_eq_true] at hready
    cases hfound
    exact ⟨_, none, _, rfl, .transfer (a := ⟨l, before, _⟩) (stay?_eq_some_iff.1 hstay),
      onTime_iff.1 hready.2, rfl, hready.1⟩
  · cases hfound

lemma approachOnFoot?_sound {approach : Approach} (hw : s.timetable.WellFormed)
    (h : s.approachOnFoot? st k l level deadline = some approach) :
    ∃ a w t, approach = .fromVehicle a w ∧ s.Readies approach l level t ∧
      s.dir.cost t ≤ s.dir.cost deadline ∧ a.time = st.finish k a.location a.level ∧
        a.time.isFeasible = true := by
  unfold approachOnFoot? at h
  obtain ⟨source, _, hfound⟩ := List.exists_of_findSome?_eq_some h
  obtain ⟨before, _, hfound⟩ := List.exists_of_findSome?_eq_some hfound
  dsimp only at hfound
  split at hfound
  · rename_i hfeasible
    obtain ⟨between, _, hfound⟩ := List.exists_of_findSome?_eq_some hfound
    unfold approachByWalk? at hfound
    obtain ⟨sourceStay, hsource, hfound⟩ := Option.bind_eq_some_iff.1 hfound
    obtain ⟨stay, hstay, hfound⟩ := Option.bind_eq_some_iff.1 hfound
    obtain ⟨w, hfind, rfl⟩ := Option.map_eq_some_iff.1 hfound
    obtain ⟨hwalk, htarget⟩ := (mem_walksTo hw).1 (List.mem_of_find?_eq_some hfind)
    have hmem := stay?_eq_some_iff.1 hstay
    have hready := List.find?_some hfind
    refine ⟨_, some w, s.dir.add w.finish stay, rfl, ?_, onTime_iff.1 hready, rfl, hfeasible⟩
    rw [← htarget] at hmem ⊢
    exact .onFoot (.walked (stay?_eq_some_iff.1 hsource) hwalk hmem)
  · cases hfound

lemma approachByTransfer?_complete {a : Arrival} (ha : a.time = st.finish k a.location a.level)
    (hf : a.time.isFeasible = true) (h : s.Readies (.fromVehicle a none) l level t)
    (ht : s.dir.cost t ≤ s.dir.cost deadline) :
    (s.approachByTransfer? st k l level deadline).isSome = true := by
  cases h with
  | transfer hstay =>
    unfold approachByTransfer?
    refine List.findSome?_isSome_iff.2 ⟨a.level, mem_downFrom.2 (le_of_mem_stays hstay), ?_⟩
    rw [stay?_eq_some_iff.2 hstay, ← ha]
    have hready := onTime_iff.2 ht
    dsimp only [Option.bind_eq_bind, Option.bind_some]
    rw [if_pos (by rw [hf, hready]; rfl)]
    rfl

lemma approachOnFoot?_complete {a : Arrival} {w : Walk} (hw : s.timetable.WellFormed)
    (ha : a.time = st.finish k a.location a.level) (hf : a.time.isFeasible = true)
    (h : s.Readies (.fromVehicle a (some w)) l level t) (ht : s.dir.cost t ≤ s.dir.cost deadline) :
    (s.approachOnFoot? st k l level deadline).isSome = true := by
  cases h with
  | onFoot h =>
    cases h with
    | walked hstay hwalk hstay' =>
      rename_i between sourceStay stay
      have hbefore := le_of_mem_stays hstay
      have hbetween := le_of_mem_stays hstay'
      unfold approachOnFoot?
      refine List.findSome?_isSome_iff.2 ⟨a.location, mem_walkSources hw hwalk, ?_⟩
      refine List.findSome?_isSome_iff.2 ⟨a.level, mem_downFrom.2 (by omega), ?_⟩
      dsimp only
      rw [← ha, if_pos hf]
      refine List.findSome?_isSome_iff.2 ⟨between, List.mem_range'_1.2 (by omega), ?_⟩
      unfold approachByWalk?
      rw [stay?_eq_some_iff.2 hstay, stay?_eq_some_iff.2 hstay']
      dsimp only [Option.bind_eq_bind, Option.bind_some]
      rw [Option.isSome_map, List.find?_isSome]
      exact ⟨w, (mem_walksTo hw).2 ⟨hwalk, rfl⟩, onTime_iff.2 ht⟩

/-- What is found is a way of getting ready by the deadline that the round supports. -/
theorem approach?_sound {approach : Approach} (hw : s.timetable.WellFormed)
    (h : s.approach? st k l level deadline = some approach) :
    st.Supports k approach ∧
      ∃ t, s.Readies approach l level t ∧ s.dir.cost t ≤ s.dir.cost deadline := by
  unfold approach? at h
  split at h
  · rename_i hk
    obtain ⟨o, w, t, rfl, hready, hcost⟩ := approachFromStart?_sound hw h
    exact ⟨hk, t, hready, hcost⟩
  · rename_i hk
    rcases Option.or_eq_some_iff.1 h with h | ⟨_, h⟩
    · obtain ⟨a, w, t, rfl, hready, hcost, ha, hf⟩ := approachByTransfer?_sound h
      exact ⟨⟨hk, ha, hf⟩, t, hready, hcost⟩
    · obtain ⟨a, w, t, rfl, hready, hcost, ha, hf⟩ := approachOnFoot?_sound hw h
      exact ⟨⟨hk, ha, hf⟩, t, hready, hcost⟩

/-- A way of getting ready is found when the round supports one. -/
theorem approach?_complete {approach : Approach} (hw : s.timetable.WellFormed)
    (hsupports : st.Supports k approach) (h : s.Readies approach l level t)
    (ht : s.dir.cost t ≤ s.dir.cost deadline) :
    (s.approach? st k l level deadline).isSome = true := by
  unfold approach?
  cases approach with
  | fromStart o w =>
    have hk : k = 0 := hsupports
    rw [if_pos hk]
    exact approachFromStart?_complete hw h ht
  | fromVehicle a w =>
    obtain ⟨hk, ha, hf⟩ := hsupports
    rw [if_neg hk, Option.isSome_or, Bool.or_eq_true]
    cases w with
    | none => exact Or.inl (approachByTransfer?_complete ha hf h ht)
    | some w => exact Or.inr (approachOnFoot?_complete hw ha hf h ht)

end Search

end JourneyPlanner
