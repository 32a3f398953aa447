import JourneyPlanner.Proofs.Search.Improving
import JourneyPlanner.Proofs.Search.Ways
import JourneyPlanner.Search.Transfer

/-!
# Changing vehicles

Leaving a vehicle, or the start, improves what is known for each way of getting ready, and for
each place where someone stands, and for nothing else. The `_keeps` lemmas say that nothing else
is done; the `_performs` lemmas say that each of it is done at some point.
-/

namespace JourneyPlanner

open Progress (Leaves)

namespace Search

variable {s : Search} {p : Progress} {k : Nat} {a : Arrival} {w : Option Walk} {l : LocationIndex}
  {v : Nat} {t : RelTime} {M : Progress → Prop}

lemma foldl_leaves {α : Type} {dir : Direction} {f : Progress → α → Progress}
    (hf : ∀ p x, Leaves dir k p (f p x)) (items : List α) (p : Progress) :
    p.Leaves dir k (items.foldl f p) :=
  List.foldlRecOn items f (Leaves.refl dir k p) fun q hq x _ => hq.trans (hf q x)

lemma foldl_performs {α : Type} {dir : Direction} {f : Progress → α → Progress}
    (hf : ∀ p x, Leaves dir k p (f p x)) {items : List α} {x : α} (hx : x ∈ items)
    (p : Progress) : ∃ q, p.Leaves dir k q ∧ (f q x).Leaves dir k (items.foldl f p) := by
  obtain ⟨before, after, rfl⟩ := List.append_of_mem hx
  refine ⟨before.foldl f p, foldl_leaves hf before p, ?_⟩
  rw [List.foldl_append, List.foldl_cons]
  exact foldl_leaves hf after _

lemma reachedAt_add (dir : Direction) (l : LocationIndex) (t : RelTime) (v : Nat) (stay : Duration)
    (vias : List ViaStop) : reachedAt dir l v (dir.add t stay) vias =
      (staysAt l v stay vias).map fun (v', stay) => (v', dir.add t stay) := by
  induction vias generalizing v stay with
  | nil => rfl
  | cons via rest ih =>
    unfold reachedAt staysAt
    rw [List.map_cons, Direction.add_add]
    split
    · rw [ih]
    · rfl

lemma reached_eq (s : Search) (l : LocationIndex) (v : Nat) (t : RelTime) :
    s.reached l v t = (s.stays l v).map fun (v', stay) => (v', s.dir.add t stay) := by
  have hsum := reachedAt_add s.dir l t v .zero (s.query.searchVias.drop v)
  rwa [Direction.add_zero] at hsum

lemma reachOnFoot_eq (s : Search) (k : Nat) (a : Arrival) (w : Option Walk) (l : LocationIndex)
    (v : Nat) (t : RelTime) (p : Progress) : s.reachOnFoot k a w l v t p =
      (s.stays l v).foldl (fun p (v', stay) => s.improveStart k l v' (s.dir.add t stay)
        (s.reachDestination k a w l v' (s.dir.add t stay) p)) p := by
  unfold reachOnFoot
  rw [reached_eq, List.foldl_map]

lemma reachOnFoot_keeps
    (hreach : ∀ p v' stay, (v', stay) ∈ s.stays l v → M p →
      M (s.reachDestination k a w l v' (s.dir.add t stay) p))
    (hstart : ∀ p v' stay, (v', stay) ∈ s.stays l v → M p →
      M (s.improveStart k l v' (s.dir.add t stay) p))
    (h : M p) : M (s.reachOnFoot k a w l v t p) := by
  rw [reachOnFoot_eq]
  apply List.foldlRecOn _ _ h
  rintro q hq ⟨v', stay⟩ hmem
  exact hstart _ v' stay hmem (hreach q v' stay hmem hq)

lemma leaves_reachOnFoot (s : Search) (k : Nat) (a : Arrival) (w : Option Walk)
    (l : LocationIndex) (v : Nat) (t : RelTime) (p : Progress) :
    p.Leaves s.dir k (s.reachOnFoot k a w l v t p) := by
  apply reachOnFoot_keeps _ _ (Leaves.refl s.dir k p)
  · intro q v' stay _ hq
    exact hq.trans (leaves_reachDestination _ _ _ _ _ _ _ _)
  · intro q v' stay _ hq
    exact hq.trans (leaves_improveStart _ _ _ _ _ _)

lemma reachOnFoot_performs {v' : Nat} {stay : Duration} (hstay : (v', stay) ∈ s.stays l v)
    (k : Nat) (a : Arrival) (w : Option Walk) (t : RelTime) (p : Progress) :
    ∃ q, p.Leaves s.dir k q ∧
      (s.improveStart k l v' (s.dir.add t stay)
        (s.reachDestination k a w l v' (s.dir.add t stay) q)).Leaves s.dir k
          (s.reachOnFoot k a w l v t p) := by
  have hstep : ∀ (q : Progress) (x : Nat × Duration), q.Leaves s.dir k
      (s.improveStart k l x.1 (s.dir.add t x.2)
        (s.reachDestination k a w l x.1 (s.dir.add t x.2) q)) :=
    fun _ _ => (leaves_reachDestination _ _ _ _ _ _ _ _).trans (leaves_improveStart _ _ _ _ _ _)
  rw [reachOnFoot_eq]
  exact foldl_performs hstep hstay p

lemma walkOn_keeps
    (hreach : ∀ p w v' stay, w ∈ s.walks a.location t → (v', stay) ∈ s.stays w.target v → M p →
      M (s.reachDestination k a (some w) w.target v' (s.dir.add w.finish stay) p))
    (hstart : ∀ p w v' stay, w ∈ s.walks a.location t → (v', stay) ∈ s.stays w.target v → M p →
      M (s.improveStart k w.target v' (s.dir.add w.finish stay) p))
    (h : M p) : M (s.walkOn k a v t p) := by
  apply List.foldlRecOn _ _ h
  intro q hq w hw
  apply reachOnFoot_keeps _ _ hq
  · exact fun p v' stay => hreach p w v' stay hw
  · exact fun p v' stay => hstart p w v' stay hw

lemma leaves_walkOn (s : Search) (k : Nat) (a : Arrival) (v : Nat) (t : RelTime) (p : Progress) :
    p.Leaves s.dir k (s.walkOn k a v t p) :=
  foldl_leaves (fun _ _ => leaves_reachOnFoot _ _ _ _ _ _ _ _) _ _

lemma walkOn_performs {w : Walk} (hw : w ∈ s.walks a.location t) {v' : Nat} {stay : Duration}
    (hstay : (v', stay) ∈ s.stays w.target v) (k : Nat) (p : Progress) :
    ∃ q, p.Leaves s.dir k q ∧
      (s.improveStart k w.target v' (s.dir.add w.finish stay)
        (s.reachDestination k a (some w) w.target v' (s.dir.add w.finish stay) q)).Leaves s.dir k
          (s.walkOn k a v t p) := by
  have hstep : ∀ (p : Progress) (w : Walk), p.Leaves s.dir k
      (s.reachOnFoot k a (some w) w.target v w.finish p) :=
    fun _ _ => leaves_reachOnFoot _ _ _ _ _ _ _ _
  obtain ⟨q, hpq, hqw⟩ := foldl_performs hstep hw p
  obtain ⟨q', hq, hq'⟩ := reachOnFoot_performs hstay k a (some w) w.finish q
  exact ⟨q', hpq.trans hq, hq'.trans hqw⟩

lemma alight_keeps
    (hreach : ∀ p w l v t, s.Stands a w l v t → M p → M (s.reachDestination k a w l v t p))
    (hstart : ∀ p w l v t, s.Readies (.fromVehicle a w) l v t → M p →
      M (s.improveStart k l v t p))
    (h : M p) : M (s.alight k a p) := by
  apply List.foldlRecOn _ _ h
  rintro q hq ⟨v, stay⟩ hstay
  apply walkOn_keeps
  · intro p w v' stay' hw hstay'
    exact hreach p _ _ _ _ (.walked hstay hw hstay')
  · intro p w v' stay' hw hstay'
    exact hstart p _ _ _ _ (.onFoot (.walked hstay hw hstay'))
  · exact hstart _ _ _ _ _ (.transfer hstay) (hreach q _ _ _ _ (.here hstay) hq)

lemma leaves_alight (s : Search) (k : Nat) (a : Arrival) (p : Progress) :
    p.Leaves s.dir k (s.alight k a p) := by
  apply alight_keeps _ _ (Leaves.refl s.dir k p)
  · intro q w l v t _ hq
    exact hq.trans (leaves_reachDestination _ _ _ _ _ _ _ _)
  · intro q w l v t _ hq
    exact hq.trans (leaves_improveStart _ _ _ _ _ _)

/-- At a stop where someone stays, a vehicle is left in three parts: the destination may be
reached, someone may get ready there, and may walk on. -/
lemma alight_performs {v : Nat} {stay : Duration} (hstay : (v, stay) ∈ s.stays a.location a.level)
    (k : Nat) (p : Progress) :
    ∃ q, p.Leaves s.dir k q ∧
      (s.walkOn k a v (s.dir.add a.time stay)
        (s.improveStart k a.location v
          (s.dir.add a.time (stay.longer (s.timetable.locations.transferTime a.location)))
          (s.reachDestination k a none a.location v (s.dir.add a.time stay) q))).Leaves s.dir k
            (s.alight k a p) := by
  have hstep : ∀ (q : Progress) (x : Nat × Duration), q.Leaves s.dir k
      (s.walkOn k a x.1 (s.dir.add a.time x.2)
        (s.improveStart k a.location x.1
          (s.dir.add a.time (x.2.longer (s.timetable.locations.transferTime a.location)))
          (s.reachDestination k a none a.location x.1 (s.dir.add a.time x.2) q))) :=
    fun _ _ => ((leaves_reachDestination _ _ _ _ _ _ _ _).trans
      (leaves_improveStart _ _ _ _ _ _)).trans (leaves_walkOn _ _ _ _ _ _)
  exact foldl_performs hstep hstay p

lemma alight_performs_reach (h : s.Stands a w l v t) (k : Nat) (p : Progress) :
    ∃ q, p.Leaves s.dir k q ∧ (s.reachDestination k a w l v t q).Leaves s.dir k (s.alight k a p) := by
  cases h with
  | here hstay =>
    obtain ⟨q, hpq, hqa⟩ := alight_performs hstay k p
    refine ⟨q, hpq, Leaves.trans ?_ hqa⟩
    exact (leaves_improveStart _ _ _ _ _ _).trans (leaves_walkOn _ _ _ _ _ _)
  | walked hstay hw hstay' =>
    obtain ⟨q, hpq, hqa⟩ := alight_performs hstay k p
    obtain ⟨q', hqq', hq'w⟩ := walkOn_performs hw hstay' k
      (s.improveStart k a.location _ (s.dir.add a.time (Duration.longer _ _))
        (s.reachDestination k a none a.location _ _ q))
    refine ⟨q', ?_, ?_⟩
    · exact ((hpq.trans (leaves_reachDestination _ _ _ _ _ _ _ _)).trans
        (leaves_improveStart _ _ _ _ _ _)).trans hqq'
    · exact ((leaves_improveStart _ _ _ _ _ _).trans hq'w).trans hqa

lemma alight_performs_start (h : s.Readies (.fromVehicle a w) l v t) (k : Nat) (p : Progress) :
    ∃ q, p.Leaves s.dir k q ∧ (s.improveStart k l v t q).Leaves s.dir k (s.alight k a p) := by
  cases h with
  | transfer hstay =>
    obtain ⟨q, hpq, hqa⟩ := alight_performs hstay k p
    exact ⟨_, hpq.trans (leaves_reachDestination _ _ _ _ _ _ _ _),
      (leaves_walkOn _ _ _ _ _ _).trans hqa⟩
  | onFoot h =>
    cases h with
    | walked hstay hw hstay' =>
      obtain ⟨q, hpq, hqa⟩ := alight_performs hstay k p
      obtain ⟨q', hqq', hq'w⟩ := walkOn_performs hw hstay' k
        (s.improveStart k a.location _ (s.dir.add a.time (Duration.longer _ _))
          (s.reachDestination k a none a.location _ _ q))
      refine ⟨_, ?_, hq'w.trans hqa⟩
      exact (((hpq.trans (leaves_reachDestination _ _ _ _ _ _ _ _)).trans
        (leaves_improveStart _ _ _ _ _ _)).trans hqq').trans
          (leaves_reachDestination _ _ _ _ _ _ _ _)

lemma leaves_alightAt (s : Search) (k : Nat) (p : Progress) (l : LocationIndex) :
    p.Leaves s.dir k (s.alightAt k p l) := by
  apply foldl_leaves
  intro q v
  dsimp only
  split
  · exact leaves_alight _ _ _ _
  · exact Leaves.refl _ _ _

lemma leaves_transferAll (s : Search) (k : Nat) (p : Progress) :
    (p.mapState (·.rotateMarks)).Leaves s.dir k (s.transferAll k p) :=
  foldl_leaves (leaves_alightAt s k) _ _

/-- What each way of leaving a vehicle keeps is kept by leaving them all; the shape of the tables
is always kept. -/
lemma transferAll_keeps {locations levels : Nat} (hp : p.Fits locations levels)
    (hreach : ∀ q a w l v t, q.Fits locations levels →
      a.time = p.state.tmp.time a.location a.level → a.time.isFeasible = true →
        s.Stands a w l v t → M q → M (s.reachDestination k a w l v t q))
    (hstart : ∀ q a w l v t, q.Fits locations levels →
      a.time = p.state.tmp.time a.location a.level → a.time.isFeasible = true →
        s.Readies (.fromVehicle a w) l v t → M q → M (s.improveStart k l v t q))
    (h : M (p.mapState (·.rotateMarks))) : M (s.transferAll k p) := by
  -- the working times that are read are those of the beginning
  suffices hall : (s.transferAll k p).state.tmp = p.state.tmp ∧
      (s.transferAll k p).Fits locations levels ∧ M (s.transferAll k p) from hall.2.2
  refine List.foldlRecOn
    (motive := fun q => q.state.tmp = p.state.tmp ∧ q.Fits locations levels ∧ M q) _ _
    ⟨rfl, ⟨hp.state.rotateMarks, hp.hits_size⟩, h⟩ ?_
  intro q hq l _
  refine List.foldlRecOn
    (motive := fun q => q.state.tmp = p.state.tmp ∧ q.Fits locations levels ∧ M q) _ _ hq ?_
  intro q hq v _
  dsimp only
  split
  · rename_i hfeasible
    refine ⟨(leaves_alight s k _ q).tmp_eq.trans hq.1, ?_⟩
    rw [hq.1] at hfeasible ⊢
    refine alight_keeps (M := fun q => q.Fits locations levels ∧ M q) ?_ ?_ hq.2
    · rintro q w l' v' t hstands ⟨hfits, hq⟩
      exact ⟨(leaves_reachDestination _ _ _ _ _ _ _ _).fits_of hfits,
        hreach q ⟨l, v, _⟩ w l' v' t hfits rfl hfeasible hstands hq⟩
    · rintro q w l' v' t hready ⟨hfits, hq⟩
      exact ⟨(leaves_improveStart _ _ _ _ _ _).fits_of hfits,
        hstart q ⟨l, v, _⟩ w l' v' t hfits rfl hfeasible hready hq⟩
  · exact hq

/-- Every vehicle that reaches a marked location is left at some point. -/
lemma transferAll_performs (hl : p.state.marks.contains l.val = true) (hv : v < s.levels)
    (ht : (p.state.tmp.time l v).isFeasible = true) (k : Nat) :
    ∃ q, (p.mapState (·.rotateMarks)).Leaves s.dir k q ∧
      (s.alight k ⟨l, v, p.state.tmp.time l v⟩ q).Leaves s.dir k (s.transferAll k p) := by
  obtain ⟨q, hpq, hqt⟩ := foldl_performs (leaves_alightAt s k) (SearchState.mem_marked.2 hl)
    (p.mapState (·.rotateMarks))
  have hat : ∀ q v', Leaves s.dir k q (if (q.state.tmp.time l v').isFeasible then
      s.alight k ⟨l, v', q.state.tmp.time l v'⟩ q else q) := by
    intro q v'
    split
    · exact leaves_alight _ _ _ _
    · exact Leaves.refl _ _ _
  obtain ⟨q', hqq', hq'l⟩ := foldl_performs hat (List.mem_range.2 hv) q
  have htmp : q'.state.tmp = p.state.tmp := (hpq.trans hqq').tmp_eq
  rw [htmp, if_pos ht] at hq'l
  exact ⟨q', hpq.trans hqq', hq'l.trans hqt⟩

lemma leaves_seedOffset (s : Search) (p : Progress) (o : Offset) :
    p.Leaves s.dir 0 (s.seedOffset p o) :=
  (leaves_reachOnFoot _ _ _ _ _ _ _ _).trans (leaves_walkOn _ _ _ _ _ _)

lemma seeds_keeps
    (hstart : ∀ q o w l v t, s.Readies (.fromStart o w) l v t → M q → M (s.improveStart 0 l v t q))
    (h : M p) : M (s.query.start.foldl s.seedOffset p) := by
  refine List.foldlRecOn (motive := M) _ _ h ?_
  intro q hq o ho
  apply walkOn_keeps
  · intro q w v' stay _ _ hq
    rw [reachDestination_zero]
    exact hq
  · intro q w v' stay hw hstay
    exact hstart q o _ _ _ _ (.startOnFoot ho hw hstay)
  · apply reachOnFoot_keeps _ _ hq
    · intro q v' stay _ hq
      rw [reachDestination_zero]
      exact hq
    · intro q v' stay hstay
      exact hstart q o _ _ _ _ (.start ho hstay)

lemma seeds_performs {o : Offset} (h : s.Readies (.fromStart o w) l v t) (p : Progress) :
    ∃ q, p.Leaves s.dir 0 q ∧
      (s.improveStart 0 l v t q).Leaves s.dir 0 (s.query.start.foldl s.seedOffset p) := by
  cases h with
  | start ho hstay =>
    obtain ⟨q, hpq, hqf⟩ := foldl_performs (leaves_seedOffset s) ho p
    obtain ⟨q', hqq', hq'f⟩ := reachOnFoot_performs hstay 0 ⟨o.location, 0, s.seedTime o⟩ none
      (s.seedTime o) q
    exact ⟨_, (hpq.trans hqq').trans (leaves_reachDestination _ _ _ _ _ _ _ _),
      (hq'f.trans (leaves_walkOn _ _ _ _ _ _)).trans hqf⟩
  | startOnFoot ho hw hstay =>
    obtain ⟨q, hpq, hqf⟩ := foldl_performs (leaves_seedOffset s) ho p
    obtain ⟨q', hqq', hq'f⟩ := walkOn_performs (a := ⟨o.location, 0, s.seedTime o⟩) hw hstay 0
      (s.reachOnFoot 0 ⟨o.location, 0, s.seedTime o⟩ none o.location 0 (s.seedTime o) q)
    exact ⟨_, ((hpq.trans (leaves_reachOnFoot _ _ _ _ _ _ _ _)).trans hqq').trans
      (leaves_reachDestination _ _ _ _ _ _ _ _), hq'f.trans hqf⟩

end Search

end JourneyPlanner
