import JourneyPlanner.Proofs.Search.Covering

/-!
# Being early

Nobody arrives later by being early, as long as the walks are plain footpaths. So whoever keeps to
the minutes of a plan can be ready, and stand, where the plan says.
-/

namespace JourneyPlanner

namespace Direction

variable {dir : Direction} {t u : RelTime} {d : Duration} {n : Int}

lemma cost_lt_costBound (h : t.isFeasible = true) : dir.cost t < dir.costBound := by
  obtain ⟨n, hn⟩ := exists_minutes h
  have hrange := RelTime.range_of_minutes? hn
  rw [cost_of_minutes? hn]
  cases dir <;> simp only [costBound, sign_forward, sign_backward] <;> omega

lemma neg_costBound_le (h : t.isFeasible = true) : -32767 ≤ dir.cost t := by
  obtain ⟨n, hn⟩ := exists_minutes h
  have hrange := RelTime.range_of_minutes? hn
  rw [cost_of_minutes? hn]
  cases dir <;> simp only [sign_forward, sign_backward] <;> omega

/-- Moving on by a duration costs its minutes when something finite comes later. -/
lemma cost_add_le (hu : u.isFeasible = true) (h : dir.cost t ≤ n)
    (hn : n + d.minutes ≤ dir.cost u) : dir.cost (dir.add t d) ≤ n + d.minutes := by
  have hle : dir.cost t ≤ dir.cost u := by omega
  have ht := isFeasible_of_le hle hu
  have hbound : dir.cost u < dir.costBound := cost_lt_costBound hu
  have hlow : -32767 ≤ dir.cost t := neg_costBound_le ht
  have hupper := costBound_le dir
  rw [cost_add, if_pos ⟨by omega, by omega⟩]
  omega

end Direction

namespace Search

variable {s : Search} {l : LocationIndex} {v v' : Nat} {t : RelTime} {a : Arrival} {o : Offset}
  {f : Footpath} {stay stay' : Duration} {x y : Int}

/-- Whoever is at a location during the search, no later than a time, can walk to another one by a
later time. -/
def WalksBy (s : Search) (l target : LocationIndex) (x y : Int) : Prop :=
  ∀ u, s.dir.cost s.start ≤ s.dir.cost u → s.dir.cost u ≤ x →
    ∃ w ∈ s.walks l u, w.target = target ∧ s.dir.cost w.finish ≤ y

/-- On a plain footpath nobody waits. -/
lemma walksBy_footpath (hf : f ∈ s.timetable.footpaths s.dir l) (ht : t.isFeasible = true)
    (h : x + f.duration.minutes ≤ y) (hy : y ≤ s.dir.cost t) : s.WalksBy l f.target x y := by
  intro u _ hu
  have hwalked := Direction.cost_add_le (d := f.duration) ht hu (by omega)
  exact ⟨_, mem_walks.2 (Or.inl ⟨f, hf, rfl⟩), rfl, Int.le_trans hwalked h⟩

lemma readyAfter_start (ho : o ∈ s.query.start) (hstay : (v, stay) ∈ s.stays o.location 0)
    (ht : t.isFeasible = true)
    (h : s.dir.cost s.start + o.duration.minutes + stay.minutes ≤ s.dir.cost t) :
    s.ReadyAfter 0 o.location v t := by
  have hseed : s.dir.cost (s.seedTime o) ≤ s.dir.cost s.start + o.duration.minutes :=
    Direction.cost_add_le ht (Int.le_refl _) (by omega)
  have hready := Direction.cost_add_le ht hseed h
  exact .start (.start ho hstay) (Int.le_trans hready h)

lemma readyAfter_startOnFoot (ho : o ∈ s.query.start) (hwalks : s.WalksBy o.location l x y)
    (hstay : (v, stay) ∈ s.stays l 0) (ht : t.isFeasible = true)
    (hx : s.dir.cost s.start + o.duration.minutes ≤ x) (hxy : x ≤ y)
    (hy : y + stay.minutes ≤ s.dir.cost t) : s.ReadyAfter 0 l v t := by
  have hseed : s.dir.cost (s.seedTime o) ≤ s.dir.cost s.start + o.duration.minutes :=
    Direction.cost_add_le ht (Int.le_refl _) (by omega)
  obtain ⟨w, hw, rfl, hwalked⟩ :=
    hwalks _ (Direction.cost_le_add s.start o.duration) (Int.le_trans hseed hx)
  have hready := Direction.cost_add_le ht hwalked hy
  exact .start (.startOnFoot ho hw hstay) (Int.le_trans hready hy)

lemma readiesBy_transfer (hstay : (v, stay) ∈ s.stays a.location a.level)
    (ht : t.isFeasible = true)
    (h : s.dir.cost a.time +
      (stay.longer (s.timetable.locations.transferTime a.location)).minutes ≤ s.dir.cost t) :
    s.ReadiesBy a a.location v t := by
  refine ⟨by omega, fun u _ hu => ?_⟩
  have hready := Direction.cost_add_le ht hu h
  exact ⟨none, _, .transfer (a := ⟨a.location, a.level, u⟩) hstay, Int.le_trans hready h⟩

lemma standsBy_here (hstay : (v, stay) ∈ s.stays a.location a.level) (ht : t.isFeasible = true)
    (h : s.dir.cost a.time + stay.minutes ≤ s.dir.cost t) : s.StandsBy a a.location v t := by
  refine ⟨by omega, fun u _ hu => ?_⟩
  have hstands := Direction.cost_add_le ht hu h
  exact ⟨none, _, .here (a := ⟨a.location, a.level, u⟩) hstay, Int.le_trans hstands h⟩

/-- Someone who reaches a location, stays, walks and stays again. -/
lemma exists_stands_walked (hstay : (v, stay) ∈ s.stays a.location a.level)
    (hwalks : s.WalksBy a.location l x y) (hstay' : (v', stay') ∈ s.stays l v)
    (ht : t.isFeasible = true) (hx : s.dir.cost a.time + stay.minutes ≤ x) (hxy : x ≤ y)
    (hy : y + stay'.minutes ≤ s.dir.cost t) {u : RelTime}
    (hstart : s.dir.cost s.start ≤ s.dir.cost u) (hu : s.dir.cost u ≤ s.dir.cost a.time) :
    ∃ w t', s.Stands ⟨a.location, a.level, u⟩ (some w) l v' t' ∧ s.dir.cost t' ≤ s.dir.cost t := by
  have hleaves := Direction.cost_add_le (d := stay) ht hu (by omega)
  obtain ⟨w, hw, rfl, hwalked⟩ := hwalks _ (Int.le_trans hstart (Direction.cost_le_add u stay))
    (Int.le_trans hleaves hx)
  have hstands := Direction.cost_add_le ht hwalked hy
  exact ⟨w, _, .walked (a := ⟨a.location, a.level, u⟩) hstay hw hstay', Int.le_trans hstands hy⟩

lemma readiesBy_onFoot (hstay : (v, stay) ∈ s.stays a.location a.level)
    (hwalks : s.WalksBy a.location l x y) (hstay' : (v', stay') ∈ s.stays l v)
    (ht : t.isFeasible = true) (hx : s.dir.cost a.time + stay.minutes ≤ x) (hxy : x ≤ y)
    (hy : y + stay'.minutes ≤ s.dir.cost t) : s.ReadiesBy a l v' t := by
  refine ⟨by omega, fun u hstart hu => ?_⟩
  obtain ⟨w, t', hstands, hle⟩ := exists_stands_walked hstay hwalks hstay' ht hx hxy hy hstart hu
  exact ⟨some w, t', .onFoot hstands, hle⟩

lemma standsBy_walked (hstay : (v, stay) ∈ s.stays a.location a.level)
    (hwalks : s.WalksBy a.location l x y) (hstay' : (v', stay') ∈ s.stays l v)
    (ht : t.isFeasible = true) (hx : s.dir.cost a.time + stay.minutes ≤ x) (hxy : x ≤ y)
    (hy : y + stay'.minutes ≤ s.dir.cost t) : s.StandsBy a l v' t := by
  refine ⟨by omega, fun u hstart hu => ?_⟩
  obtain ⟨w, t', hstands, hle⟩ := exists_stands_walked hstay hwalks hstay' ht hx hxy hy hstart hu
  exact ⟨some w, t', hstands, hle⟩

lemma arrivesBy_of_standsBy {k : Nat} {finish t' : RelTime} {l' : LocationIndex}
    (hready : s.ReadyAfter k l v t) (hbrings : s.BringsNear l v t a)
    (hstands : s.StandsBy a l' v' t') (hlast : v' + 1 = s.levels)
    (ho : o ∈ s.query.destination) (hl : o.location = l') (hf : finish.isFeasible = true)
    (h : s.dir.cost t' + o.duration.minutes ≤ s.dir.cost finish) : s.ArrivesBy k finish := by
  have hfinish := Direction.cost_add_le hf (Int.le_refl _) h
  exact ⟨hf, l, v, t, a, l', v', t', hready, hbrings, hstands, hlast, o, ho, hl,
    Int.le_trans hfinish h⟩

end Search

end JourneyPlanner
