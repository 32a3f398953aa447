import JourneyPlanner.Proofs.Time.Costs

/-!
# Moving on

A time that is moved on by one duration after the other is moved by their sum, it never gets better,
and the better of two times stays the better one. All of this holds at the ends of the ranges too,
where a time becomes unreachable and a sum of durations unusable.
-/

namespace JourneyPlanner

namespace Direction

variable {t u : RelTime}

/-- Times are ordered, and durations move them along this order, as far as a search relies on it. -/
structure MovesInOrder (dir : Direction) : Prop where
  add_add : ∀ t a b, dir.add (dir.add t a) b = dir.add t (a.add b)
  foldl_add : ∀ t (stays : List Duration),
    stays.foldl dir.add t = dir.add t (stays.foldl Duration.add .zero)
  not_isBetter_add : ∀ t a, ¬dir.isBetter (dir.add t a) t = true
  isBetterOrEq_add : ∀ t u a, dir.isBetterOrEq t u = true →
    dir.isBetterOrEq (dir.add t a) (dir.add u a) = true
  irrefl : ∀ t, ¬dir.isBetter t t = true
  trans : ∀ t u w, dir.isBetter t u = true → dir.isBetter u w = true → dir.isBetter t w = true
  total : ∀ t u, t ≠ u → dir.isBetter t u = true ∨ dir.isBetter u t = true
  infeasible_last : ∀ t, t ≠ .infeasible → dir.isBetter t .infeasible = true
  best_assoc : ∀ t u w, dir.best (dir.best t u) w = dir.best t (dir.best u w)
  best_comm : ∀ t u, dir.best t u = dir.best u t
  best_self : ∀ t, dir.best t t = t
  best_selects : ∀ t u, (dir.best t u = t ∨ dir.best t u = u) ∧
    dir.isBetterOrEq (dir.best t u) t = true ∧ dir.isBetterOrEq (dir.best t u) u = true

/-- What was moved on already is moved on by the sum of what is still to come. -/
lemma foldl_add_add (dir : Direction) (t : RelTime) (before : Duration) (stays : List Duration) :
    stays.foldl dir.add (dir.add t before) = dir.add t (stays.foldl Duration.add before) := by
  induction stays generalizing before with
  | nil => rfl
  | cons stay rest ih => rw [List.foldl_cons, List.foldl_cons, add_add, ih]

lemma best_assoc (dir : Direction) (t u w : RelTime) :
    dir.best (dir.best t u) w = dir.best t (dir.best u w) := by
  have hcost : dir.cost (dir.best (dir.best t u) w) = dir.cost (dir.best t (dir.best u w)) := by
    simp only [cost_best]
    exact Int.min_assoc _ _ _
  exact eq_of_cost_eq hcost

/-- Different times have different costs, so one of them is better. -/
lemma isBetter_or_isBetter_of_ne (dir : Direction) (h : t ≠ u) :
    dir.isBetter t u = true ∨ dir.isBetter u t = true := by
  rw [isBetter_iff, isBetter_iff]
  have hne : dir.cost t ≠ dir.cost u := fun heq => h (eq_of_cost_eq heq)
  omega

lemma isBetter_infeasible (dir : Direction) (h : t ≠ .infeasible) :
    dir.isBetter t .infeasible = true := by
  rcases isBetter_or_isBetter_of_ne dir h with hbetter | hbetter
  · exact hbetter
  · rw [isBetter_iff, cost_infeasible] at hbetter
    have hle := cost_le dir t
    omega

lemma isBetterOrEq_best (dir : Direction) (t u : RelTime) :
    dir.isBetterOrEq (dir.best t u) t = true ∧ dir.isBetterOrEq (dir.best t u) u = true := by
  rw [isBetterOrEq_iff, isBetterOrEq_iff, cost_best]
  exact ⟨Int.min_le_left _ _, Int.min_le_right _ _⟩

/-- In both directions durations move times along their order. -/
theorem movesInOrder (dir : Direction) : dir.MovesInOrder where
  add_add := add_add dir
  foldl_add := by
    intro t stays
    have hfold := foldl_add_add dir t .zero stays
    rwa [add_zero] at hfold
  not_isBetter_add t a := isBetter_false_iff.2 (cost_le_add t a)
  isBetterOrEq_add := by
    intro t u a h
    rw [isBetterOrEq_iff] at h ⊢
    exact cost_add_mono h a
  irrefl t := isBetter_false_iff.2 (Int.le_refl _)
  trans := by
    intro t u w htu huw
    rw [isBetter_iff] at htu huw ⊢
    exact Int.lt_trans htu huw
  total _ _ := isBetter_or_isBetter_of_ne dir
  infeasible_last _ := isBetter_infeasible dir
  best_assoc := best_assoc dir
  best_comm := best_comm dir
  best_self t := (best_eq_or dir t t).elim id id
  best_selects t u := ⟨best_eq_or dir t u, isBetterOrEq_best dir t u⟩

end Direction

/-- A wait of 65534 minutes is usable, but no time can be moved by it; one minute more, and it is the
reserved duration. -/
example : Direction.backward.add (.ofMinutes 32766) (.clamp 65534) = .infeasible ∧
    (Duration.clamp 65534).isFeasible = true ∧
      (Duration.clamp 65534).add (.clamp 1) = .unusable := by
  decide

end JourneyPlanner
