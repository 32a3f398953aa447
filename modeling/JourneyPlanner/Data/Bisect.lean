/-!
Bisection of an initial segment. For a test that holds below some point and fails from it on, the
point is found by halving an interval that contains it.
-/

namespace JourneyPlanner

/-- Halves `[lo, hi)` until it is empty, moving up past a place where `p` holds. -/
def bisect (p : Nat → Bool) (lo hi : Nat) : Nat :=
  if _h : lo < hi then
    let mid := lo + (hi - lo) / 2
    if p mid then bisect p (mid + 1) hi else bisect p lo mid
  else lo
termination_by hi - lo

/-- The number of places below `n` where `p` holds, for a `p` that never holds again once it has
failed. -/
def partitionPoint (n : Nat) (p : Nat → Bool) : Nat := bisect p 0 n

/-- `p` holds at every place before one below `n` where it holds. -/
def HoldsFirst (n : Nat) (p : Nat → Bool) : Prop :=
  ∀ i j, i ≤ j → j < n → p j = true → p i = true

theorem bisect_bounds (p : Nat → Bool) (lo hi : Nat) (h : lo ≤ hi) :
    lo ≤ bisect p lo hi ∧ bisect p lo hi ≤ hi := by
  fun_induction bisect p lo hi with
  | case1 lo hi _ mid _ ih => have := ih (by omega); omega
  | case2 lo hi _ mid _ ih => have := ih (by omega); omega
  | case3 lo hi _ => omega

theorem partitionPoint_le (n : Nat) (p : Nat → Bool) : partitionPoint n p ≤ n :=
  (bisect_bounds p 0 n (Nat.zero_le n)).2

theorem bisect_spec {n : Nat} {p : Nat → Bool} (hp : HoldsFirst n p) (lo hi : Nat) (hn : hi ≤ n)
    {i : Nat} (hl : lo ≤ i) (hi' : i < hi) : p i = true ↔ i < bisect p lo hi := by
  fun_induction bisect p lo hi with
  | case1 lo hi hlt mid hmid ih =>
    by_cases h : mid < i
    · exact ih hn h hi'
    · have := (bisect_bounds p (mid + 1) hi (by omega)).1
      exact iff_of_true (hp i mid (by omega) (by omega) hmid) (by omega)
  | case2 lo hi hlt mid hmid ih =>
    by_cases h : i < mid
    · exact ih (by omega) hl h
    · have := (bisect_bounds p lo mid (by omega)).2
      exact iff_of_false (fun hi => hmid (hp mid i (by omega) (by omega) hi)) (by omega)
  | case3 lo hi hlt => omega

/-- Below `n`, the test holds exactly at the places before the point. -/
theorem lt_partitionPoint_iff {n : Nat} {p : Nat → Bool} (hp : HoldsFirst n p) {i : Nat}
    (hi : i < n) : i < partitionPoint n p ↔ p i = true :=
  (bisect_spec hp 0 n (Nat.le_refl n) (Nat.zero_le i) hi).symm

/-- A test that holds at the first `k` places and at no other has its point at `k`. -/
theorem partitionPoint_eq {n k : Nat} {p : Nat → Bool} (hk : k ≤ n)
    (h : ∀ i, i < n → (p i = true ↔ i < k)) : partitionPoint n p = k := by
  have hfirst : HoldsFirst n p := fun i j hij hj hpj =>
    (h i (Nat.lt_of_le_of_lt hij hj)).2 (Nat.lt_of_le_of_lt hij ((h j hj).1 hpj))
  have hle := partitionPoint_le n p
  apply Nat.le_antisymm
  · refine Nat.le_of_not_lt fun hlt => ?_
    have hn : k < n := by omega
    exact Nat.lt_irrefl k ((h k hn).1 ((lt_partitionPoint_iff hfirst hn).1 hlt))
  · refine Nat.le_of_not_lt fun hlt => ?_
    have hn : partitionPoint n p < n := by omega
    exact Nat.lt_irrefl _ ((lt_partitionPoint_iff hfirst hn).2 ((h _ hn).2 hlt))

end JourneyPlanner
