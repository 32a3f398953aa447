import Mathlib.Tactic.Common
import JourneyPlanner.Time.Direction

/-!
# Costs of times

A search compares times by their cost in its direction. Minutes on a line, before they are cut
to the range of the finite times, are compared by `sign`.
-/

namespace JourneyPlanner

namespace Duration

lemma le_longer_left (a b : Duration) : a ≤ a.longer b := by
  unfold longer
  split
  · assumption
  · exact Nat.le_refl _

lemma le_longer_right (a b : Duration) : b ≤ a.longer b := by
  unfold longer
  split
  · exact Nat.le_refl _
  · rename_i h
    exact Nat.le_of_not_le h

end Duration

namespace RelTime

variable {n : Int}

lemma isFeasible_ofMinutes_iff : (ofMinutes n).isFeasible = true ↔ -32768 < n ∧ n < 32767 := by
  rw [isFeasible, minutes?_ofMinutes]
  split
  · exact iff_of_true rfl (by assumption)
  · exact iff_of_false (fun h => nomatch h) (by assumption)

lemma minutes?_of_isFeasible (h : (ofMinutes n).isFeasible = true) :
    (ofMinutes n).minutes? = some n := by
  rw [minutes?_ofMinutes, if_pos (isFeasible_ofMinutes_iff.1 h)]

end RelTime

namespace Direction

variable {dir : Direction} {t u : RelTime}

/-- The place of a number of minutes in the order of a direction. -/
def sign (dir : Direction) (n : Int) : Int :=
  match dir with
  | forward => n
  | backward => -n

@[simp] lemma sign_forward (n : Int) : forward.sign n = n := rfl

@[simp] lemma sign_backward (n : Int) : backward.sign n = -n := rfl

lemma sign_inj {m n : Int} (h : dir.sign m = dir.sign n) : m = n := by
  cases dir <;> simp only [sign_forward, sign_backward] at h <;> omega

lemma cost_of_minutes? {n : Int} (h : t.minutes? = some n) : dir.cost t = dir.sign n := by
  cases dir with
  | forward => exact cost_forward h
  | backward => exact cost_backward h

@[simp] lemma cost_infeasible : dir.cost .infeasible = 32768 := cost_of_none dir rfl

lemma cost_le (dir : Direction) (t : RelTime) : dir.cost t ≤ 32768 := by
  cases h : t.minutes? with
  | none => exact Int.le_of_eq (cost_of_none dir h)
  | some n =>
    have hn := RelTime.range_of_minutes? h
    rw [cost_of_minutes? h]
    cases dir <;> simp only [sign_forward, sign_backward] <;> omega

lemma isFeasible_iff (dir : Direction) : t.isFeasible = true ↔ dir.cost t < 32768 := by
  cases h : t.minutes? with
  | none => simp [RelTime.isFeasible, h, cost_of_none dir h]
  | some n =>
    have hn := RelTime.range_of_minutes? h
    rw [cost_of_minutes? h]
    cases dir <;> simp only [RelTime.isFeasible, h, sign_forward, sign_backward,
      Option.isSome_some, true_iff] <;> omega

lemma isFeasible_of_le (h : dir.cost t ≤ dir.cost u) (hu : u.isFeasible = true) :
    t.isFeasible = true :=
  (isFeasible_iff dir).2 (Int.lt_of_le_of_lt h ((isFeasible_iff dir).1 hu))

lemma exists_minutes (h : t.isFeasible = true) : ∃ n, t.minutes? = some n :=
  Option.isSome_iff_exists.1 h

lemma eq_infeasible_of_not (h : ¬t.isFeasible = true) : t = .infeasible := by
  cases t with
  | infeasible => rfl
  | finite n _ _ => exact absurd rfl h

lemma costBound_le (dir : Direction) : dir.costBound ≤ 32768 := by
  cases dir <;> decide

lemma cost_le_add (t : RelTime) (d : Duration) : dir.cost t ≤ dir.cost (dir.add t d) := by
  rw [cost_add]
  split
  · omega
  · exact cost_le dir t

lemma cost_add_mono (h : dir.cost t ≤ dir.cost u) (d : Duration) :
    dir.cost (dir.add t d) ≤ dir.cost (dir.add u d) := by
  have hbound := costBound_le dir
  rw [cost_add, cost_add]
  split <;> split <;> omega

lemma cost_add_le_add {d e : Duration} (h : d ≤ e) :
    dir.cost (dir.add t d) ≤ dir.cost (dir.add t e) := by
  have hde : d.minutes ≤ e.minutes := h
  have hbound := costBound_le dir
  rw [cost_add, cost_add]
  split <;> split <;> omega

/-- A time that is reached by moving on moved on by exactly that much. -/
lemma cost_add_of_isFeasible {d : Duration} (h : (dir.add t d).isFeasible = true) :
    dir.cost (dir.add t d) = dir.cost t + d.minutes := by
  have hlt := (isFeasible_iff dir).1 h
  rw [cost_add] at hlt ⊢
  split
  · rfl
  · rw [if_neg (by assumption)] at hlt
    exact absurd hlt (Int.lt_irrefl _)

lemma isFeasible_of_add {d : Duration} (h : (dir.add t d).isFeasible = true) :
    t.isFeasible = true :=
  isFeasible_of_le (cost_le_add t d) h

@[simp] lemma add_zero (t : RelTime) : dir.add t .zero = t := by
  have hle : dir.cost t ≤ dir.cost (dir.add t .zero) := cost_le_add t .zero
  refine eq_of_cost_eq (?_ : dir.cost (dir.add t .zero) = dir.cost t)
  rw [cost_add] at hle ⊢
  have hzero : Duration.zero.minutes = 0 := rfl
  split
  · omega
  · rename_i hnot
    have hbound : dir.costBound ≤ dir.cost t := by omega
    cases ht : t.minutes? with
    | none => exact (cost_of_none dir ht).symm
    | some n =>
      have hn := RelTime.range_of_minutes? ht
      rw [cost_of_minutes? ht] at hbound
      cases dir <;> simp only [costBound, sign_forward, sign_backward] at hbound <;> omega

lemma isBetter_false_iff : ¬dir.isBetter t u = true ↔ dir.cost u ≤ dir.cost t := by
  rw [isBetter_iff]
  exact Int.not_lt

lemma best_eq_or (dir : Direction) (a b : RelTime) : dir.best a b = a ∨ dir.best a b = b := by
  unfold best
  split
  · exact Or.inr rfl
  · exact Or.inl rfl

lemma best_comm (dir : Direction) (t u : RelTime) : dir.best t u = dir.best u t :=
  eq_of_cost_eq (by rw [cost_best, cost_best, Int.min_comm])

lemma cost_ofMinutes {n : Int} (h : (RelTime.ofMinutes n).isFeasible = true) :
    dir.cost (.ofMinutes n) = dir.sign n :=
  cost_of_minutes? (RelTime.minutes?_of_isFeasible h)

lemma isFeasible_between {m n : Int} (ht : t.isFeasible = true) (htm : dir.cost t ≤ dir.sign m)
    (hmn : dir.sign m ≤ dir.sign n) (hn : (RelTime.ofMinutes n).isFeasible = true) :
    (RelTime.ofMinutes m).isFeasible = true := by
  obtain ⟨k, hk⟩ := exists_minutes ht
  have hkr := RelTime.range_of_minutes? hk
  rw [cost_of_minutes? hk] at htm
  rw [RelTime.isFeasible_ofMinutes_iff] at hn ⊢
  cases dir <;> simp only [sign_forward, sign_backward] at htm hmn <;> omega

lemma cost_ofMinutes_mono {m n : Int} (ht : t.isFeasible = true) (htm : dir.cost t ≤ dir.sign m)
    (hmn : dir.sign m ≤ dir.sign n) : dir.cost (.ofMinutes m) ≤ dir.cost (.ofMinutes n) := by
  by_cases hn : (RelTime.ofMinutes n).isFeasible = true
  · rw [cost_ofMinutes hn, cost_ofMinutes (isFeasible_between ht htm hmn hn)]
    exact hmn
  · rw [eq_infeasible_of_not hn, cost_infeasible]
    exact cost_le dir _

end Direction

end JourneyPlanner
