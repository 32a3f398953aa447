import JourneyPlanner.Time.Instant
import JourneyPlanner.Time.RelTime

/-!
The two directions of a search. A forward search leaves no earlier than it is asked to and wants to
arrive early; a backward search arrives no later than it is asked to and wants to leave late.
-/

namespace JourneyPlanner

inductive Direction where
  | forward
  | backward
deriving DecidableEq, Repr

namespace Direction

def isForward (dir : Direction) : Bool := dir == forward

def opposite : Direction → Direction
  | forward => backward
  | backward => forward

def text : Direction → String
  | forward => "forward"
  | backward => "backward"

/-- The worst time in a direction. -/
def unreachable (_ : Direction) : RelTime := .infeasible

/-- Strictly better in the direction; an unreachable time is worse than any other. -/
def isBetter (dir : Direction) (a b : RelTime) : Bool :=
  match a.minutes?, b.minutes? with
  | none, _ => false
  | some _, none => true
  | some m, some n =>
    match dir with
    | forward => m < n
    | backward => n < m

def isBetterOrEq (dir : Direction) (a b : RelTime) : Bool := a == b || dir.isBetter a b

/-- The better of two times, the first one when neither is. -/
def best (dir : Direction) (a b : RelTime) : RelTime := if dir.isBetter b a then b else a

/-- `t` moved on by `d` in the direction. -/
def add (dir : Direction) (t : RelTime) (d : Duration) : RelTime :=
  match dir with
  | forward => t.add d
  | backward => t.sub d

/-- An instant moved on by `d` in the direction. -/
def addInstant (dir : Direction) (t : Instant) (d : Duration) : Instant :=
  match dir with
  | forward => t.add d
  | backward => t.sub d

def isBetterInstant (dir : Direction) (a b : Instant) : Bool :=
  match dir with
  | forward => a < b
  | backward => b < a

/-- The place of a time in the order of a direction: better times cost less, and an unreachable one
costs most. -/
def cost (dir : Direction) (t : RelTime) : Int :=
  match t.minutes? with
  | none => 32768
  | some n =>
    match dir with
    | forward => n
    | backward => -n

/-- Every finite time costs less. -/
def costBound : Direction → Int
  | forward => 32767
  | backward => 32768

theorem cost_of_none {t : RelTime} (dir : Direction) (h : t.minutes? = none) :
    dir.cost t = 32768 := by
  rw [cost, h]

theorem cost_forward {t : RelTime} {n : Int} (h : t.minutes? = some n) : forward.cost t = n := by
  rw [cost, h]

theorem cost_backward {t : RelTime} {n : Int} (h : t.minutes? = some n) :
    backward.cost t = -n := by
  rw [cost, h]

theorem isBetter_iff {dir : Direction} {a b : RelTime} :
    dir.isBetter a b = true ↔ dir.cost a < dir.cost b := by
  unfold isBetter
  cases ha : a.minutes? with
  | none =>
    cases hb : b.minutes? with
    | none =>
      rw [cost_of_none dir ha, cost_of_none dir hb]
      exact iff_of_false (fun h => nomatch h) (Int.lt_irrefl _)
    | some n =>
      have hn := RelTime.range_of_minutes? hb
      rw [cost_of_none dir ha]
      cases dir with
      | forward =>
        rw [cost_forward hb]
        exact iff_of_false (fun h => nomatch h) (by omega)
      | backward =>
        rw [cost_backward hb]
        exact iff_of_false (fun h => nomatch h) (by omega)
  | some m =>
    have hm := RelTime.range_of_minutes? ha
    cases hb : b.minutes? with
    | none =>
      rw [cost_of_none dir hb]
      cases dir with
      | forward =>
        rw [cost_forward ha]
        exact iff_of_true rfl (by omega)
      | backward =>
        rw [cost_backward ha]
        exact iff_of_true rfl (by omega)
    | some n =>
      cases dir with
      | forward => rw [cost_forward ha, cost_forward hb, decide_eq_true_eq]
      | backward =>
        rw [cost_backward ha, cost_backward hb, decide_eq_true_eq]
        omega

theorem eq_of_cost_eq {dir : Direction} {a b : RelTime} (h : dir.cost a = dir.cost b) : a = b := by
  apply RelTime.ext
  cases ha : a.minutes? with
  | none =>
    rw [cost_of_none dir ha] at h
    cases hb : b.minutes? with
    | none => rfl
    | some n =>
      have hn := RelTime.range_of_minutes? hb
      cases dir with
      | forward => rw [cost_forward hb] at h; omega
      | backward => rw [cost_backward hb] at h; omega
  | some m =>
    have hm := RelTime.range_of_minutes? ha
    cases hb : b.minutes? with
    | none =>
      rw [cost_of_none dir hb] at h
      cases dir with
      | forward => rw [cost_forward ha] at h; omega
      | backward => rw [cost_backward ha] at h; omega
    | some n =>
      cases dir with
      | forward => rw [cost_forward ha, cost_forward hb] at h; rw [h]
      | backward => rw [cost_backward ha, cost_backward hb] at h; rw [Int.neg_inj.1 h]

theorem isBetterOrEq_iff {dir : Direction} {a b : RelTime} :
    dir.isBetterOrEq a b = true ↔ dir.cost a ≤ dir.cost b := by
  rw [isBetterOrEq, Bool.or_eq_true, beq_iff_eq, isBetter_iff]
  constructor
  · rintro (rfl | h)
    · exact Int.le_refl _
    · exact Int.le_of_lt h
  · intro h
    by_cases heq : dir.cost a = dir.cost b
    · exact Or.inl (eq_of_cost_eq heq)
    · exact Or.inr (by omega)

theorem cost_best (dir : Direction) (a b : RelTime) :
    dir.cost (dir.best a b) = min (dir.cost a) (dir.cost b) := by
  unfold best
  by_cases h : dir.isBetter b a = true
  · rw [if_pos h]
    have := isBetter_iff.1 h
    omega
  · rw [if_neg h]
    have := mt isBetter_iff.2 h
    omega

/-- Moving on adds to the cost, until the bound is reached. -/
theorem cost_add (dir : Direction) (t : RelTime) (d : Duration) :
    dir.cost (dir.add t d) =
      if d.minutes < 65535 ∧ dir.cost t + d.minutes < dir.costBound then dir.cost t + d.minutes
      else 32768 := by
  cases dir with
  | forward =>
    have hadd := RelTime.minutes?_add t d
    rw [add, costBound]
    cases ht : t.minutes? with
    | none =>
      rw [ht, Option.bind_none] at hadd
      rw [cost_of_none _ hadd, cost_of_none _ ht, if_neg (by omega)]
    | some n =>
      rw [ht, Option.bind_some] at hadd
      rw [cost_forward ht]
      by_cases h : d.minutes < 65535 ∧ n + d.minutes < 32767
      · rw [if_pos h] at hadd
        rw [if_pos h, cost_forward hadd]
      · rw [if_neg h] at hadd
        rw [if_neg h, cost_of_none _ hadd]
  | backward =>
    have hsub := RelTime.minutes?_sub t d
    rw [add, costBound]
    cases ht : t.minutes? with
    | none =>
      rw [ht, Option.bind_none] at hsub
      rw [cost_of_none _ hsub, cost_of_none _ ht, if_neg (by omega)]
    | some n =>
      rw [ht, Option.bind_some] at hsub
      rw [cost_backward ht]
      by_cases h : d.minutes < 65535 ∧ -32768 < n - d.minutes
      · rw [if_pos h] at hsub
        rw [if_pos (by omega), cost_backward hsub]
        omega
      · rw [if_neg h] at hsub
        rw [if_neg (by omega), cost_of_none _ hsub]

theorem add_add (dir : Direction) (t : RelTime) (a b : Duration) :
    dir.add (dir.add t a) b = dir.add t (a.add b) := by
  cases dir with
  | forward => exact RelTime.add_add t a b
  | backward => exact RelTime.sub_sub t a b

end Direction

end JourneyPlanner
