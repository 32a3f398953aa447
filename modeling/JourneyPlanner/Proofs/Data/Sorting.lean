import Mathlib.Data.Bool.Basic
import Mathlib.Data.List.TakeDrop
import Mathlib.Tactic.Common

/-!
# Stable sorting

A stable sort keeps the order of what it need not move, so a list may be filtered before it is sorted
or after.
-/

namespace JourneyPlanner

variable {α : Type} {le : α → α → Bool}

/-- A list falls into two parts in one way, when a test tells the parts apart. -/
lemma append_inj_of_test {p : α → Bool} {x y x' y' : List α} (h : x ++ y = x' ++ y')
    (hx : ∀ b ∈ x, p b = false) (hy : ∀ b ∈ y, p b = true)
    (hx' : ∀ b ∈ x', p b = false) (hy' : ∀ b ∈ y', p b = true) : x = x' ∧ y = y' := by
  have hpart : ∀ {x y : List α}, (∀ b ∈ x, p b = false) → (∀ b ∈ y, p b = true) →
      (x ++ y).filter (fun b => !p b) = x := by
    intro x y hx hy
    rw [List.filter_append, List.filter_eq_self.2 fun b hb => by rw [hx b hb]; rfl,
      List.filter_eq_nil_iff.2 fun b hb => by rw [hy b hb]; exact Bool.false_ne_true, List.append_nil]
  have hfirst : x = x' := by rw [← hpart hx hy, h, hpart hx' hy']
  subst hfirst
  exact ⟨rfl, List.append_cancel_left h⟩

/-- What is sorted stably can be filtered before or after. -/
lemma filter_mergeSort (htrans : ∀ a b c, le a b = true → le b c = true → le a c = true)
    (htotal : ∀ a b, (le a b || le b a) = true) (keep : α → Bool) (l : List α) :
    (l.mergeSort le).filter keep = (l.filter keep).mergeSort le := by
  have hafter : ∀ {a : α} {l before after : List α}, (a :: l).mergeSort le = before ++ a :: after →
      ∀ b ∈ after, le a b = true := by
    intro a l before after hwhole
    have hsorted := List.pairwise_mergeSort htrans htotal (a :: l)
    rw [hwhole, List.pairwise_append, List.pairwise_cons] at hsorted
    exact hsorted.2.1.1
  induction l with
  | nil => rw [List.mergeSort_nil, List.filter_nil, List.mergeSort_nil]
  | cons a l ih =>
    obtain ⟨before, after, hwhole, hrest, hbefore⟩ := List.mergeSort_cons htrans htotal a l
    rw [hrest, List.filter_append] at ih
    rw [hwhole, List.filter_append]
    cases hkeep : keep a with
    | false =>
      rw [List.filter_cons_of_neg (by rw [hkeep]; exact Bool.false_ne_true),
        List.filter_cons_of_neg (by rw [hkeep]; exact Bool.false_ne_true), ih]
    | true =>
      obtain ⟨before', after', hwhole', hrest', hbefore'⟩ :=
        List.mergeSort_cons htrans htotal a (l.filter keep)
      rw [hrest'] at ih
      obtain ⟨hfirst, hsecond⟩ := append_inj_of_test (p := le a) ih
        (fun b hb => Bool.eq_false_of_not_eq_true' (hbefore b (List.mem_filter.1 hb).1))
        (fun b hb => hafter hwhole b (List.mem_filter.1 hb).1)
        (fun b hb => Bool.eq_false_of_not_eq_true' (hbefore' b hb)) (hafter hwhole')
      rw [List.filter_cons_of_pos hkeep, List.filter_cons_of_pos hkeep, hwhole', hfirst, hsecond]

/-- What is sorted by an order that tells its items apart does not depend on how it was ordered
before. -/
lemma mergeSort_eq_of_perm {l l' : List α}
    (htrans : ∀ a b c, le a b = true → le b c = true → le a c = true)
    (htotal : ∀ a b, (le a b || le b a) = true)
    (hantisymm : ∀ a b, le a b = true → le b a = true → a = b) (h : l.Perm l') :
    l.mergeSort le = l'.mergeSort le :=
  List.Perm.eq_of_pairwise (fun a b _ _ => hantisymm a b) (List.pairwise_mergeSort htrans htotal l)
    (List.pairwise_mergeSort htrans htotal l')
    ((List.mergeSort_perm l le).trans (h.trans (List.mergeSort_perm l' le).symm))

/-- Sorting leaves alone the part of a list that is in order. -/
lemma filter_mergeSort_of_pairwise (htrans : ∀ a b c, le a b = true → le b c = true → le a c = true)
    (htotal : ∀ a b, (le a b || le b a) = true) (keep : α → Bool) {l : List α}
    (h : (l.filter keep).Pairwise fun a b => le a b = true) :
    (l.mergeSort le).filter keep = l.filter keep := by
  rw [filter_mergeSort htrans htotal, List.mergeSort_of_pairwise h]

end JourneyPlanner
