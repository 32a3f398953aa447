import Mathlib.Data.List.Chain
import Mathlib.Data.List.TakeDrop
import Mathlib.Tactic.Common
import JourneyPlanner.Data.Buckets
import JourneyPlanner.Proofs.Data.Sorting

/-!
# Lists collected by key

`Buckets.ofKeyed` sorts entries by key and cuts the sorted list, one key after the other.
`Buckets.Collects` says what a number of keys makes of it. The list at a key is what the entries of
that key hold, in the order in which the entries came.
-/

namespace JourneyPlanner
namespace Buckets

variable {k : Entity} {α : Type} {n : Nat} {state : Buckets k α × List (Index k × α)}

/-- The values of the entries of a key, in their order. -/
def valuesOf (entries : List (Index k × α)) (i : Index k) : List α :=
  (entries.filter fun e => e.1 == i).map Prod.snd

lemma mem_valuesOf {entries : List (Index k × α)} {i : Index k} {a : α} :
    a ∈ valuesOf entries i ↔ (i, a) ∈ entries := by
  simp only [valuesOf, List.mem_map, List.mem_filter, beq_iff_eq]
  constructor
  · rintro ⟨⟨j, b⟩, ⟨hmem, rfl⟩, rfl⟩
    exact hmem
  · intro h
    exact ⟨(i, a), ⟨h, rfl⟩, rfl⟩

lemma keyLe_trans (a b c : Index k × α) (hab : decide (a.1 ≤ b.1) = true)
    (hbc : decide (b.1 ≤ c.1) = true) : decide (a.1 ≤ c.1) = true :=
  decide_eq_true (Nat.le_trans (of_decide_eq_true hab) (of_decide_eq_true hbc))

lemma keyLe_total (a b : Index k × α) : (decide (a.1 ≤ b.1) || decide (b.1 ≤ a.1)) = true := by
  rcases Nat.le_total a.1.val b.1.val with h | h
  · exact Bool.or_eq_true_iff.2 (Or.inl (decide_eq_true h))
  · exact Bool.or_eq_true_iff.2 (Or.inr (decide_eq_true h))

/-- Sorting by key keeps the entries of one key in their order. -/
lemma filter_mergeSort_key (entries : List (Index k × α)) (i : Index k) :
    (entries.mergeSort fun x y => decide (x.1 ≤ y.1)).filter (fun e => e.1 == i) =
      entries.filter fun e => e.1 == i := by
  refine filter_mergeSort_of_pairwise keyLe_trans keyLe_total _ ?_
  refine List.Pairwise.imp_of_mem (R := fun _ _ => True) ?_
    (List.pairwise_of_forall fun _ _ => trivial)
  intro a b ha hb _
  have hai := beq_iff_eq.1 (List.mem_filter.1 ha).2
  have hbi := beq_iff_eq.1 (List.mem_filter.1 hb).2
  exact decide_eq_true (by rw [hai, hbi]; exact Nat.le_refl _)

/-- In a list sorted by key, the entries of the least key stand first. -/
lemma span_of_sorted {entries : List (Index k × α)}
    (hs : entries.Pairwise fun x y => x.1 ≤ y.1) (hn : ∀ e ∈ entries, n ≤ e.1.val) :
    (entries.span fun e => e.1.val == n) =
      (entries.filter (fun e => e.1.val == n), entries.filter fun e => decide (n + 1 ≤ e.1.val)) := by
  rw [List.span_eq_takeWhile_dropWhile]
  induction entries with
  | nil => rfl
  | cons e rest ih =>
    have hrest := ih (List.pairwise_cons.1 hs).2 fun x hx => hn x (List.mem_cons_of_mem _ hx)
    have hle := hn e List.mem_cons_self
    by_cases he : e.1.val = n
    · have hb : (e.1.val == n) = true := beq_iff_eq.2 he
      have hnot : decide (n + 1 ≤ e.1.val) = false := decide_eq_false (by omega)
      have hcong := Prod.mk.inj hrest
      simp only [List.takeWhile_cons, List.dropWhile_cons, List.filter_cons, hb, hnot, if_true,
        Bool.false_eq_true, if_false, hcong.1, hcong.2]
    · have hb : (e.1.val == n) = false := beq_false_of_ne he
      have hall : ∀ x ∈ e :: rest, n + 1 ≤ x.1.val := by
        intro x hx
        rcases List.mem_cons.1 hx with rfl | hx
        · omega
        · have hex : e.1.val ≤ x.1.val := (List.pairwise_cons.1 hs).1 x hx
          omega
      have hnone : (e :: rest).filter (fun x => x.1.val == n) = [] := by
        apply List.filter_eq_nil_iff.2
        intro x hx hxn
        have := hall x hx
        have := beq_iff_eq.1 hxn
        omega
      have hfull : (e :: rest).filter (fun x => decide (n + 1 ≤ x.1.val)) = e :: rest :=
        List.filter_eq_self.2 fun x hx => decide_eq_true (hall x hx)
      rw [hnone, hfull]
      simp only [List.takeWhile_cons, List.dropWhile_cons, hb, Bool.false_eq_true, if_false]

lemma val_beq (i j : Index k) : (i.val == j.val) = (i == j) := by
  rw [Bool.eq_iff_iff, beq_iff_eq, beq_iff_eq]
  exact ⟨Index.ext, congrArg Index.val⟩

/-- Once the smaller keys are gone, the entries of a key stand first, and the larger keys follow. -/
lemma span_left {entries : List (Index k × α)} (hs : entries.Pairwise fun x y => x.1 ≤ y.1)
    (n : Nat) :
    ((entries.filter fun e => decide (n ≤ e.1.val)).span fun e => e.1.val == n) =
      (entries.filter (fun e => e.1 == ⟨n⟩), entries.filter fun e => decide (n + 1 ≤ e.1.val)) := by
  have hlow : ∀ e ∈ entries.filter fun e => decide (n ≤ e.1.val), n ≤ e.1.val := by
    intro e he
    exact of_decide_eq_true (List.mem_filter.1 he).2
  rw [span_of_sorted (hs.filter _) hlow, List.filter_filter, List.filter_filter, Prod.mk.injEq]
  constructor
  · apply List.filter_congr
    intro e _
    rw [← val_beq]
    by_cases he : e.1.val = n
    · simp [he]
    · simp [he]
  · apply List.filter_congr
    intro e _
    by_cases he : n + 1 ≤ e.1.val
    · have hn : n ≤ e.1.val := by omega
      simp [he, hn]
    · simp [he]

/-- The first `n` keys of sorted entries are done: their lists are made, and the other entries are
left. -/
structure Collects (entries : List (Index k × α)) (n : Nat)
    (state : Buckets k α × List (Index k × α)) : Prop where
  size_eq : state.1.size = n
  get?_eq : ∀ i : Index k, i.val < n → state.1.get? i = some (valuesOf entries i)
  left_eq : state.2 = entries.filter fun e => decide (n ≤ e.1.val)

lemma Collects.takeKey {entries : List (Index k × α)} (h : Collects entries n state)
    (hs : entries.Pairwise fun x y => x.1 ≤ y.1) : Collects entries (n + 1) (takeKey state n) := by
  have hstep : Buckets.takeKey state n = (state.1.push (valuesOf entries ⟨n⟩),
      entries.filter fun e => decide (n + 1 ≤ e.1.val)) := by
    rw [Buckets.takeKey, h.left_eq, span_left hs, valuesOf]
  rw [hstep]
  constructor
  case size_eq => rw [size_push, h.size_eq]
  case get?_eq =>
    intro i hi
    rw [get?_push, h.size_eq]
    split
    · rename_i hin
      rw [show i = ⟨n⟩ from Index.ext hin]
    · exact h.get?_eq i (by omega)
  case left_eq => rfl

lemma collects_foldl {entries : List (Index k × α)} (hs : entries.Pairwise fun x y => x.1 ≤ y.1)
    (n : Nat) : Collects entries n ((List.range n).foldl takeKey (empty, entries)) := by
  induction n with
  | zero =>
    constructor
    case size_eq => rfl
    case get?_eq => exact fun i hi => absurd hi (Nat.not_lt_zero _)
    case left_eq => exact (List.filter_eq_self.2 fun e _ => decide_eq_true (Nat.zero_le _)).symm
  | succ n ih =>
    rw [List.range_succ, List.foldl_append]
    exact ih.takeKey hs

lemma collects_cut (n : Nat) (entries : List (Index k × α)) :
    Collects (entries.mergeSort fun x y => decide (x.1 ≤ y.1)) n (cut n entries) :=
  collects_foldl ((List.pairwise_mergeSort (keyLe_trans (k := k) (α := α)) keyLe_total entries).imp
    fun hxy => of_decide_eq_true hxy) n

lemma size_ofKeyed (n : Nat) (entries : List (Index k × α)) : (ofKeyed n entries).size = n :=
  (collects_cut n entries).size_eq

/-- There is a list for each of the first `n` keys, with the values of its entries in their order. -/
theorem get?_ofKeyed (n : Nat) (entries : List (Index k × α)) (i : Index k) :
    (ofKeyed n entries).get? i = if i.val < n then some (valuesOf entries i) else none := by
  by_cases hi : i.val < n
  · rw [if_pos hi, ofKeyed, (collects_cut n entries).get?_eq i hi, valuesOf, filter_mergeSort_key,
      valuesOf]
  · rw [if_neg hi, get?_eq_none_iff, size_ofKeyed]
    exact Nat.le_of_not_lt hi

theorem get_ofKeyed (n : Nat) (entries : List (Index k × α)) (i : Index k) :
    (ofKeyed n entries).get i = if i.val < n then valuesOf entries i else [] := by
  rw [get, get?_ofKeyed]
  split
  · rfl
  · rfl

/-- Where no key is too large, every list holds the values of its entries. -/
lemma get_ofKeyed_of_lt {n : Nat} {entries : List (Index k × α)} (h : ∀ e ∈ entries, e.1.val < n)
    (i : Index k) : (ofKeyed n entries).get i = valuesOf entries i := by
  rw [get_ofKeyed]
  split
  · rfl
  · rename_i hi
    rw [valuesOf, List.filter_eq_nil_iff.2, List.map_nil]
    intro e he hkey
    exact hi (beq_iff_eq.1 hkey ▸ h e he)

theorem mem_get_ofKeyed {n : Nat} {entries : List (Index k × α)} {i : Index k} {a : α} :
    a ∈ (ofKeyed n entries).get i ↔ i.val < n ∧ (i, a) ∈ entries := by
  rw [get_ofKeyed]
  split
  · rename_i h
    rw [mem_valuesOf]
    exact (and_iff_right h).symm
  · rename_i h
    exact iff_of_false (List.not_mem_nil) fun h' => h h'.1

lemma count_valuesOf [DecidableEq α] (entries : List (Index k × α)) (i : Index k) (a : α) :
    (valuesOf entries i).count a = entries.count (i, a) := by
  rw [valuesOf, List.count, List.countP_map, List.countP_filter, List.count]
  refine List.countP_congr fun e _ => ?_
  simp only [Function.comp_apply, Bool.and_eq_true, beq_iff_eq, Prod.ext_iff]
  exact And.comm

/-- What relates the entries of one key, in their order, relates the list at that key. -/
lemma pairwise_get_ofKeyed {R : α → α → Prop} {entries : List (Index k × α)}
    (h : entries.Pairwise fun x y => x.1 = y.1 → R x.2 y.2) (n : Nat) (i : Index k) :
    ((ofKeyed n entries).get i).Pairwise R := by
  rw [get_ofKeyed]
  split
  · rw [valuesOf, List.pairwise_map]
    refine List.Pairwise.imp_of_mem ?_ (h.filter _)
    intro x y hx hy hxy
    have hxi := beq_iff_eq.1 (List.mem_filter.1 hx).2
    have hyi := beq_iff_eq.1 (List.mem_filter.1 hy).2
    exact hxy (hxi.trans hyi.symm)
  · exact List.Pairwise.nil

end Buckets
end JourneyPlanner
