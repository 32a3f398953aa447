/-!
Sets of natural numbers below a fixed capacity. A number at or beyond the capacity is never a
member, and inserting one changes nothing. A set is told by its capacity and its members: `contains`
after each operation is what is stated below.
-/

namespace JourneyPlanner

/-- One bit per number below the capacity. -/
structure BitSet where
  bits : Array Bool
deriving DecidableEq, Repr

namespace BitSet

def empty (capacity : Nat) : BitSet := ⟨Array.replicate capacity false⟩

def capacity (s : BitSet) : Nat := s.bits.size

def contains (s : BitSet) (i : Nat) : Bool := s.bits[i]?.getD false

def insert (s : BitSet) (i : Nat) : BitSet := ⟨s.bits.setIfInBounds i true⟩

/-- Every number below the capacity is taken out. -/
def clear (s : BitSet) : BitSet := empty s.capacity

/-- The members, in increasing order. -/
def toList (s : BitSet) : List Nat := (List.range s.capacity).filter s.contains

def isEmpty (s : BitSet) : Bool := !s.bits.any id

/-- Every member moved up by `offset`; what would pass the capacity is dropped. -/
def shift (s : BitSet) (offset : Nat) : BitSet :=
  s.toList.foldl (fun moved i => moved.insert (i + offset)) (empty s.capacity)

@[simp] theorem capacity_empty (n : Nat) : (empty n).capacity = n := by simp [empty, capacity]

@[simp] theorem capacity_insert (s : BitSet) (i : Nat) : (s.insert i).capacity = s.capacity := by
  simp [insert, capacity]

@[simp] theorem contains_empty (n i : Nat) : (empty n).contains i = false := by
  by_cases h : i < n <;> simp [empty, contains, h]

theorem lt_capacity_of_contains {s : BitSet} {i : Nat} (h : s.contains i = true) :
    i < s.capacity := by
  by_cases hi : i < s.bits.size
  · exact hi
  · simp [contains, hi] at h

theorem contains_insert (s : BitSet) (i j : Nat) :
    (s.insert i).contains j = (s.contains j || (decide (j = i) && decide (i < s.capacity))) := by
  unfold contains insert capacity
  rw [Array.getElem?_setIfInBounds]
  by_cases h : i = j
  · subst h
    by_cases hi : i < s.bits.size <;> simp [hi]
  · simp [h, Ne.symm h]

/-- A set is told by its capacity and its members. -/
theorem ext {s t : BitSet} (hc : s.capacity = t.capacity)
    (h : ∀ i, s.contains i = t.contains i) : s = t := by
  obtain ⟨a⟩ := s
  obtain ⟨b⟩ := t
  unfold capacity contains at *
  congr 1
  apply Array.ext hc
  intro i hi hj
  simpa [hi, hj] using h i

theorem mem_toList {s : BitSet} {i : Nat} : i ∈ s.toList ↔ s.contains i = true := by
  simp only [toList, List.mem_filter, List.mem_range, and_iff_right_iff_imp]
  exact lt_capacity_of_contains

theorem isEmpty_iff {s : BitSet} : s.isEmpty = true ↔ ∀ i, s.contains i = false := by
  simp only [isEmpty, contains, Bool.not_eq_true', Array.any_eq_false, id_eq]
  constructor
  · intro h i
    by_cases hi : i < s.bits.size
    · simpa [hi] using h i hi
    · simp [hi]
  · intro h i hi
    simpa [hi] using h i

theorem capacity_foldl_insert (f : Nat → Nat) (is : List Nat) (s : BitSet) :
    (is.foldl (fun moved i => moved.insert (f i)) s).capacity = s.capacity := by
  induction is generalizing s with
  | nil => rfl
  | cons i is ih => rw [List.foldl_cons, ih, capacity_insert]

theorem contains_foldl_insert {α : Type} (f : α → Nat) (is : List α) (s : BitSet) (j : Nat) :
    (is.foldl (fun moved i => moved.insert (f i)) s).contains j = true ↔
      s.contains j = true ∨ (j < s.capacity ∧ ∃ i ∈ is, f i = j) := by
  induction is generalizing s with
  | nil => simp
  | cons i is ih =>
    rw [List.foldl_cons, ih, capacity_insert, contains_insert]
    grind

@[simp] theorem capacity_shift (s : BitSet) (offset : Nat) :
    (s.shift offset).capacity = s.capacity := by
  rw [shift, capacity_foldl_insert, capacity_empty]

/-- What a shift contains is told by the set that is shifted. -/
theorem contains_shift {s : BitSet} {offset i : Nat} :
    (s.shift offset).contains i = true ↔
      i < s.capacity ∧ offset ≤ i ∧ s.contains (i - offset) = true := by
  rw [shift, contains_foldl_insert (· + offset), contains_empty, capacity_empty]
  simp only [Bool.false_eq_true, false_or, and_congr_right_iff]
  intro _
  constructor
  · rintro ⟨j, hj, rfl⟩
    exact ⟨Nat.le_add_left _ _, by rw [Nat.add_sub_cancel]; exact mem_toList.1 hj⟩
  · intro ⟨hle, hc⟩
    exact ⟨i - offset, mem_toList.2 hc, Nat.sub_add_cancel hle⟩

end BitSet

end JourneyPlanner
