import JourneyPlanner.Data.Index

/-!
Lists of values kept one after the other in a single array, with the place where each list ends.
List number `i` is the stretch between the end of list `i - 1` and its own end. What is stated below
is what `get?` answers after each operation.
-/

namespace JourneyPlanner

/-- One list of values for each index of kind `k` below `size`. -/
structure Buckets (k : Entity) (α : Type) where
  values : Array α
  ends : Array Nat
  ends_sorted : ends.toList.Pairwise (· ≤ ·)
  last_end : ends.back?.getD 0 = values.size
deriving DecidableEq, Repr

namespace Buckets

variable {k : Entity} {α : Type}

def empty : Buckets k α := ⟨#[], #[], .nil, rfl⟩

instance : Inhabited (Buckets k α) := ⟨empty⟩

/-- The number of lists. -/
def size (b : Buckets k α) : Nat := b.ends.size

def isEmpty (b : Buckets k α) : Bool := b.size == 0

/-- The number of values in all lists together. -/
def nbOfValues (b : Buckets k α) : Nat := b.values.size

/-- Where list number `n` begins. -/
def startOf (b : Buckets k α) : Nat → Nat
  | 0 => 0
  | n + 1 => b.ends[n]?.getD b.values.size

/-- The list at an index, if there is one. -/
def get? (b : Buckets k α) (i : Index k) : Option (List α) :=
  b.ends[i.val]?.map fun stop => (b.values.extract (b.startOf i.val) stop).toList

/-- The list at an index; beyond the last one it is empty. -/
def get (b : Buckets k α) (i : Index k) : List α := (b.get? i).getD []

/-- No list ends beyond the last value. -/
theorem end_le (b : Buckets k α) {n stop : Nat} (h : b.ends[n]? = some stop) :
    stop ≤ b.values.size := by
  obtain ⟨hn, rfl⟩ := Array.getElem?_eq_some_iff.1 h
  have hlast := b.last_end
  rw [Array.back?_eq_getElem?, Array.getElem?_eq_getElem (by omega), Option.getD_some] at hlast
  rw [← hlast]
  by_cases hl : n = b.ends.size - 1
  · subst hl
    exact Nat.le_refl _
  · have hs := List.pairwise_iff_getElem.1 b.ends_sorted n (b.ends.size - 1)
      (by simpa using hn) (by simpa using (by omega : b.ends.size - 1 < b.ends.size)) (by omega)
    simpa using hs

/-- Adds a list after the last one. -/
def push (b : Buckets k α) (bucket : List α) : Buckets k α where
  values := b.values ++ bucket.toArray
  ends := b.ends.push (b.values.size + bucket.length)
  ends_sorted := by
    rw [Array.toList_push, List.pairwise_append]
    refine ⟨b.ends_sorted, List.pairwise_singleton _ _, ?_⟩
    intro stop hstop _ hlast
    rw [List.mem_singleton.1 hlast]
    obtain ⟨n, hn⟩ := List.mem_iff_getElem?.1 hstop
    exact Nat.le_add_right_of_le (b.end_le (by simpa using hn))
  last_end := by simp

/-- The key of the next list. -/
def nextKey (b : Buckets k α) : Index k := ⟨b.size⟩

/-- Adds a list after the last one, and answers its key. -/
def add (b : Buckets k α) (bucket : List α) : Index k × Buckets k α := (b.nextKey, b.push bucket)

/-- Adds lists one after the other, and answers their keys. -/
def addAll (b : Buckets k α) : List (List α) → List (Index k) × Buckets k α
  | [] => ([], b)
  | bucket :: rest =>
    let (key, b) := b.add bucket
    let (keys, b) := b.addAll rest
    (key :: keys, b)

/-- Where the lists begin, and behind them where the last one ends. -/
def starts (b : Buckets k α) : List Nat := 0 :: b.ends.toList

/-- All lists, each with its index: the stretches from one beginning to the next. -/
def toList (b : Buckets k α) : List (Index k × List α) :=
  (b.starts.zip b.starts.tail).zipIdx.map fun x =>
    (⟨x.2⟩, (b.values.extract x.1.1 x.1.2).toList)

/-- Moves the entries at the front that have key `n` into a list of their own. -/
def takeKey (state : Buckets k α × List (Index k × α)) (n : Nat) :
    Buckets k α × List (Index k × α) :=
  let (mine, rest) := state.2.span fun entry => entry.1.val == n
  (state.1.push (mine.map Prod.snd), rest)

/-- Sorts the entries by key and cuts them into a list for each of the first `n` keys. The entries
that no list takes are left over. -/
def cut (n : Nat) (entries : List (Index k × α)) : Buckets k α × List (Index k × α) :=
  let sorted := entries.mergeSort fun x y => decide (x.1 ≤ y.1)
  (List.range n).foldl takeKey (empty, sorted)

/-- `n` lists, list number `i` holding the values with key `i` in the order of `entries`. -/
def ofKeyed (n : Nat) (entries : List (Index k × α)) : Buckets k α := (cut n entries).1

@[simp] theorem size_push (b : Buckets k α) (bucket : List α) :
    (b.push bucket).size = b.size + 1 := by
  simp [push, size]

/-- There is a list at exactly the indices below the number of lists. -/
theorem get?_eq_none_iff {b : Buckets k α} {i : Index k} : b.get? i = none ↔ b.size ≤ i.val := by
  simp [get?, size]

/-- The next list begins behind the last value. -/
theorem startOf_size (b : Buckets k α) : b.startOf b.size = b.values.size := by
  have hlast := b.last_end
  rw [Array.back?_eq_getElem?] at hlast
  unfold size
  cases hn : b.ends.size with
  | zero => simpa [hn, startOf] using hlast
  | succ n =>
    rw [hn, Nat.add_sub_cancel, Array.getElem?_eq_getElem (by omega)] at hlast
    rw [startOf, Array.getElem?_eq_getElem (by omega)]
    simpa using hlast

theorem startOf_succ (b : Buckets k α) {n stop : Nat} (h : b.ends[n]? = some stop) :
    b.startOf (n + 1) = stop := by
  rw [startOf, h, Option.getD_some]

/-- No list ends before it begins. -/
theorem startOf_le_end (b : Buckets k α) {n stop : Nat} (h : b.ends[n]? = some stop) :
    b.startOf n ≤ stop := by
  cases n with
  | zero => exact Nat.zero_le _
  | succ n =>
    obtain ⟨hlt, rfl⟩ := Array.getElem?_eq_some_iff.1 h
    rw [b.startOf_succ (Array.getElem?_eq_getElem (Nat.lt_of_succ_lt hlt))]
    -- a list begins where the one before it ends, and the ends are sorted
    have hsorted := List.pairwise_iff_getElem.1 b.ends_sorted n (n + 1)
      (by rw [Array.length_toList]; omega) (by rwa [Array.length_toList]) (Nat.lt_succ_self n)
    rwa [Array.getElem_toList, Array.getElem_toList] at hsorted

/-- A new list stands after the last one, and the others stay. -/
theorem get?_push (b : Buckets k α) (bucket : List α) (i : Index k) :
    (b.push bucket).get? i = if i.val = b.size then some bucket else b.get? i := by
  by_cases hi : i.val = b.size
  · have hstart : (b.push bucket).startOf b.size = b.values.size := by
      rw [← b.startOf_size]
      cases hn : b.size with
      | zero => rfl
      | succ n =>
        have hlt : n < b.ends.size := by unfold size at hn; omega
        simp only [startOf, push, Array.getElem?_push_lt hlt, Array.getElem?_eq_getElem hlt,
          Option.getD_some]
    rw [if_pos hi, get?, hi, hstart]
    simp [push, size]
  · rw [if_neg hi]
    by_cases hlt : i.val < b.ends.size
    · have hstart : (b.push bucket).startOf i.val = b.startOf i.val := by
        cases hn : i.val with
        | zero => rfl
        | succ n =>
          have hlt' : n < b.ends.size := by omega
          simp only [startOf, push, Array.getElem?_push_lt hlt', Array.getElem?_eq_getElem hlt',
            Option.getD_some]
      have hend := b.end_le (Array.getElem?_eq_getElem hlt)
      rw [get?, get?, hstart]
      simp only [push, Array.getElem?_push_lt hlt, Array.getElem?_eq_getElem hlt, Option.map_some]
      rw [Array.extract_append, Nat.sub_eq_zero_of_le hend]
      simp
    · have h1 := (get?_eq_none_iff (b := b) (i := i)).2 (by unfold size; omega)
      have h2 := (get?_eq_none_iff (b := b.push bucket) (i := i)).2 (by
        rw [size_push]
        unfold size at hi ⊢
        omega)
      rw [h1, h2]

theorem getElem?_starts (b : Buckets k α) {n : Nat} (h : n ≤ b.size) :
    b.starts[n]? = some (b.startOf n) := by
  cases n with
  | zero => rfl
  | succ n =>
    have hend : b.ends[n]? = some b.ends[n] := Array.getElem?_eq_getElem h
    rw [starts, List.getElem?_cons_succ, Array.getElem?_toList, b.startOf_succ hend, hend]

/-- The items are the lists that there are, in the order of their indices. -/
theorem getElem?_toList (b : Buckets k α) (n : Nat) :
    b.toList[n]? = (b.get? ⟨n⟩).map fun bucket => (⟨n⟩, bucket) := by
  have hstop : b.starts.tail[n]? = b.ends[n]? := Array.getElem?_toList
  rw [toList, List.getElem?_map, List.getElem?_zipIdx, List.zip, List.getElem?_zipWith, hstop, get?]
  by_cases hn : n < b.ends.size
  · rw [b.getElem?_starts (Nat.le_of_lt hn), Array.getElem?_eq_getElem hn]
    simp
  · rw [Array.getElem?_eq_none (Nat.le_of_not_lt hn)]
    cases b.starts[n]? <;> rfl

end Buckets

end JourneyPlanner
