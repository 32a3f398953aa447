import JourneyPlanner.Data.BitSet
import JourneyPlanner.Data.Index
import JourneyPlanner.Time.Calendar

/-!
The days on which a transport runs, and a store in which equal sets of days share one index.
-/

namespace JourneyPlanner

/-- A set of days below a capacity that is fixed when the set is made. -/
structure ServiceDays where
  days : BitSet
deriving DecidableEq, Repr

namespace ServiceDays

def empty (c : Calendar) : ServiceDays := ⟨.empty c.nbOfDays⟩

def capacity (s : ServiceDays) : Nat := s.days.capacity

def contains (s : ServiceDays) (d : Day) : Bool := s.days.contains d.number

def isEmpty (s : ServiceDays) : Bool := s.days.isEmpty

/-- Adds a day; `none` when it is beyond the capacity. -/
def insert? (s : ServiceDays) (d : Day) : Option ServiceDays :=
  if d.number < s.capacity then some ⟨s.days.insert d.number⟩ else none

/-- Adds a day unless it is beyond the capacity. -/
def insert (s : ServiceDays) (d : Day) : ServiceDays := (s.insert? d).getD s

/-- The days of some dates; dates that have no day are left out. -/
def ofDates (dates : List Date) (c : Calendar) : ServiceDays :=
  (dates.filterMap c.dayOf?).foldl insert (empty c)

/-- The members, in order. -/
def toList (s : ServiceDays) : List Day := s.days.toList.filterMap Day.ofNat?

/-- Every day moved `n` days later; what passes the capacity is dropped. -/
def shift (s : ServiceDays) (n : Nat) : ServiceDays := ⟨s.days.shift n⟩

@[simp] theorem capacity_empty (c : Calendar) : (empty c).capacity = c.nbOfDays :=
  BitSet.capacity_empty _

@[simp] theorem capacity_insert (s : ServiceDays) (d : Day) :
    (s.insert d).capacity = s.capacity := by
  unfold insert insert?
  split
  · exact BitSet.capacity_insert _ _
  · rfl

@[simp] theorem capacity_shift (s : ServiceDays) (n : Nat) : (s.shift n).capacity = s.capacity :=
  BitSet.capacity_shift _ _

theorem contains_shift {s : ServiceDays} {n : Nat} {d : Day} :
    (s.shift n).contains d = true ↔
      d.number < s.capacity ∧ n ≤ d.number ∧ s.days.contains (d.number - n) = true :=
  BitSet.contains_shift

end ServiceDays

/-- Different sets of days, in the order in which they first came, and the index under which each of
them is found again. -/
structure ServiceDaysStore where
  sets : Array ServiceDays
  indices : List (ServiceDays × ServiceDaysIndex)
  lookup_eq_some_iff : ∀ days i, indices.lookup days = some i ↔ sets[i.val]? = some days
deriving DecidableEq, Repr

namespace ServiceDaysStore

def empty : ServiceDaysStore := ⟨#[], [], by simp⟩

def size (s : ServiceDaysStore) : Nat := s.sets.size

def get? (s : ServiceDaysStore) (i : ServiceDaysIndex) : Option ServiceDays := s.sets[i.val]?

/-- The index of a set that was stored. -/
def indexOf? (s : ServiceDaysStore) (days : ServiceDays) : Option ServiceDaysIndex :=
  s.indices.lookup days

theorem indexOf?_eq_some_iff {s : ServiceDaysStore} {days : ServiceDays} {i : ServiceDaysIndex} :
    s.indexOf? days = some i ↔ s.get? i = some days :=
  s.lookup_eq_some_iff days i

theorem get?_ne_of_indexOf?_eq_none {s : ServiceDaysStore} {days : ServiceDays}
    (h : s.indexOf? days = none) (i : ServiceDaysIndex) : s.get? i ≠ some days := by
  intro hi
  rw [indexOf?_eq_some_iff.2 hi] at h
  cases h

/-- Stores a new set under the next index. -/
def push (s : ServiceDaysStore) (days : ServiceDays) (h : s.indexOf? days = none) :
    ServiceDaysStore where
  sets := s.sets.push days
  indices := (days, ⟨s.size⟩) :: s.indices
  lookup_eq_some_iff := by
    intro other i
    rw [List.lookup_cons, Array.getElem?_push]
    by_cases hi : i.val = s.sets.size
    · have hnone : s.sets[i.val]? = none := Array.getElem?_eq_none (Nat.le_of_eq hi.symm)
      rw [if_pos hi, Option.some.injEq]
      by_cases hsame : other = days
      · rw [hsame, beq_self_eq_true]
        exact iff_of_true (congrArg some (Index.ext hi.symm)) rfl
      · rw [beq_false_of_ne hsame]
        refine iff_of_false (fun hlookup => ?_) (Ne.symm hsame)
        rw [(s.lookup_eq_some_iff other i).1 hlookup] at hnone
        cases hnone
    · rw [if_neg hi]
      by_cases hsame : other = days
      · rw [hsame, beq_self_eq_true]
        refine iff_of_false (fun hlookup => hi ?_) (get?_ne_of_indexOf?_eq_none h i)
        exact (congrArg Index.val (Option.some.inj hlookup)).symm
      · rw [beq_false_of_ne hsame]
        exact s.lookup_eq_some_iff other i

/-- The index of a set, which is added when it is not there yet. -/
def intern (s : ServiceDaysStore) (days : ServiceDays) : ServiceDaysIndex × ServiceDaysStore :=
  match h : s.indexOf? days with
  | some i => (i, s)
  | none => (⟨s.size⟩, s.push days h)

theorem intern_of_get? {s : ServiceDaysStore} {days : ServiceDays} {i : ServiceDaysIndex}
    (h : s.get? i = some days) : s.intern days = (i, s) := by
  have hi : s.indexOf? days = some i := indexOf?_eq_some_iff.2 h
  unfold intern
  split
  · rename_i j hj
    rw [hi] at hj
    cases hj
    rfl
  · rename_i hnone
    rw [hi] at hnone
    cases hnone

theorem intern_of_indexOf?_eq_none {s : ServiceDaysStore} {days : ServiceDays}
    (h : s.indexOf? days = none) : s.intern days = (⟨s.size⟩, s.push days h) := by
  unfold intern
  split
  · rename_i i hi
    rw [h] at hi
    cases hi
  · rfl

/-- A set is stored under the index that it is given, or comes after all that are stored. -/
theorem intern_cases (s : ServiceDaysStore) (days : ServiceDays) :
    (∃ i, s.get? i = some days ∧ s.intern days = (i, s)) ∨
      ∃ h : s.indexOf? days = none, s.intern days = (⟨s.size⟩, s.push days h) := by
  by_cases h : s.indexOf? days = none
  · exact Or.inr ⟨h, intern_of_indexOf?_eq_none h⟩
  · obtain ⟨i, hi⟩ := Option.ne_none_iff_exists'.1 h
    exact Or.inl ⟨i, indexOf?_eq_some_iff.1 hi, intern_of_get? (indexOf?_eq_some_iff.1 hi)⟩

theorem get?_push {s : ServiceDaysStore} {days : ServiceDays} (h : s.indexOf? days = none)
    (i : ServiceDaysIndex) :
    (s.push days h).get? i = if i.val = s.size then some days else s.get? i :=
  Array.getElem?_push

/-- The index of a set leads back to it. -/
theorem get?_intern (s : ServiceDaysStore) (days : ServiceDays) :
    (s.intern days).2.get? (s.intern days).1 = some days := by
  rcases s.intern_cases days with ⟨i, hi, heq⟩ | ⟨h, heq⟩
  · rw [heq]
    exact hi
  · rw [heq, get?_push, if_pos rfl]

/-- Every index keeps its set. -/
theorem get?_intern_of_get? {s : ServiceDaysStore} {i : ServiceDaysIndex} {old : ServiceDays}
    (h : s.get? i = some old) (days : ServiceDays) : (s.intern days).2.get? i = some old := by
  rcases s.intern_cases days with ⟨j, _, heq⟩ | ⟨hnone, heq⟩
  · rw [heq]
    exact h
  · have hi : i.val ≠ s.size := Nat.ne_of_lt (Array.getElem?_eq_some_iff.1 h).1
    rw [heq, get?_push, if_neg hi]
    exact h

end ServiceDaysStore

end JourneyPlanner
