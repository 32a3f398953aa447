/-!
Dense, zero-based numbers for the entities of a timetable. Every kind of entity has its own type
of number, so a route number cannot stand where a location number is expected.
-/

namespace JourneyPlanner

/-- The kinds of entity that a timetable numbers. -/
inductive Entity where
  | location
  | route
  | transport
  | serviceDays
  | source
deriving DecidableEq, Repr

/-- The name under which an index of this kind is written. -/
def Entity.label : Entity → String
  | .location => "LocationIdx"
  | .route => "RouteIdx"
  | .transport => "TransportIdx"
  | .serviceDays => "BitfieldIdx"
  | .source => "SourceIdx"

/-- The number of an entity of kind `k`. -/
structure Index (k : Entity) where
  val : Nat
deriving DecidableEq, Repr, Hashable

abbrev LocationIndex := Index .location
abbrev RouteIndex := Index .route
abbrev TransportIndex := Index .transport
abbrev ServiceDaysIndex := Index .serviceDays
abbrev SourceIndex := Index .source

namespace Index

variable {k : Entity}

instance : LE (Index k) := ⟨fun a b => a.val ≤ b.val⟩
instance : LT (Index k) := ⟨fun a b => a.val < b.val⟩
instance (a b : Index k) : Decidable (a ≤ b) := inferInstanceAs (Decidable (a.val ≤ b.val))
instance (a b : Index k) : Decidable (a < b) := inferInstanceAs (Decidable (a.val < b.val))

/-- An index is written as its kind and its number, as in `RouteIdx(3)`. -/
def text (i : Index k) : String := k.label ++ "(" ++ toString i.val ++ ")"

/-- The first `n` indices of a kind. -/
def firsts (n : Nat) : List (Index k) := (List.range n).map Index.mk

theorem mem_firsts {n : Nat} {i : Index k} : i ∈ firsts n ↔ i.val < n := by
  obtain ⟨i⟩ := i
  simp [firsts]

theorem ext {i j : Index k} (h : i.val = j.val) : i = j := by
  cases i; cases j; exact congrArg _ h

end Index

/-- The indices from `start` on, `size` of them. -/
structure IndexRange (k : Entity) where
  start : Index k
  size : Nat
deriving DecidableEq, Repr

namespace IndexRange

variable {k : Entity}

/-- The first index after the range. -/
def stop (r : IndexRange k) : Index k := ⟨r.start.val + r.size⟩

def isEmpty (r : IndexRange k) : Bool := r.size == 0

def contains (r : IndexRange k) (i : Index k) : Bool :=
  decide (r.start ≤ i) && decide (i < r.stop)

/-- The position of an index in the range. -/
def offset? (r : IndexRange k) (i : Index k) : Option Nat :=
  if r.contains i then some (i.val - r.start.val) else none

/-- The index at a position of the range. -/
def nth (r : IndexRange k) (position : Nat) : Index k := ⟨r.start.val + position⟩

def toList (r : IndexRange k) : List (Index k) := (List.range r.size).map r.nth

theorem contains_iff {r : IndexRange k} {i : Index k} :
    r.contains i = true ↔ r.start.val ≤ i.val ∧ i.val < r.start.val + r.size := by
  simp only [contains, Bool.and_eq_true, decide_eq_true_eq]
  exact Iff.rfl

/-- The items of a range are the indices that it contains. -/
theorem mem_toList {r : IndexRange k} {i : Index k} : i ∈ r.toList ↔ r.contains i = true := by
  rw [contains_iff]
  simp only [toList, nth, List.mem_map, List.mem_range]
  constructor
  · rintro ⟨n, hn, rfl⟩
    exact ⟨Nat.le_add_right _ _, Nat.add_lt_add_left hn _⟩
  · intro ⟨hle, hlt⟩
    exact ⟨i.val - r.start.val, by omega, by cases i; simp at *; omega⟩

end IndexRange

end JourneyPlanner
