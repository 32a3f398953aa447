/-!
Days of a calendar, numbered in 16 bits from the first day that the calendar knows.
-/

namespace JourneyPlanner

structure Day where
  number : Nat
  number_lt : number < 65536
deriving DecidableEq, Repr

namespace Day

/-- The day of number `n`, when there is one. -/
def ofInt? (n : Int) : Option Day :=
  if h : 0 ≤ n ∧ n < 65536 then some ⟨n.toNat, by omega⟩ else none

def ofNat? (n : Nat) : Option Day := if h : n < 65536 then some ⟨n, h⟩ else none

/-- The day `days` later, when it can be numbered. -/
def shift? (d : Day) (days : Int) : Option Day := ofInt? (d.number + days)

/-- The signed number of days from `other` to `d`. -/
def daysSince (d other : Day) : Int := d.number - other.number

instance : LE Day := ⟨fun a b => a.number ≤ b.number⟩
instance : LT Day := ⟨fun a b => a.number < b.number⟩
instance (a b : Day) : Decidable (a ≤ b) := inferInstanceAs (Decidable (a.number ≤ b.number))
instance (a b : Day) : Decidable (a < b) := inferInstanceAs (Decidable (a.number < b.number))

def text (d : Day) : String := "day " ++ toString d.number

end Day

end JourneyPlanner
