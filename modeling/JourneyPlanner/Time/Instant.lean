import JourneyPlanner.Time.Duration

/-!
Instants: minutes since 1970-01-01 00:00 UTC in a signed 32-bit word. Moving by a duration stops at
the ends of the range. Other arithmetic is that of the word, modulo its size. It is exact between the
years -2113 and 6053; theorems that rely on exact sums ask for them (`Calendar.InstantsFit`,
`Calendar.EndsInRange`).
-/

namespace JourneyPlanner

structure Instant where
  minutes : Int
  minutes_ge : -2147483648 ≤ minutes
  minutes_lt : minutes < 2147483648
deriving DecidableEq, Repr

namespace Instant

/-- The instant congruent to `n` modulo `2 ^ 32`. -/
def wrap (n : Int) : Instant :=
  ⟨n.bmod 4294967296, by have := Int.le_bmod (x := n) (m := 4294967296) (by decide); omega,
    by have := Int.bmod_lt (x := n) (m := 4294967296) (by decide); omega⟩

/-- A number in the range is the minutes of its instant. -/
theorem minutes_wrap {n : Int} (hge : -2147483648 ≤ n) (hlt : n < 2147483648) :
    (wrap n).minutes = n := by
  rw [wrap]
  exact Int.bmod_eq_of_le_mul_two (by omega) (by omega)

/-- The instant nearest to `n`. -/
def clamp (n : Int) : Instant :=
  ⟨max (-2147483648) (min n 2147483647), by omega, by omega⟩

/-- The instant of `n` minutes, when there is one. -/
def ofInt? (n : Int) : Option Instant :=
  if h : -2147483648 ≤ n ∧ n < 2147483648 then some ⟨n, h.1, h.2⟩ else none

def epoch : Instant := clamp 0

instance : Inhabited Instant := ⟨epoch⟩

instance : LE Instant := ⟨fun a b => a.minutes ≤ b.minutes⟩
instance : LT Instant := ⟨fun a b => a.minutes < b.minutes⟩
instance (a b : Instant) : Decidable (a ≤ b) := inferInstanceAs (Decidable (a.minutes ≤ b.minutes))
instance (a b : Instant) : Decidable (a < b) := inferInstanceAs (Decidable (a.minutes < b.minutes))

def add (t : Instant) (d : Duration) : Instant := clamp (t.minutes + d.minutes)

def sub (t : Instant) (d : Duration) : Instant := clamp (t.minutes - d.minutes)

/-- The signed minutes from `earlier` to `t`; they stop at the ends of the range. -/
def minutesSince (t earlier : Instant) : Int := (clamp (t.minutes - earlier.minutes)).minutes

/-- The time from `earlier` to `t`, when it is a duration. -/
def since (t earlier : Instant) : Option Duration := Duration.ofInt? (t.minutes - earlier.minutes)

/-- A sorted list of instants, each only once. -/
def distinct : List Instant → List Instant
  | a :: b :: rest => if a = b then distinct (b :: rest) else a :: distinct (b :: rest)
  | ts => ts

end Instant

end JourneyPlanner
