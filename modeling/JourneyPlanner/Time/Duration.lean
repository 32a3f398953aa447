import JourneyPlanner.Text.Decimal

/-!
Durations in whole minutes. The longest value is reserved for what cannot be used; sums and
multiples that would pass it stop there.
-/

namespace JourneyPlanner

def minutesPerDay : Nat := 1440

structure Duration where
  minutes : Nat
  minutes_le : minutes ≤ 65535
deriving DecidableEq, Repr

namespace Duration

/-- The duration of `n` minutes, or the reserved one when `n` is too long. -/
def clamp (n : Nat) : Duration := ⟨min n 65535, Nat.min_le_right _ _⟩

def zero : Duration := clamp 0

/-- The reserved value of durations that cannot be used. -/
def unusable : Duration := clamp 65535

instance : Inhabited Duration := ⟨zero⟩

/-- The duration of a whole number of minutes, when it is one. -/
def ofInt? (n : Int) : Option Duration :=
  if 0 ≤ n ∧ n ≤ 65535 then some (clamp n.toNat) else none

def isFeasible (d : Duration) : Bool := d != unusable

def add (a b : Duration) : Duration := clamp (a.minutes + b.minutes)

def times (a : Duration) (n : Nat) : Duration := clamp (a.minutes * n)

instance : LE Duration := ⟨fun a b => a.minutes ≤ b.minutes⟩
instance : LT Duration := ⟨fun a b => a.minutes < b.minutes⟩
instance (a b : Duration) : Decidable (a ≤ b) := inferInstanceAs (Decidable (a.minutes ≤ b.minutes))
instance (a b : Duration) : Decidable (a < b) := inferInstanceAs (Decidable (a.minutes < b.minutes))

/-- The longer of two durations. -/
def longer (a b : Duration) : Duration := if a ≤ b then b else a

theorem ext {a b : Duration} (h : a.minutes = b.minutes) : a = b := by
  cases a; cases b; simp only [Duration.mk.injEq]; exact h

@[simp] theorem minutes_clamp (n : Nat) : (clamp n).minutes = min n 65535 := rfl

@[simp] theorem minutes_zero : zero.minutes = 0 := rfl

theorem minutes_add (a b : Duration) : (a.add b).minutes = min (a.minutes + b.minutes) 65535 := rfl

theorem isFeasible_iff {d : Duration} : d.isFeasible = true ↔ d.minutes < 65535 := by
  rw [isFeasible, bne_iff_ne]
  constructor
  · intro h
    exact Nat.lt_of_le_of_ne d.minutes_le fun hd => h (ext hd)
  · intro h hd
    rw [hd] at h
    exact absurd h (by decide)

@[simp] theorem zero_add (a : Duration) : zero.add a = a := by
  apply ext
  rw [minutes_add, minutes_zero, Nat.zero_add, Nat.min_eq_left a.minutes_le]

@[simp] theorem add_zero (a : Duration) : a.add zero = a := by
  apply ext
  rw [minutes_add, minutes_zero, Nat.add_zero, Nat.min_eq_left a.minutes_le]

theorem add_comm (a b : Duration) : a.add b = b.add a := by
  apply ext
  rw [minutes_add, minutes_add, Nat.add_comm]

theorem add_assoc (a b c : Duration) : (a.add b).add c = a.add (b.add c) := by
  apply ext
  simp only [minutes_add]
  omega

/-- Hours and minutes, as in `1h05m`; only minutes below an hour. -/
def text (d : Duration) : String :=
  if d.minutes / 60 = 0 then toString (d.minutes % 60) ++ "m"
  else toString (d.minutes / 60) ++ "h" ++ Text.padded 2 (d.minutes % 60) ++ "m"

/-- Hours, minutes and no seconds, as in `01:05:00`: the form used in configurations. -/
def clockText (d : Duration) : String :=
  Text.padded 2 (d.minutes / 60) ++ ":" ++ Text.padded 2 (d.minutes % 60) ++ ":00"

end Duration

end JourneyPlanner
