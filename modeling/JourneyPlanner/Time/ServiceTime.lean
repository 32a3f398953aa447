import JourneyPlanner.Time.Duration

/-!
Times of the events of a transport, counted from the midnight of its service day. They pass
twenty-four hours for a transport that runs past midnight.
-/

namespace JourneyPlanner

/-- The events of a transport must happen within this many days of its service day. -/
def maxDaysInTrip : Nat := 5

structure ServiceTime where
  minutes : Nat
  minutes_lt : minutes < 65536
deriving Repr

instance : DecidableEq ServiceTime := fun a b =>
  decidable_of_iff (a.minutes = b.minutes)
    ⟨fun h => by cases a; cases b; cases h; rfl, fun h => congrArg _ h⟩

namespace ServiceTime

def ofNat (n : Nat) : ServiceTime := ⟨n % 65536, Nat.mod_lt _ (by decide)⟩

def midnight : ServiceTime := ofNat 0

instance : Inhabited ServiceTime := ⟨midnight⟩

/-- A time within the span of a trip. -/
def ofMinutes? (n : Nat) : Option ServiceTime :=
  if n < maxDaysInTrip * minutesPerDay then some (ofNat n) else none

/-- The whole days contained in the time. -/
def days (t : ServiceTime) : Nat := t.minutes / minutesPerDay

/-- The same time counted from a midnight `n` days later. -/
def earlierByDays (t : ServiceTime) (n : Nat) : ServiceTime :=
  ⟨t.minutes - n * minutesPerDay, Nat.lt_of_le_of_lt (Nat.sub_le _ _) t.minutes_lt⟩

instance : LE ServiceTime := ⟨fun a b => a.minutes ≤ b.minutes⟩
instance : LT ServiceTime := ⟨fun a b => a.minutes < b.minutes⟩
instance (a b : ServiceTime) : Decidable (a ≤ b) :=
  inferInstanceAs (Decidable (a.minutes ≤ b.minutes))
instance (a b : ServiceTime) : Decidable (a < b) :=
  inferInstanceAs (Decidable (a.minutes < b.minutes))

/-- Hours and minutes, as in `25:10`. -/
def text (t : ServiceTime) : String :=
  Text.padded 2 (t.minutes / 60) ++ ":" ++ Text.padded 2 (t.minutes % 60)

end ServiceTime

end JourneyPlanner
