import JourneyPlanner.Time.Duration

/-!
Times of a search, in minutes relative to the midnight of its base day. A time outside the range of
the finite values is unreachable, and so is every time computed from an unreachable one.
-/

namespace JourneyPlanner

inductive RelTime where
  | infeasible
  | finite (minutes : Int) (minutes_gt : -32768 < minutes) (minutes_lt : minutes < 32767)
deriving DecidableEq, Repr

namespace RelTime

instance : Inhabited RelTime := ⟨infeasible⟩

def ofMinutes (n : Int) : RelTime :=
  if h : -32768 < n ∧ n < 32767 then finite n h.1 h.2 else infeasible

def zero : RelTime := ofMinutes 0

def minutes? : RelTime → Option Int
  | infeasible => none
  | finite n _ _ => some n

def isFeasible (t : RelTime) : Bool := t.minutes?.isSome

/-- `t` moved later by `d`; an unusable duration leads nowhere. -/
def add (t : RelTime) (d : Duration) : RelTime :=
  match t with
  | infeasible => infeasible
  | finite n _ _ => if d.isFeasible then ofMinutes (n + d.minutes) else infeasible

/-- `t` moved earlier by `d`; an unusable duration leads nowhere. -/
def sub (t : RelTime) (d : Duration) : RelTime :=
  match t with
  | infeasible => infeasible
  | finite n _ _ => if d.isFeasible then ofMinutes (n - d.minutes) else infeasible

/-- The time from `t` to `later`, when both are feasible and in this order. -/
def durationUntil (t later : RelTime) : Option Duration := do
  let n ← t.minutes?
  let m ← later.minutes?
  Duration.ofInt? (m - n)

/-- The place of a time on the line, where the unreachable time comes last. -/
def rank : RelTime → Int
  | infeasible => 32767
  | finite n _ _ => n

instance : LT RelTime := ⟨fun a b => a.rank < b.rank⟩
instance (a b : RelTime) : Decidable (a < b) := inferInstanceAs (Decidable (a.rank < b.rank))

theorem ext {s t : RelTime} (h : s.minutes? = t.minutes?) : s = t := by
  cases s <;> cases t <;> simp_all [minutes?]

theorem minutes?_ofMinutes (n : Int) :
    (ofMinutes n).minutes? = if -32768 < n ∧ n < 32767 then some n else none := by
  unfold ofMinutes
  split <;> rfl

/-- A finite time is in the range. -/
theorem range_of_minutes? {t : RelTime} {n : Int} (h : t.minutes? = some n) :
    -32768 < n ∧ n < 32767 := by
  cases t with
  | infeasible => cases h
  | finite m hgt hlt => cases h; exact ⟨hgt, hlt⟩

theorem minutes?_add (t : RelTime) (d : Duration) :
    (t.add d).minutes? =
      t.minutes?.bind fun n => if d.minutes < 65535 ∧ n + d.minutes < 32767 then
        some (n + d.minutes) else none := by
  cases t with
  | infeasible => rfl
  | finite n hgt hlt =>
    by_cases hd : d.minutes < 65535
    · rw [add, if_pos (Duration.isFeasible_iff.2 hd), minutes?_ofMinutes]
      by_cases hr : n + d.minutes < 32767
      · rw [if_pos ⟨by omega, hr⟩]
        exact (if_pos ⟨hd, hr⟩).symm
      · rw [if_neg fun h => hr h.2]
        exact (if_neg fun h => hr h.2).symm
    · rw [add, if_neg fun h => hd (Duration.isFeasible_iff.1 h)]
      exact (if_neg fun h => hd h.1).symm

theorem minutes?_sub (t : RelTime) (d : Duration) :
    (t.sub d).minutes? =
      t.minutes?.bind fun n => if d.minutes < 65535 ∧ -32768 < n - d.minutes then
        some (n - d.minutes) else none := by
  cases t with
  | infeasible => rfl
  | finite n hgt hlt =>
    by_cases hd : d.minutes < 65535
    · rw [sub, if_pos (Duration.isFeasible_iff.2 hd), minutes?_ofMinutes]
      by_cases hr : -32768 < n - d.minutes
      · rw [if_pos ⟨hr, by omega⟩]
        exact (if_pos ⟨hd, hr⟩).symm
      · rw [if_neg fun h => hr h.1]
        exact (if_neg fun h => hr h.2).symm
    · rw [sub, if_neg fun h => hd (Duration.isFeasible_iff.1 h)]
      exact (if_neg fun h => hd h.1).symm

/-- Moving later twice is moving later by the sum, also where the sum is cut off. -/
theorem add_add (t : RelTime) (a b : Duration) : (t.add a).add b = t.add (a.add b) := by
  apply ext
  rw [minutes?_add, minutes?_add, minutes?_add, Duration.minutes_add]
  cases ht : t.minutes? with
  | none => rfl
  | some n =>
    have hn := range_of_minutes? ht
    rw [Option.bind_some, Option.bind_some]
    by_cases ha : a.minutes < 65535 ∧ n + a.minutes < 32767
    · rw [if_pos ha, Option.bind_some]
      by_cases hb : b.minutes < 65535 ∧ n + a.minutes + b.minutes < 32767
      · rw [if_pos hb, if_pos (by omega), Int.add_assoc]
        congr 2
        omega
      · rw [if_neg hb, if_neg (by omega)]
    · rw [if_neg ha, Option.bind_none, if_neg (by omega)]

/-- Moving earlier twice is moving earlier by the sum, also where the sum is cut off. -/
theorem sub_sub (t : RelTime) (a b : Duration) : (t.sub a).sub b = t.sub (a.add b) := by
  apply ext
  rw [minutes?_sub, minutes?_sub, minutes?_sub, Duration.minutes_add]
  cases ht : t.minutes? with
  | none => rfl
  | some n =>
    have hn := range_of_minutes? ht
    rw [Option.bind_some, Option.bind_some]
    by_cases ha : a.minutes < 65535 ∧ -32768 < n - a.minutes
    · rw [if_pos ha, Option.bind_some]
      by_cases hb : b.minutes < 65535 ∧ -32768 < n - a.minutes - b.minutes
      · rw [if_pos hb, if_pos (by omega), Int.sub_sub]
        congr 2
        omega
      · rw [if_neg hb, if_neg (by omega)]
    · rw [if_neg ha, Option.bind_none, if_neg (by omega)]

/-- Days, hours and minutes, as in `-1d23:05`. -/
def text : RelTime → String
  | infeasible => "infeasible"
  | finite n _ _ =>
    let inDay := (n % 1440).toNat
    toString (n / 1440) ++ "d" ++ Text.padded 2 (inDay / 60) ++ ":" ++ Text.padded 2 (inDay % 60)

end RelTime

end JourneyPlanner
