import JourneyPlanner.Proofs.Time.Costs
import JourneyPlanner.Time.Calendar

/-!
# Midnights

An instant is told by a day and the time since its midnight. What is computed around midnights
wraps together, so an event has one instant however it is computed.
-/

namespace JourneyPlanner

namespace Instant

lemma ext {a b : Instant} (h : a.minutes = b.minutes) : a = b := by
  cases a
  cases b
  simp only [Instant.mk.injEq]
  exact h

lemma wrap_add (a b : Int) : wrap ((wrap a).minutes + b) = wrap (a + b) := by
  apply ext
  show ((a.bmod 4294967296) + b).bmod 4294967296 = (a + b).bmod 4294967296
  rw [Int.bmod_add_bmod]

lemma wrap_minutes (t : Instant) : wrap t.minutes = t :=
  ext (minutes_wrap t.minutes_ge t.minutes_lt)

end Instant

namespace Calendar

variable {c : Calendar} {day base : Day} {t : Instant}

/-- Around every day of the calendar, the instants of the times of a search do not wrap. -/
def InstantsFit (c : Calendar) : Prop :=
  ∀ (day : Day) (n : Int), day.number < c.nbOfDays → -32768 < n → n < 32767 →
    -2147483648 ≤ c.origin.minutes + day.number * 1440 + n ∧
      c.origin.minutes + day.number * 1440 + n < 2147483648

/-- The midnight that begins a day, in minutes, before it wraps. -/
def midnight (c : Calendar) (day : Day) : Int := c.origin.minutes + day.number * 1440

/-- A midnight before an instant does not wrap. -/
lemma minutes_dayStart (h : c.midnight day ≤ t.minutes) :
    (c.dayStart day).minutes = c.midnight day := by
  have horigin := c.origin.minutes_ge
  have ht := t.minutes_lt
  unfold midnight at *
  unfold dayStart
  exact Instant.minutes_wrap (by omega) (by omega)

lemma interval_fst : c.interval.1 = c.origin := by
  unfold interval dayStart
  simpa using Instant.wrap_minutes c.origin

lemma minutes_of_contains (h : c.contains t = true) :
    c.origin.minutes ≤ t.minutes ∧ t.minutes < c.origin.minutes + c.nbOfDays * 1440 := by
  unfold contains at h
  rw [Bool.and_eq_true, decide_eq_true_eq, decide_eq_true_eq] at h
  obtain ⟨hge, hlt⟩ := h
  have hge' : c.interval.1.minutes ≤ t.minutes := hge
  have hlt' : t.minutes < (Instant.wrap (c.interval.1.minutes + c.nbOfDays * 1440)).minutes := hlt
  rw [interval_fst] at hge' hlt'
  have hdays := c.nbOfDays_lt
  have horigin := c.origin.minutes_ge
  have horigin' := c.origin.minutes_lt
  refine ⟨hge', ?_⟩
  -- an end that wraps comes before the beginning, and nothing is in between
  by_cases hfits : c.origin.minutes + c.nbOfDays * 1440 < 2147483648
  · rw [Instant.minutes_wrap (by omega) hfits] at hlt'
    exact hlt'
  · have ht := t.minutes_lt
    omega

/-- An instant in the calendar is told by its day and the time since its midnight. -/
lemma split?_sound {time : ServiceTime} (h : c.split? t = some (day, time)) :
    c.midnight day ≤ t.minutes ∧ t.minutes < c.midnight day + 1440 ∧ day.number < c.nbOfDays ∧
      c.contains t = true := by
  unfold split? at h
  split at h
  · rename_i hcontains
    obtain ⟨hge, hlt⟩ := minutes_of_contains hcontains
    obtain ⟨d, hd, heq⟩ := Option.map_eq_some_iff.1 h
    cases heq
    rw [interval_fst] at hd
    unfold Day.ofInt? at hd
    split at hd
    · rename_i hrange
      cases hd
      unfold midnight
      dsimp only
      exact ⟨by omega, by omega, by omega, hcontains⟩
    · cases hd
  · cases h

lemma exists_split? (h : c.contains t = true) : ∃ day time, c.split? t = some (day, time) := by
  obtain ⟨hge, hlt⟩ := minutes_of_contains h
  have hdays := c.nbOfDays_lt
  unfold split?
  rw [if_pos h, interval_fst]
  unfold Day.ofInt?
  dsimp only
  rw [dif_pos (by omega), Option.map_some]
  exact ⟨_, _, rfl⟩

/-- The time of an event is the same instant from every base day. -/
lemma absolute?_eventTime {time : ServiceTime}
    (h : (c.eventTime base day time).isFeasible = true) :
    c.absolute? base (c.eventTime base day time) = some (c.instantOf day time) := by
  unfold absolute? eventTime at *
  rw [RelTime.minutes?_of_isFeasible h, Option.map_some]
  unfold instantOf dayStart Day.daysSince
  rw [Instant.wrap_add, Instant.wrap_add]
  have hsum : c.origin.minutes + base.number * 1440 +
      (((day.number : Int) - base.number) * 1440 + time.minutes) =
        c.origin.minutes + day.number * 1440 + time.minutes := by omega
  rw [hsum]

lemma minutes_absolute? {u : RelTime} {n : Int} (hu : u.minutes? = some n)
    (hge : -2147483648 ≤ c.midnight base + n) (hlt : c.midnight base + n < 2147483648) :
    ∃ instant, c.absolute? base u = some instant ∧ instant.minutes = c.midnight base + n := by
  unfold midnight at *
  unfold absolute? dayStart
  rw [hu, Option.map_some, Instant.wrap_add]
  exact ⟨_, rfl, Instant.minutes_wrap hge hlt⟩

/-- An instant in the calendar, told from one of its days, does not wrap. -/
lemma minutes_wrap_of_split? {n : Int} {time : ServiceTime}
    (h : c.split? (.wrap (c.midnight day + n)) = some (base, time)) (hn : -32768 < n ∧ n < 32767) :
    (Instant.wrap (c.midnight day + n)).minutes = c.midnight day + n := by
  obtain ⟨hge, hlt, _, _⟩ := split?_sound h
  have hday := day.number_lt
  have hbase := base.number_lt
  have heq : (Instant.wrap (c.midnight day + n)).minutes =
      (c.midnight day + n).bmod 4294967296 := rfl
  rw [Int.bmod_def] at heq
  have horigin := c.origin.minutes_ge
  have horigin' := c.origin.minutes_lt
  have hmidnight : c.midnight day = c.origin.minutes + day.number * 1440 := rfl
  have hmidnight' : c.midnight base = c.origin.minutes + base.number * 1440 := rfl
  -- both are within the days of a calendar from its origin, so they wrap alike
  split at heq <;> omega

end Calendar

end JourneyPlanner
