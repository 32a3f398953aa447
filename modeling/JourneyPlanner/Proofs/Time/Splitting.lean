import JourneyPlanner.Proofs.Time.Midnights

/-!
# Days and minutes

The instants of a calendar and the pairs of a numbered day and a minute of the day tell the same, in
the same order: an instant is split into its pair, and put together again from it.
-/

namespace JourneyPlanner

lemma ServiceTime.ext {a b : ServiceTime} (h : a.minutes = b.minutes) : a = b := by
  cases a
  cases b
  simp only [mk.injEq]
  exact h

lemma Day.ext {a b : Day} (h : a.number = b.number) : a = b := by
  cases a
  cases b
  simp only [mk.injEq]
  exact h

namespace Calendar

variable {c : Calendar} {day day' : Day} {time time' : ServiceTime} {t t' : Instant}

/-- The numbered days end at an instant. -/
def EndsInRange (c : Calendar) : Prop := c.origin.minutes + c.nbOfDays * 1440 < 2147483648

/-- Instants are split in order: those of the interval of the calendar, each into a numbered day and a
minute of it, from which it is told again, and every such pair is the one of its instant. -/
structure SplitsInOrder (c : Calendar) : Prop where
  isSome_iff : ∀ t, (c.split? t).isSome = true ↔ c.interval.1 ≤ t ∧ t < c.interval.2
  sound : ∀ t day time, c.split? t = some (day, time) →
    day.number < c.nbOfDays ∧ time.minutes < minutesPerDay ∧ c.instantOf day time = t
  complete : ∀ (day : Day) (time : ServiceTime), day.number < c.nbOfDays →
    time.minutes < minutesPerDay → c.split? (c.instantOf day time) = some (day, time)
  lt_iff : ∀ t t' day day' time time', c.split? t = some (day, time) →
    c.split? t' = some (day', time') → (t < t' ↔ day < day' ∨ (day = day' ∧ time < time'))

/-- Before it wraps, the end of the interval is the midnight after the last numbered day. -/
lemma EndsInRange.minutes_interval_snd (h : c.EndsInRange) :
    c.interval.2.minutes = c.origin.minutes + c.nbOfDays * 1440 := by
  have horigin := c.origin.minutes_ge
  have heq : c.interval.2 = Instant.wrap (c.interval.1.minutes + c.nbOfDays * 1440) := rfl
  unfold EndsInRange at h
  rw [heq, interval_fst, Instant.minutes_wrap (by omega) h]

lemma EndsInRange.contains_iff (h : c.EndsInRange) : c.contains t = true ↔
    c.origin.minutes ≤ t.minutes ∧ t.minutes < c.origin.minutes + c.nbOfDays * 1440 := by
  unfold contains
  rw [Bool.and_eq_true, decide_eq_true_eq, decide_eq_true_eq, ← h.minutes_interval_snd, interval_fst]
  exact Iff.rfl

lemma EndsInRange.minutes_instantOf (h : c.EndsInRange) (hday : day.number < c.nbOfDays)
    (htime : time.minutes < minutesPerDay) :
    (c.instantOf day time).minutes = c.midnight day + time.minutes := by
  have horigin := c.origin.minutes_ge
  unfold EndsInRange at h
  unfold minutesPerDay at htime
  unfold instantOf dayStart midnight
  rw [Instant.wrap_add, Instant.minutes_wrap (by omega) (by omega)]

lemma EndsInRange.split?_eq_some_iff (h : c.EndsInRange) : c.split? t = some (day, time) ↔
    day.number < c.nbOfDays ∧ time.minutes < minutesPerDay ∧
      t.minutes = c.midnight day + time.minutes := by
  have hdays := c.nbOfDays_lt
  unfold split? minutesPerDay midnight
  rw [interval_fst]
  constructor
  · intro hsplit
    split at hsplit
    · rename_i hcontains
      obtain ⟨hge, hlt⟩ := h.contains_iff.1 hcontains
      unfold Day.ofInt? at hsplit
      dsimp only at hsplit
      rw [dif_pos (by omega), Option.map_some, Option.some.injEq, Prod.mk.injEq] at hsplit
      obtain ⟨rfl, rfl⟩ := hsplit
      dsimp only [ServiceTime.ofNat]
      omega
    · cases hsplit
  · rintro ⟨hday, htime, heq⟩
    rw [if_pos (h.contains_iff.2 (by omega))]
    unfold Day.ofInt?
    dsimp only
    rw [dif_pos (by omega), Option.map_some]
    congr 2
    · exact Day.ext (by dsimp only; omega)
    · exact ServiceTime.ext (by dsimp only [ServiceTime.ofNat]; omega)

lemma EndsInRange.splitsInOrder (h : c.EndsInRange) : c.SplitsInOrder where
  isSome_iff := by
    intro t
    have hcontains : c.contains t = true ↔ c.interval.1 ≤ t ∧ t < c.interval.2 := by
      unfold contains
      rw [Bool.and_eq_true, decide_eq_true_eq, decide_eq_true_eq]
    rw [← hcontains]
    constructor
    · intro hsome
      obtain ⟨⟨day, time⟩, hsplit⟩ := Option.isSome_iff_exists.1 hsome
      exact (split?_sound hsplit).2.2.2
    · intro hin
      obtain ⟨day, time, hsplit⟩ := exists_split? hin
      exact Option.isSome_of_eq_some hsplit
  sound := by
    intro t day time hsplit
    obtain ⟨hday, htime, heq⟩ := h.split?_eq_some_iff.1 hsplit
    exact ⟨hday, htime, Instant.ext ((h.minutes_instantOf hday htime).trans heq.symm)⟩
  complete := by
    intro day time hday htime
    exact h.split?_eq_some_iff.2 ⟨hday, htime, h.minutes_instantOf hday htime⟩
  lt_iff := by
    intro t t' day day' time time' hsplit hsplit'
    obtain ⟨_, htime, heq⟩ := h.split?_eq_some_iff.1 hsplit
    obtain ⟨_, htime', heq'⟩ := h.split?_eq_some_iff.1 hsplit'
    -- the minutes since the origin are the number of the day and the time as two digits to base 1440
    have hsame : day = day' ↔ day.number = day'.number := ⟨congrArg Day.number, Day.ext⟩
    rw [hsame]
    change t.minutes < t'.minutes ↔ day.number < day'.number ∨
      (day.number = day'.number ∧ time.minutes < time'.minutes)
    unfold midnight at heq heq'
    unfold minutesPerDay at htime htime'
    omega

/-- The interval begins five days before the first date and ends two days after the last one. -/
lemma interval_ofDates {first last : Date} (hc : ofDates first last = .ok c) (h : c.EndsInRange)
    (hfirst : -2147483648 ≤ (first.dayNumber - lookbackDays) * 1440)
    (hlast : (last.dayNumber + 2) * 1440 < 2147483648) :
    c.interval.1.minutes = (first.dayNumber - lookbackDays) * 1440 ∧
      c.interval.2.minutes = (last.dayNumber + 2) * 1440 := by
  unfold ofDates at hc
  split at hc
  · rename_i hordered
    split at hc
    · rename_i hlength
      cases hc
      have hle : first.dayNumber ≤ last.dayNumber := hordered
      have horigin : (⟨first, last, hordered, hlength⟩ : Calendar).origin.minutes =
          (first.dayNumber - lookbackDays) * 1440 := by
        unfold origin originDate Date.addDays Instant.ofInt? lookbackDays
        unfold lookbackDays at hfirst
        dsimp only
        rw [dif_pos (by omega), Option.getD_some]
        rfl
      rw [h.minutes_interval_snd, interval_fst, horigin]
      unfold nbOfDays Date.daysSince lookbackDays
      dsimp only
      omega
    · cases hc
  · cases hc

/-- Instants and pairs of a day and a minute are in order-preserving bijection, in every calendar
whose interval ends at an instant. When no date is too far from the epoch, the interval is that of
the dates, with the days before and after them that have a number. -/
theorem splitsInOrder_of_ofDates {first last : Date} {c : Calendar}
    (hc : ofDates first last = .ok c) (hends : c.EndsInRange) : c.SplitsInOrder ∧
      (-2147483648 ≤ (first.dayNumber - lookbackDays) * 1440 →
        (last.dayNumber + 2) * 1440 < 2147483648 →
          c.interval.1.minutes = (first.dayNumber - lookbackDays) * 1440 ∧
            c.interval.2.minutes = (last.dayNumber + 2) * 1440) :=
  ⟨hends.splitsInOrder, interval_ofDates hc hends⟩

end Calendar

namespace AroundEpoch

/-- From the last days of 1969 to the first ones of 1970. -/
def calendar : Calendar := ⟨⟨-4⟩, ⟨2⟩, by decide, by decide⟩

/-- Splitting instants before and after the epoch. -/
theorem splitsInOrder_calendar : Calendar.ofDates ⟨-4⟩ ⟨2⟩ = .ok calendar ∧
    calendar.EndsInRange ∧ calendar.SplitsInOrder ∧
      calendar.interval.1.minutes = -12960 ∧ calendar.interval.2.minutes = 5760 := by
  have hc : Calendar.ofDates ⟨-4⟩ ⟨2⟩ = .ok calendar := rfl
  have hends : calendar.EndsInRange := by
    unfold Calendar.EndsInRange
    decide
  obtain ⟨hsplits, hinterval⟩ := Calendar.splitsInOrder_of_ofDates hc hends
  exact ⟨hc, hends, hsplits, hinterval (by decide) (by decide)⟩

/-- The last minute before the epoch belongs to day 8, as its last one. -/
example : calendar.split? (.clamp (-1)) = some (⟨8, by decide⟩, .ofNat 1439) := by decide

end AroundEpoch

end JourneyPlanner
