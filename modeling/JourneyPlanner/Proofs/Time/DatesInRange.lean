import JourneyPlanner.Proofs.Time.Splitting

/-!
# Dates among the instants

Instants are minutes in a 32-bit word, dates have no bounds, and a calendar is accepted for its
length only. It tells its days by their midnights exactly when its first midnight and the end of its
last day are instants.
-/

namespace JourneyPlanner

/-- A number of minutes is that of an instant. -/
def Instant.Fits (n : Int) : Prop := -2147483648 ≤ n ∧ n < 2147483648

instance (n : Int) : Decidable (Instant.Fits n) :=
  inferInstanceAs (Decidable (-2147483648 ≤ n ∧ n < 2147483648))

/-- The midnight that begins a date. -/
def DateTime.midnight (d : Date) : DateTime := ⟨d, 0, 0, 0⟩

lemma Instant.ofInt?_eq_some_iff {n : Int} {t : Instant} : ofInt? n = some t ↔ t.minutes = n := by
  unfold ofInt?
  constructor
  · intro h
    split at h
    · cases h
      rfl
    · cases h
  · rintro rfl
    rw [dif_pos ⟨t.minutes_ge, t.minutes_lt⟩]

lemma DateTime.instant?_midnight_eq_some_iff {d : Date} {t : Instant} :
    (midnight d).instant? = some t ↔ t.minutes = d.dayNumber * 1440 := by
  unfold instant? minutes midnight
  rw [Instant.ofInt?_eq_some_iff]
  simp

namespace Calendar

variable {c : Calendar} {day : Day} {t u : Instant} {first last : Date}

/-- The midnight that begins day number `n`, when no step on the way to it leaves the word of an
instant. -/
def midnight? (c : Calendar) (n : Nat) : Option Instant := do
  let sinceOrigin ← Instant.ofInt? (n * 1440)
  Instant.ofInt? (c.origin.minutes + sinceOrigin.minutes)

/-- The interval, when no step on the way to it leaves the word of an instant. -/
def interval? (c : Calendar) : Option (Instant × Instant) := do
  let start ← c.midnight? 0
  let length ← Instant.ofInt? (c.nbOfDays * 1440)
  let stop ← Instant.ofInt? (start.minutes + length.minutes)
  return (start, stop)

/-- The numbered days are told by their dates and begin at the midnights of these, and nothing
overflows where the midnights and the interval are computed. -/
structure TellsMidnights (c : Calendar) : Prop where
  midnight : ∀ day : Day, day.number < c.nbOfDays →
    (DateTime.midnight (c.dateOf day)).instant? = some (c.dayStart day)
  dayOf? : ∀ day : Day, day.number < c.nbOfDays → c.dayOf? (c.dateOf day) = some day
  midnight? : ∀ day : Day, day.number < c.nbOfDays →
    c.midnight? day.number = some (c.dayStart day)
  interval? : c.interval? = some c.interval

lemma dayOf?_dateOf (h : day.number < c.nbOfDays) : c.dayOf? (c.dateOf day) = some day := by
  have hday := day.number_lt
  have hsince : (c.dateOf day).daysSince c.originDate = day.number := by
    unfold dateOf Date.addDays Date.daysSince
    dsimp only
    omega
  unfold dayOf?
  dsimp only
  rw [hsince, if_pos (by omega), Day.ofInt?, dif_pos (by omega)]
  congr 1

lemma minutes_dayStart_of_fits (h : Instant.Fits (c.midnight day)) :
    (c.dayStart day).minutes = c.midnight day :=
  Instant.minutes_wrap h.1 h.2

/-- The product never leaves the word, because days are numbered in 16 bits. -/
lemma midnight?_eq_some_iff {n : Nat} (hn : n < 65536) :
    c.midnight? n = some t ↔ t.minutes = c.origin.minutes + n * 1440 := by
  have hsince : Instant.ofInt? (n * 1440) = some ⟨n * 1440, by omega, by omega⟩ :=
    Instant.ofInt?_eq_some_iff.2 rfl
  unfold midnight?
  rw [hsince, Option.bind_eq_bind, Option.bind_some, Instant.ofInt?_eq_some_iff]

lemma interval?_eq_some_iff : c.interval? = some (t, u) ↔
    t.minutes = c.origin.minutes ∧ u.minutes = c.origin.minutes + c.nbOfDays * 1440 := by
  have hdays := c.nbOfDays_lt
  have hlength : Instant.ofInt? (c.nbOfDays * 1440) =
      some ⟨c.nbOfDays * 1440, by omega, by omega⟩ := Instant.ofInt?_eq_some_iff.2 rfl
  have hstart : c.midnight? 0 = some c.origin :=
    (midnight?_eq_some_iff (by decide)).2 (by simp)
  unfold interval?
  simp only [hstart, hlength, Option.bind_eq_bind, Option.bind_some, Option.bind_eq_some_iff,
    Instant.ofInt?_eq_some_iff]
  constructor
  · rintro ⟨stop, hstop, heq⟩
    cases heq
    exact ⟨rfl, hstop⟩
  · rintro ⟨ht, hu⟩
    exact ⟨u, hu, congrArg some (Prod.ext (Instant.ext ht.symm) rfl)⟩

lemma minutes_origin (hge : -2147483648 ≤ c.originDate.dayNumber * 1440)
    (hlt : c.originDate.dayNumber * 1440 < 2147483648) :
    c.origin.minutes = c.originDate.dayNumber * 1440 := by
  unfold origin Instant.ofInt?
  rw [dif_pos ⟨hge, hlt⟩]
  rfl

/-- The last numbered day is the one after the last date. -/
lemma originDate_add_nbOfDays (c : Calendar) :
    c.originDate.dayNumber + c.nbOfDays = c.lastDate.dayNumber + 2 := by
  have hordered : c.firstDate.dayNumber ≤ c.lastDate.dayNumber := c.ordered
  unfold originDate nbOfDays Date.addDays Date.daysSince lookbackDays
  dsimp only
  omega

lemma tellsMidnights_of_fits (hge : -2147483648 ≤ c.originDate.dayNumber * 1440)
    (hlt : (c.lastDate.dayNumber + 2) * 1440 < 2147483648) : c.TellsMidnights := by
  have hend := c.originDate_add_nbOfDays
  have horigin : c.origin.minutes = c.originDate.dayNumber * 1440 :=
    minutes_origin hge (by omega)
  have hends : c.EndsInRange := by
    unfold EndsInRange
    omega
  have hstart : ∀ day : Day, day.number < c.nbOfDays →
      (c.dayStart day).minutes = c.midnight day := by
    intro day hday
    refine minutes_dayStart_of_fits ?_
    unfold Instant.Fits midnight
    omega
  refine ⟨fun day hday => ?_, fun day => dayOf?_dateOf, fun day hday => ?_, ?_⟩
  · rw [DateTime.instant?_midnight_eq_some_iff, hstart day hday]
    unfold midnight dateOf Date.addDays
    dsimp only
    omega
  · exact (midnight?_eq_some_iff day.number_lt).2 (hstart day hday)
  · exact interval?_eq_some_iff.2
      ⟨congrArg Instant.minutes interval_fst, hends.minutes_interval_snd⟩

lemma TellsMidnights.minutes_origin (h : c.TellsMidnights) :
    c.origin.minutes = c.originDate.dayNumber * 1440 := by
  have hpos : 0 < c.nbOfDays := by
    unfold nbOfDays
    omega
  have hstart : c.dayStart ⟨0, by decide⟩ = c.origin := interval_fst
  have hdate : c.dateOf ⟨0, by decide⟩ = c.originDate := by
    unfold dateOf Date.addDays
    simp
  have hmidnight := h.midnight ⟨0, by decide⟩ hpos
  rw [hstart, hdate] at hmidnight
  exact DateTime.instant?_midnight_eq_some_iff.1 hmidnight

lemma tellsMidnights_iff : c.TellsMidnights ↔
    -2147483648 ≤ c.originDate.dayNumber * 1440 ∧
      (c.lastDate.dayNumber + 2) * 1440 < 2147483648 := by
  constructor
  · intro h
    have hend := c.originDate_add_nbOfDays
    have horigin := h.minutes_origin
    have hge := c.origin.minutes_ge
    have hlt := c.interval.2.minutes_lt
    have hstop : c.interval.2.minutes = c.origin.minutes + c.nbOfDays * 1440 :=
      (interval?_eq_some_iff.1 h.interval?).2
    omega
  · rintro ⟨hge, hlt⟩
    exact tellsMidnights_of_fits hge hlt

lemma dates_of_ofDates (h : ofDates first last = .ok c) :
    c.firstDate = first ∧ c.lastDate = last := by
  unfold ofDates at h
  split at h
  · split at h
    · cases h
      exact ⟨rfl, rfl⟩
    · cases h
  · cases h

/-- A calendar of two dates tells midnights exactly when it begins five days before the first date at
an instant, and ends two days after the last date at an instant. -/
theorem tellsMidnights_iff_of_ofDates (h : ofDates first last = .ok c) :
    c.TellsMidnights ↔ -2147483648 ≤ (first.dayNumber - lookbackDays) * 1440 ∧
      (last.dayNumber + 2) * 1440 < 2147483648 := by
  obtain ⟨rfl, rfl⟩ := dates_of_ofDates h
  exact tellsMidnights_iff

end Calendar

namespace EndOfInstants

/-- From 6053-01-15 to 6053-01-21. -/
def lastWeek : Calendar := ⟨⟨1491300⟩, ⟨1491306⟩, by decide, by decide⟩

/-- From 6053-01-15 to 6053-01-22. -/
def dayTooLong : Calendar := ⟨⟨1491300⟩, ⟨1491307⟩, by decide, by decide⟩

/-- From 7000-01-01 to 7000-01-05. -/
def farAhead : Calendar := ⟨⟨1837170⟩, ⟨1837174⟩, by decide, by decide⟩

/-- The last calendar that begins on its day and tells midnights. -/
theorem tellsMidnights_lastWeek :
    Calendar.ofDates ⟨1491300⟩ ⟨1491306⟩ = .ok lastWeek ∧ lastWeek.TellsMidnights := by
  have hcalendar : Calendar.ofDates ⟨1491300⟩ ⟨1491306⟩ = .ok lastWeek := rfl
  exact ⟨hcalendar, (Calendar.tellsMidnights_iff_of_ofDates hcalendar).2 (by decide)⟩

/-- One day later, the interval ends after the last instant; far ahead, the days are told as if they
were those after 1970-01-01. -/
theorem not_tellsMidnights_farAhead :
    Calendar.ofDates ⟨1491300⟩ ⟨1491307⟩ = .ok dayTooLong ∧ dayTooLong.interval? = none ∧
      ¬dayTooLong.TellsMidnights ∧ Calendar.ofDates ⟨1837170⟩ ⟨1837174⟩ = .ok farAhead ∧
        farAhead.dayStart farAhead.firstDay = .clamp 7200 ∧
          (DateTime.midnight (farAhead.dateOf farAhead.firstDay)).instant? = none ∧
            ¬farAhead.TellsMidnights := by
  refine ⟨rfl, by decide, fun h => ?_, rfl, by decide, by decide, fun h => ?_⟩
  · exact absurd (Calendar.tellsMidnights_iff.1 h).2 (by decide)
  · exact absurd (Calendar.tellsMidnights_iff.1 h).2 (by decide)

end EndOfInstants

end JourneyPlanner
