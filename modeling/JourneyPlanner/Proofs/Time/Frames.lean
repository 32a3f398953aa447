import JourneyPlanner.Proofs.Time.Costs
import JourneyPlanner.Proofs.Time.DatesInRange

/-!
# Times told from a base day

A time of a search is told from the midnight of its base day, or not at all. Events are told by the
numbers of the days and everything else by instants, and both tell the same.
-/

namespace JourneyPlanner

namespace RelTime

variable {x : RelTime} {n : Int}

/-- The same time told from a midnight that comes `days` days earlier, when it is near enough. -/
def laterByDays (x : RelTime) (days : Int) : RelTime :=
  match x with
  | infeasible => infeasible
  | finite n _ _ => ofMinutes (n + days * 1440)

lemma laterByDays_of_minutes? (h : x.minutes? = some n) (days : Int) :
    x.laterByDays days = ofMinutes (n + days * 1440) := by
  cases x with
  | infeasible => cases h
  | finite m hgt hlt =>
    cases h
    rfl

lemma ofMinutes_eq_infeasible_iff : ofMinutes n = infeasible ↔ ¬(-32768 < n ∧ n < 32767) := by
  rw [← isFeasible_ofMinutes_iff]
  constructor
  · intro hinfeasible
    rw [hinfeasible]
    exact Bool.false_ne_true
  · exact Direction.eq_infeasible_of_not

end RelTime

namespace Calendar

variable {c : Calendar} {base other day : Day} {time : ServiceTime} {x : RelTime} {t : Instant}
  {n : Int}

/-- The times told from a base day stand for the instants that they are told of: an event is told
like its instant and leads back to it, unless it is too far away, and a time can be told again from
another day. -/
structure FramesInstants (c : Calendar) (base : Day) : Prop where
  eventTime_eq : ∀ (day : Day) (time : ServiceTime), Instant.Fits (c.midnight day + time.minutes) →
    c.eventTime base day time = c.relative base (c.instantOf day time)
  absolute?_eventTime : ∀ (day : Day) (time : ServiceTime),
    Instant.Fits (c.midnight day + time.minutes) → (c.eventTime base day time).isFeasible = true →
      c.absolute? base (c.eventTime base day time) = some (c.instantOf day time)
  infeasible_iff : ∀ (day : Day) (time : ServiceTime),
    Instant.Fits (c.midnight day + time.minutes) → (c.eventTime base day time = .infeasible ↔
      ¬(-32768 < (c.instantOf day time).minutes - (c.dayStart base).minutes ∧
        (c.instantOf day time).minutes - (c.dayStart base).minutes < 32767))
  retold : ∀ (other : Day) (x : RelTime) (n : Int), x.minutes? = some n →
    Instant.Fits (c.midnight base + n) → Instant.Fits (c.midnight other) →
      ∃ t, c.absolute? base x = some t ∧
        c.relative other t = x.laterByDays (base.daysSince other)

lemma minutes_instantOf_of_fits (h : Instant.Fits (c.midnight day + time.minutes)) :
    (c.instantOf day time).minutes = c.midnight day + time.minutes := by
  unfold instantOf dayStart
  rw [Instant.wrap_add]
  exact Instant.minutes_wrap h.1 h.2

/-- Midnights are as far apart as their days are numbered. -/
lemma midnight_sub (c : Calendar) (day base : Day) :
    c.midnight day - c.midnight base = day.daysSince base * 1440 := by
  unfold midnight Day.daysSince
  omega

/-- The minutes of an event since a midnight, by days and by instants. -/
lemma minutes_instantOf_sub (hbase : Instant.Fits (c.midnight base))
    (htime : Instant.Fits (c.midnight day + time.minutes)) :
    (c.instantOf day time).minutes - (c.dayStart base).minutes =
      day.daysSince base * 1440 + time.minutes := by
  rw [minutes_instantOf_of_fits htime, minutes_dayStart_of_fits hbase, ← c.midnight_sub day base]
  omega

lemma relative_instantOf (hbase : Instant.Fits (c.midnight base))
    (htime : Instant.Fits (c.midnight day + time.minutes)) :
    c.relative base (c.instantOf day time) = c.eventTime base day time := by
  rw [relative_eq, minutes_instantOf_sub hbase htime]
  rfl

/-- An instant is told from another day by the days between the two midnights. -/
lemma relative_of_minutes (hother : Instant.Fits (c.midnight other))
    (ht : t.minutes = c.midnight base + n) :
    c.relative other t = .ofMinutes (n + base.daysSince other * 1440) := by
  rw [relative_eq, minutes_dayStart_of_fits hother, ht, ← c.midnight_sub base other]
  congr 1
  omega

/-- Times told from a day with a midnight among the instants stand for instants. -/
theorem framesInstants_of_fits (c : Calendar) (base : Day)
    (hbase : Instant.Fits (c.midnight base)) : c.FramesInstants base where
  eventTime_eq := fun _ _ htime => (relative_instantOf hbase htime).symm
  absolute?_eventTime := fun _ _ _ hfeasible => absolute?_eventTime hfeasible
  infeasible_iff := by
    intro day time htime
    rw [minutes_instantOf_sub hbase htime]
    exact RelTime.ofMinutes_eq_infeasible_iff
  retold := by
    intro other x n hx hfits hother
    obtain ⟨t, ht, hminutes⟩ := minutes_absolute? hx hfits.1 hfits.2
    refine ⟨t, ht, ?_⟩
    rw [relative_of_minutes hother hminutes, RelTime.laterByDays_of_minutes? hx]

end Calendar

namespace TwoMonths

/-- From 1969-12-01 to 1970-02-01. -/
def calendar : Calendar := ⟨⟨-31⟩, ⟨31⟩, by decide, by decide⟩

/-- Times told from the first day. -/
theorem framesInstants_firstDay :
    Instant.Fits (calendar.midnight calendar.firstDay) ∧
      calendar.FramesInstants calendar.firstDay :=
  ⟨by decide, Calendar.framesInstants_of_fits calendar calendar.firstDay (by decide)⟩

/-- 18:07 on the day 22 days later is 32767 minutes after the midnight of the first day, a minute too
late to be told. -/
example : (calendar.eventTime calendar.firstDay ⟨27, by decide⟩ (.ofNat 1086)).minutes? =
      some 32766 ∧
    calendar.eventTime calendar.firstDay ⟨27, by decide⟩ (.ofNat 1087) = .infeasible := by
  decide

end TwoMonths

end JourneyPlanner
