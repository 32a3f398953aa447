import JourneyPlanner.Proofs.Network.Coherence
import JourneyPlanner.Search.Feasible

/-!
# Trips that follow each other

A route is closed when the times of its transports, counted from midnight, are in order at
every event. That keeps the trips of one day in order, and the trips of different days as long
as no transport is more than a day behind another one. A transport that falls further behind
is overtaken by a trip of a later day.
-/

namespace JourneyPlanner

namespace Timetable

/-- The events that a trip meets, in order. -/
def eventsOf (tt : Timetable) (trip : Trip) : List (Nat × StopEvent) :=
  StopEvent.all (tt.stops (tt.routeOf trip.transport)).size

/-- A trip that meets some event before another one meets no event after it. -/
def StaysAhead (tt : Timetable) (trip other : Trip) : Prop :=
  (∃ e ∈ tt.eventsOf trip, tt.eventMinutes trip e.1 e.2 < tt.eventMinutes other e.1 e.2) →
    ∀ e ∈ tt.eventsOf trip, tt.eventMinutes trip e.1 e.2 ≤ tt.eventMinutes other e.1 e.2

/-- Trips of a route never overtake each other, on whatever days they leave. -/
def NeverOvertakes (tt : Timetable) : Prop := ∀ trip other : Trip,
  tt.isActive trip.transport trip.day = true → tt.isActive other.transport other.day = true →
    tt.routeOf trip.transport = tt.routeOf other.transport → tt.StaysAhead trip other

/-- The transport that is listed first does not leave on a later day, or the two transports are
nowhere more than a day apart. -/
inductive InStep (tt : Timetable) (trip other : Trip) : Prop
  | before : trip.transport ≤ other.transport → trip.day ≤ other.day → InStep tt trip other
  | after : other.transport ≤ trip.transport → other.day ≤ trip.day → InStep tt trip other
  | close : (∀ e ∈ tt.eventsOf trip,
      (tt.eventTime trip.transport e.1 e.2).minutes ≤
        (tt.eventTime other.transport e.1 e.2).minutes + 1440 ∧
      (tt.eventTime other.transport e.1 e.2).minutes ≤
        (tt.eventTime trip.transport e.1 e.2).minutes + 1440) → InStep tt trip other

variable {tt : Timetable}

/-- The transports of a route are listed in the order in which they meet each of its events. -/
lemma WellFormed.eventTime_le (hw : tt.WellFormed) {r : RouteIndex} {t u : TransportIndex}
    (ht : (tt.transportsOf r).contains t = true) (hu : (tt.transportsOf r).contains u = true)
    (htu : t ≤ u) {position : Nat} {event : StopEvent}
    (hevent : (position, event) ∈ StopEvent.all (tt.stops r).size) :
    tt.eventTime t position event ≤ tt.eventTime u position event := by
  have hle : t.val ≤ u.val := htu
  have hroute := hw.route_of ht
  have hroute' := hw.route_of hu
  rw [IndexRange.contains_iff] at ht hu
  have hrow := (StopEvent.row_lt hevent).1
  change (tt.cell _ _ _).minutes ≤ (tt.cell _ _ _).minutes
  rw [hroute, hroute']
  exact hw.across hrow (by omega) (by omega)

/-- Two trips of a route that are in step do not overtake each other. -/
theorem IsBuilt.staysAhead (hbuilt : tt.IsBuilt) {trip other : Trip}
    (htrip : tt.isActive trip.transport trip.day = true)
    (hother : tt.isActive other.transport other.day = true)
    (hroute : tt.routeOf trip.transport = tt.routeOf other.transport)
    (hstep : tt.InStep trip other) : tt.StaysAhead trip other := by
  have hw := hbuilt.wellFormed
  have hlisted := hw.active_listed htrip
  have hlisted' : (tt.transportsOf (tt.routeOf trip.transport)).contains other.transport = true := by
    rw [hroute]
    exact hw.active_listed hother
  rintro ⟨f, hf, hlt⟩ e he
  change trip.day.number * 1440 + _ < other.day.number * 1440 + _ at hlt
  change trip.day.number * 1440 + _ ≤ other.day.number * 1440 + _
  have hforth : ∀ e ∈ tt.eventsOf trip, trip.transport ≤ other.transport →
      (tt.eventTime trip.transport e.1 e.2).minutes ≤
        (tt.eventTime other.transport e.1 e.2).minutes :=
    fun e he hle => hw.eventTime_le hlisted hlisted' hle he
  have hback : ∀ e ∈ tt.eventsOf trip, other.transport ≤ trip.transport →
      (tt.eventTime other.transport e.1 e.2).minutes ≤
        (tt.eventTime trip.transport e.1 e.2).minutes :=
    fun e he hle => hw.eventTime_le hlisted' hlisted hle he
  cases hstep with
  | before hle hday =>
    have hday : trip.day.number ≤ other.day.number := hday
    have htime := hforth e he hle
    omega
  | after hle hday =>
    -- the other trip meets every event first, so the premise fails
    have hday : other.day.number ≤ trip.day.number := hday
    have htime := hback f hf hle
    omega
  | close hclose =>
    have hnear := hclose e he
    have hnear' := hclose f hf
    rcases Nat.lt_trichotomy trip.day.number other.day.number with hday | hday | hday
    · omega
    · rcases Nat.le_total trip.transport.val other.transport.val with hle | hle
      · have htime := hforth e he hle
        omega
      · have htime := hback f hf hle
        omega
    · omega

end Timetable

namespace NightLine

def firstDay : Day := ⟨6, by decide⟩

def nextDay : Day := ⟨7, by decide⟩

/-- On one day, the second vehicle leaves after the first one and arrives after it. -/
theorem staysAhead_second :
    timetable.eventMinutes ⟨⟨0⟩, firstDay⟩ 0 .departure <
        timetable.eventMinutes ⟨⟨1⟩, firstDay⟩ 0 .departure ∧
      timetable.eventMinutes ⟨⟨0⟩, firstDay⟩ 1 .arrival ≤
        timetable.eventMinutes ⟨⟨1⟩, firstDay⟩ 1 .arrival := by
  have hahead : timetable.StaysAhead ⟨⟨0⟩, firstDay⟩ ⟨⟨1⟩, firstDay⟩ :=
    Timetable.IsBuilt.staysAhead isBuilt (by cbv) (by cbv) (by cbv)
      (.before (by decide) (by decide))
  have hearlier : timetable.eventMinutes ⟨⟨0⟩, firstDay⟩ 0 .departure <
      timetable.eventMinutes ⟨⟨1⟩, firstDay⟩ 0 .departure := by decide +kernel
  exact ⟨hearlier, hahead ⟨(0, .departure), by decide +kernel, hearlier⟩ (1, .arrival)
    (by decide +kernel)⟩

/-- The second vehicle is overtaken by the first vehicle of the next day. -/
theorem overtakes_second : timetable.IsBuilt ∧ ¬timetable.NeverOvertakes := by
  refine ⟨isBuilt, fun h => ?_⟩
  have hahead := h ⟨⟨1⟩, firstDay⟩ ⟨⟨0⟩, nextDay⟩ (by cbv) (by cbv) (by cbv)
    ⟨(0, .departure), by decide +kernel, by decide +kernel⟩ (1, .arrival) (by decide +kernel)
  exact absurd hahead (by decide +kernel)

end NightLine

end JourneyPlanner
