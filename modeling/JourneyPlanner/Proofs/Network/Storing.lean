import JourneyPlanner.Proofs.Network.Coherence
import JourneyPlanner.Proofs.Time.Midnights

/-!
# How a transport is stored

A transport is kept with its times some days earlier and its service days as many days later.
What the timetable answers of it is told by the times and the days that were given.
-/

namespace JourneyPlanner

namespace NewTransport

lemma getElem?_withoutFirstArrival (ts : List StopTime) (p : Nat) :
    (withoutFirstArrival ts)[p]? =
      ts[p]?.map fun s => if p = 0 then { s with arrival := s.departure } else s := by
  cases ts with
  | nil => rfl
  | cons s rest =>
    cases p with
    | zero => rfl
    | succ p => simp [withoutFirstArrival]

lemma getElem?_withoutLastDeparture (ts : List StopTime) (p : Nat) :
    (withoutLastDeparture ts)[p]? =
      ts[p]?.map fun s => if p + 1 = ts.length then { s with departure := s.arrival } else s := by
  fun_induction withoutLastDeparture ts generalizing p with
  | case1 => rfl
  | case2 s => cases p <;> simp
  | case3 s rest hrest ih =>
    have hne : rest ≠ [] := hrest
    cases p with
    | zero => simp [hne]
    | succ p => simp [ih]

variable {t : NewTransport} {p : Nat} {s : StopTime} {event : StopEvent}

lemma eventAt_schedule (hs : t.stopTimes[p]? = some s)
    (hevent : (p, event) ∈ StopEvent.all t.stopTimes.length) :
    eventAt t.schedule (p, event) = s.time event := by
  obtain ⟨_, harrival, hdeparture⟩ := StopEvent.mem_all_iff.1 hevent
  have hget : t.schedule[p]? = some
      (let u := if p = 0 then { s with arrival := s.departure } else s
       if p + 1 = t.stopTimes.length then { u with departure := u.arrival } else u) := by
    rw [schedule, getElem?_withoutLastDeparture, getElem?_withoutFirstArrival, hs,
      length_withoutFirstArrival]
    rfl
  rw [eventAt, hget, Option.map_some, Option.getD_some]
  cases event with
  | arrival =>
    rw [if_neg (harrival rfl)]
    split <;> rfl
  | departure =>
    rw [if_neg (hdeparture rfl)]
    split <;> rfl

lemma getElem?_schedule_zero (hs : t.stopTimes[0]? = some s) :
    t.schedule[0]? = some ⟨s.departure, s.departure⟩ := by
  rw [schedule, getElem?_withoutLastDeparture, getElem?_withoutFirstArrival, hs]
  simp only [if_true, Option.map_some, ite_self]

lemma dayOffset_schedule (hs : t.stopTimes[0]? = some s) :
    dayOffset t.schedule = s.departure.days := by
  rw [dayOffset, List.head?_eq_getElem?, getElem?_schedule_zero hs]
  rfl

/-- No event of a transport is before the midnight of the day on which it leaves its first stop. -/
lemma dayOffset_le (hdec : decrease? t.schedule = none) {u : StopTime}
    (hu : t.schedule[p]? = some u) :
    dayOffset t.schedule * minutesPerDay ≤ u.arrival.minutes ∧ u.arrival ≤ u.departure := by
  refine ⟨?_, (le_of_decrease?_eq_none hdec hu).1⟩
  induction p generalizing u with
  | zero =>
    have hlen : 0 < t.stopTimes.length := by
      rw [← length_schedule]
      exact (List.getElem?_eq_some_iff.1 hu).1
    have hs := List.getElem?_eq_getElem hlen
    cases hu.symm.trans (getElem?_schedule_zero hs)
    rw [dayOffset_schedule hs]
    exact Nat.div_mul_le_self _ _
  | succ p ih =>
    have hp : p < t.schedule.length := Nat.lt_of_succ_lt (List.getElem?_eq_some_iff.1 hu).1
    have hlast := List.getElem?_eq_getElem hp
    obtain ⟨hstay, hride⟩ := le_of_decrease?_eq_none hdec hlast
    exact Nat.le_trans (ih hlast) (Nat.le_trans hstay (hride u hu))

/-- Counting the times of a transport from a later day loses nothing. -/
lemma earlierByDays_add (hdec : decrease? t.schedule = none) {u : StopTime}
    (hu : u ∈ t.schedule) (event : StopEvent) :
    ((u.time event).earlierByDays (dayOffset t.schedule)).minutes +
      dayOffset t.schedule * minutesPerDay = (u.time event).minutes := by
  obtain ⟨p, hp⟩ := List.getElem?_of_mem hu
  obtain ⟨hoffset, hstay⟩ := dayOffset_le hdec hp
  refine Nat.sub_add_cancel ?_
  cases event with
  | arrival => exact hoffset
  | departure => exact Nat.le_trans hoffset hstay

/-- The times that are kept are the times that were given, counted from a later day. -/
lemma eventAt_normalized (hdec : decrease? t.schedule = none) (hs : t.stopTimes[p]? = some s)
    (hevent : (p, event) ∈ StopEvent.all t.stopTimes.length) :
    (eventAt t.normalized (p, event)).minutes + dayOffset t.schedule * minutesPerDay =
      (s.time event).minutes := by
  have hp : p < t.schedule.length := by
    rw [length_schedule]
    exact (List.getElem?_eq_some_iff.1 hs).1
  have hu := List.getElem?_eq_getElem hp
  have hgiven := eventAt_schedule hs hevent
  rw [eventAt, hu] at hgiven
  rw [eventAt, normalized, List.getElem?_map, hu, ← hgiven]
  cases event with
  | arrival => exact earlierByDays_add hdec (List.getElem_mem hp) .arrival
  | departure => exact earlierByDays_add hdec (List.getElem_mem hp) .departure

end NewTransport

/-- What a timetable answers of a transport is what was given for it, `n` days later. -/
structure Timetable.Stores (tt : Timetable) (t : TransportIndex) (new : NewTransport)
    (given : ServiceDays) (n : Nat) : Prop where
  isActive_iff : ∀ d : Day, tt.isActive t d = true ↔
    d.number < tt.calendar.nbOfDays ∧ ∃ e : Day, e.number + n = d.number ∧ given.contains e = true
  eventInstant_eq : ∀ d e : Day, e.number + n = d.number → ∀ position s event,
    new.stopTimes[position]? = some s → (position, event) ∈ StopEvent.all new.stopTimes.length →
      tt.eventInstant t d position event = tt.calendar.instantOf e (s.time event)
  serviceDate?_eq : ∀ d e : Day, e.number + n = d.number →
    tt.serviceDate? t d = some (tt.calendar.dateOf e)

lemma Calendar.instantOf_later {c : Calendar} {d e : Day} {t u : ServiceTime} {n : Nat}
    (hd : e.number + n = d.number) (ht : t.minutes + n * minutesPerDay = u.minutes) :
    c.instantOf d t = c.instantOf e u := by
  rw [instantOf, instantOf, dayStart, dayStart, Instant.wrap_add, Instant.wrap_add]
  have ht : t.minutes + n * 1440 = u.minutes := ht
  have hsum : c.origin.minutes + d.number * 1440 + t.minutes =
      c.origin.minutes + e.number * 1440 + u.minutes := by omega
  rw [hsum]

lemma Day.shift?_neg {d e : Day} {n : Nat} (h : e.number + n = d.number) :
    d.shift? (-n) = some e := by
  have heq : (d.number : Int) + -n = e.number := by omega
  have hlt := e.number_lt
  rw [shift?, ofInt?, heq, dif_pos ⟨Int.natCast_nonneg _, by omega⟩]
  rfl

namespace Builder

variable {b : Builder} {i : TransportIndex} {x : Transport} {days : ServiceDays}
  {times : List StopTime}

/-- The times of a transport stand in the table of its route, or wait in the open route. -/
inductive Tabulates (b : Builder) (i : TransportIndex) (x : Transport) (times : List StopTime) :
    Prop
  | waiting {o : OpenRoute} : b.openRoute = some o → x.route = o.index →
      o.stops.size = times.length → o.firstTransport.val ≤ i.val →
      o.schedules[i.val - o.firstTransport.val]? = some times → Tabulates b i x times
  | placed {r : Route} : b.routes[x.route.val]? = some r → r.stops.size = times.length →
      (∀ e ∈ StopEvent.all r.stops.size,
        r.times.get? (e.2.row e.1) (i.val - r.transports.start.val) =
          some (NewTransport.eventAt times e)) →
      Tabulates b i x times

/-- A builder has stored a transport. -/
structure Holds (b : Builder) (i : TransportIndex) (x : Transport) (days : ServiceDays)
    (times : List StopTime) : Prop where
  transport : b.transports[i.val]? = some x
  days : b.serviceDays.get? x.serviceDays = some days
  times : b.Tabulates i x times

lemma Holds.intern (h : b.Holds i x days times) (others : ServiceDays) :
    (b.intern others).Holds i x days times := by
  refine ⟨h.transport, ServiceDaysStore.get?_intern_of_get? h.days others, ?_⟩
  cases h.times with
  | waiting hopen hroute hsize hfirst hget => exact .waiting hopen hroute hsize hfirst hget
  | placed hroute hsize htimes => exact .placed hroute hsize htimes

lemma holds_extend (hsound : b.Sound) {r : RouteIndex} {t : NewTransport} {o : OpenRoute}
    (hadmits : b.Admits r t o days) :
    (b.extend r t o days).Holds ⟨b.transports.size⟩ (b.transport r t days) days t.normalized := by
  have hlast := (hsound.opened o hadmits.opened).last
  refine ⟨Array.getElem?_push_size, ServiceDaysStore.get?_intern _ _, ?_⟩
  refine .waiting rfl hadmits.index_eq.symm ?_ ?_ ?_
  · rw [NewTransport.length_normalized, hadmits.length_eq]
  · change o.firstTransport.val ≤ b.transports.size
    omega
  · have hsize : b.transports.size - o.firstTransport.val = o.schedules.size := by omega
    change (o.schedules.push t.normalized)[b.transports.size - o.firstTransport.val]? = _
    rw [hsize]
    exact Array.getElem?_push_size

lemma Holds.extend (h : b.Holds i x days times) {r : RouteIndex} {t : NewTransport}
    {o : OpenRoute} {others : ServiceDays} (hadmits : b.Admits r t o others) :
    (b.extend r t o others).Holds i x days times := by
  have hkept := h.intern others
  refine ⟨getElem?_push_of_getElem? _ h.transport, hkept.days, ?_⟩
  cases h.times with
  | waiting hopen hroute hsize hfirst hget =>
    cases hopen.symm.trans hadmits.opened
    exact .waiting rfl hroute hsize hfirst (getElem?_push_of_getElem? _ hget)
  | placed hroute hsize htimes => exact .placed hroute hsize htimes

lemma Holds.closeRoute (h : b.Holds i x days times) (hsound : b.Sound) {o : OpenRoute}
    (hopen : b.openRoute = some o) {r : Route} (hcloses : o.Closes r) :
    Holds { b with routes := b.routes.push r, openRoute := none } i x days times := by
  have hfits := hsound.opened o hopen
  refine ⟨h.transport, h.days, ?_⟩
  cases h.times with
  | waiting hopen' hroute hsize hfirst hget =>
    -- its schedule becomes a column of the table of the route
    cases hopen'.symm.trans hopen
    refine .placed (r := r) ?_ ?_ ?_
    · rw [hroute, hfits.index_eq]
      exact Array.getElem?_push_size
    · rw [hcloses.stops_eq, hsize]
    · intro e he
      obtain ⟨hc, rfl⟩ := Array.getElem?_eq_some_iff.1 hget
      rw [hcloses.stops_eq] at he
      obtain ⟨hrow, hall⟩ := StopEvent.row_lt he
      obtain ⟨e', he', htime⟩ := hcloses.get?_times hfits.two_le hrow hc
      cases hall.symm.trans he'
      rw [hcloses.transports_eq]
      exact htime
  | placed hroute hsize htimes => exact .placed (getElem?_push_of_getElem? _ hroute) hsize htimes

theorem Holds.step {b' : Builder} (h : b.Holds i x days times) (hsound : b.Sound)
    (hstep : b.Step b') : b'.Holds i x days times := by
  have hsame : ∀ {b' : Builder}, b'.transports = b.transports → b'.serviceDays = b.serviceDays →
      b'.openRoute = b.openRoute → b'.routes = b.routes → b'.Holds i x days times := by
    intro b' htransports hdays hopened hroutes
    refine ⟨by rw [htransports, h.transport], by rw [hdays, h.days], ?_⟩
    cases h.times with
    | waiting hopen hroute hsize hfirst hget =>
      exact .waiting (hopened.trans hopen) hroute hsize hfirst hget
    | placed hroute hsize htimes => exact .placed (by rw [hroutes, hroute]) hsize htimes
  cases hstep with
  | stay => exact h
  | location _ => exact hsame rfl rfl rfl rfl
  | days _ => exact h.intern _
  | opened hopens =>
    refine ⟨h.transport, h.days, ?_⟩
    cases h.times with
    | waiting hopen _ _ _ _ =>
      rw [hopens.closed] at hopen
      cases hopen
    | placed hroute hsize htimes => exact .placed hroute hsize htimes
  | late _ _ => exact h.intern _
  | extended hadmits _ => exact h.extend hadmits
  | spoiled _ _ => exact hsame rfl rfl rfl rfl
  | closed hopen hclose => exact h.closeRoute hsound hopen (OpenRoute.closes_of_close hclose)
  | footpath _ _ => exact hsame rfl rfl rfl rfl
  | timedFootpath _ _ => exact hsame rfl rfl rfl rfl

/-- What is stored stays, whatever else is added. -/
lemma Holds.run (h : b.Holds i x days times) (hsound : b.Sound) (calls : List Call) :
    (b.run calls).2.Holds i x days times :=
  (run_keeps (P := fun b => b.Sound ∧ b.Holds i x days times)
    (fun _ _ hstep hb => ⟨hb.1.step hstep, hb.2.step hb.1 hstep⟩) ⟨hsound, h⟩ calls).2

namespace Holds

lemma daysOf?_freeze (h : b.Holds i x days times) : b.freeze.daysOf? i = some days := by
  have hx : b.freeze.transport? i = some x := h.transport
  rw [Timetable.daysOf?, hx]
  exact h.days

lemma eventTime_freeze (h : b.Holds i x days times) (hclosed : b.openRoute = none)
    {position : Nat} {event : StopEvent} (hevent : (position, event) ∈ StopEvent.all times.length) :
    b.freeze.eventTime i position event = NewTransport.eventAt times (position, event) := by
  have hx : b.freeze.transport? i = some x := h.transport
  have hroute : b.freeze.routeOf i = x.route := by
    rw [Timetable.routeOf, hx]
    rfl
  cases h.times with
  | waiting hopen _ _ _ _ =>
    rw [hclosed] at hopen
    cases hopen
  | placed hget hsize htimes =>
    rw [← hsize] at hevent
    have htime := htimes _ hevent
    change b.freeze.cell (b.freeze.routeOf i) _ _ = _
    rw [hroute, transportsOf_freeze hget, cell_freeze hget, htime]
    rfl

lemma stores_freeze {b₀ : Builder} {r : RouteIndex} {t : NewTransport} {o : OpenRoute}
    {given : ServiceDays} {s : StopTime} (hadmits : b₀.Admits r t o days)
    (hdays : days = given.shift (NewTransport.dayOffset t.schedule))
    (hs : t.stopTimes[0]? = some s) (hsound : b.Sound) (hclosed : b.openRoute = none)
    (h : b.Holds i (b₀.transport r t days) days t.normalized) :
    b.freeze.Stores i t given s.departure.days := by
  have hoffset := NewTransport.dayOffset_schedule hs
  have hcapacity := hsound.serviceDays _ _ h.days
  rw [← hoffset]
  constructor
  case isActive_iff =>
    intro d
    rw [Timetable.isActive, h.daysOf?_freeze, Option.map_some, Option.getD_some, hdays,
      ServiceDays.contains_shift]
    rw [hdays, ServiceDays.capacity_shift] at hcapacity
    rw [hcapacity]
    refine and_congr_right fun _ => ⟨?_, ?_⟩
    · rintro ⟨hle, hcontains⟩
      exact ⟨⟨_, Nat.lt_of_le_of_lt (Nat.sub_le _ _) d.number_lt⟩, Nat.sub_add_cancel hle,
        hcontains⟩
    · rintro ⟨e, he, hcontains⟩
      rw [← he, Nat.add_sub_cancel]
      exact ⟨Nat.le_add_left _ _, hcontains⟩
  case eventInstant_eq =>
    intro d e hd position u event hu hevent
    have htime := NewTransport.eventAt_normalized hadmits.rises hu hevent
    rw [← NewTransport.length_normalized] at hevent
    rw [Timetable.eventInstant, h.eventTime_freeze hclosed hevent]
    exact Calendar.instantOf_later hd htime
  case serviceDate?_eq =>
    intro d e hd
    have hx : b.freeze.transport? i = some (b₀.transport r t days) := h.transport
    have hkept : b.freeze.dayOffset i = NewTransport.dayOffset t.schedule := by
      rw [Timetable.dayOffset, hx]
      rfl
    rw [Timetable.serviceDate?, hkept, Day.shift?_neg hd]
    rfl

end Holds

lemma timesAt_eq_map_freeze (hsound : b.Sound) (hlaid : b.Laid) {r : RouteIndex} {position : Nat}
    {event : StopEvent} (hevent : (position, event) ∈ StopEvent.all (b.freeze.stops r).size) :
    b.freeze.timesAt r position event =
      (b.freeze.transportsOf r).toList.map fun t => b.freeze.eventTime t position event := by
  have hlen := rows_full_freeze hlaid hevent
  apply List.ext_getElem
  · rw [hlen, List.length_map, IndexRange.toList, List.length_map, List.length_range]
  · intro c hc hc'
    have hin : (b.freeze.transportsOf r).contains ((b.freeze.transportsOf r).nth c) = true := by
      rw [IndexRange.contains_iff]
      exact ⟨Nat.le_add_right _ _, Nat.add_lt_add_left (hlen ▸ hc) _⟩
    simp only [IndexRange.toList, List.getElem_map, List.getElem_range]
    rw [Timetable.eventTime, routeOf_freeze hsound hin, Timetable.columnTime_eq_cell,
      IndexRange.nth, Nat.add_sub_cancel_left]
    cases hroute : b.routes[r.val]? with
    | none =>
      rw [hlen, size_transportsOf_of_none hroute] at hc
      exact absurd hc (Nat.not_lt_zero _)
    | some route =>
      rw [cell_freeze hroute, ← Grid.getElem?_row, ← timesAt_freeze hroute,
        List.getElem?_eq_getElem hc]
      rfl

lemma addTransport_of_apply {r : RouteIndex} {t : NewTransport} {i : TransportIndex}
    (h : (b.apply (.transport r t)).1 = .ok (.transport i)) : (b.addTransport r t).1 = .ok i := by
  change (b.addTransport r t).1.map Registered.transport = _ at h
  cases hadd : (b.addTransport r t).1 with
  | error e =>
    rw [hadd] at h
    cases h
  | ok j =>
    rw [hadd] at h
    cases h
    rfl

end Builder

/-- Every transport that was accepted runs in the built timetable on the days and at the times
that were given for it, the rows of a route list the times of its transports, and counting
times from a later day never goes below zero. -/
theorem stores_of_build {c : Calendar} {first others : List Call} {r : RouteIndex}
    {new : NewTransport} {t : TransportIndex} {tt : Timetable}
    (haccepted : (((Builder.new c).run first).2.apply (.transport r new)).1 = .ok (.transport t))
    (hbuild : ((Builder.new c).run (first ++ .transport r new :: others)).2.build = .ok tt) :
    (∃ s given, new.stopTimes[0]? = some s ∧
      ((Builder.new c).run first).2.serviceDays.get? new.serviceDays = some given ∧
      tt.Stores t new given s.departure.days) ∧
    (∀ r position event, (position, event) ∈ StopEvent.all (tt.stops r).size →
      tt.timesAt r position event =
        (tt.transportsOf r).toList.map fun t => tt.eventTime t position event) ∧
    ∀ u : NewTransport, NewTransport.decrease? u.schedule = none → ∀ s ∈ u.schedule, ∀ event,
      ((s.time event).earlierByDays (NewTransport.dayOffset u.schedule)).minutes +
        NewTransport.dayOffset u.schedule * minutesPerDay = (s.time event).minutes := by
  obtain ⟨_, hclosed, _, rfl⟩ := Builder.build_eq_ok_iff.1 hbuild
  have hsound := Builder.sound_run (Builder.sound_new c) (first ++ .transport r new :: others)
  have hlaid := Builder.laid_run c (first ++ .transport r new :: others)
  refine ⟨?_, fun r position event => Builder.timesAt_eq_map_freeze hsound hlaid,
    fun u hdec s hs event => NewTransport.earlierByDays_add hdec hs event⟩
  have hbefore := Builder.sound_run (Builder.sound_new c) first
  rw [Builder.run_append, Builder.run_cons] at hclosed hsound ⊢
  -- the builder to which the transport is added
  generalize ((Builder.new c).run first).2 = b at *
  obtain ⟨ht, o, days, hadmits, hspan, hadded⟩ :=
    Builder.addTransport_ok (Builder.addTransport_of_apply haccepted)
  obtain ⟨given, hgiven, hdays⟩ := hadmits.shifted
  have hlen : 0 < new.stopTimes.length := by
    have htwo := (hbefore.opened o hadmits.opened).two_le
    rw [hadmits.length_eq]
    omega
  have happly : (b.apply (.transport r new)).2 = b.extend r new o days := hadded
  rw [happly] at hclosed hsound ⊢
  have hholds := (Builder.holds_extend hbefore hadmits).run (hbefore.extend hadmits hspan) others
  have ht : t = ⟨b.transports.size⟩ := Index.ext ht
  rw [ht]
  exact ⟨_, given, List.getElem?_eq_getElem hlen, hgiven,
    hholds.stores_freeze hadmits hdays (List.getElem?_eq_getElem hlen) hsound hclosed⟩

namespace NightLine

/-- The second vehicle was told from the day before the one on which it leaves. -/
theorem stores_second :
    (((Builder.new calendar).run opening).2.apply (.transport ⟨0⟩ second)).1 =
      .ok (.transport ⟨1⟩) ∧ builder.build = .ok timetable ∧
    ∃ s given, second.stopTimes[0]? = some s ∧
      ((Builder.new calendar).run opening).2.serviceDays.get? second.serviceDays = some given ∧
      timetable.Stores ⟨1⟩ second given s.departure.days := by
  have haccepted : (((Builder.new calendar).run opening).2.apply (.transport ⟨0⟩ second)).1 =
      .ok (.transport ⟨1⟩) := by cbv
  exact ⟨haccepted, build_eq, (stores_of_build haccepted build_eq).1⟩

end NightLine

end JourneyPlanner
