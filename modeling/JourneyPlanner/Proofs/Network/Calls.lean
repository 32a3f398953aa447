import JourneyPlanner.Network.Construction
import JourneyPlanner.Proofs.Network.Schedules

/-!
# What a call does

A call to a builder leaves it as it is, or adds one thing to it. `Step` tells all that can
happen, with what the call has looked at; what every construction keeps is proved by cases on
it.
-/

namespace JourneyPlanner

namespace NewTransport

/-- The times of a transport, counted from the day on which it leaves its first stop. -/
def normalized (t : NewTransport) : List StopTime :=
  t.schedule.map (·.earlierByDays (dayOffset t.schedule))

lemma length_normalized (t : NewTransport) : t.normalized.length = t.stopTimes.length := by
  rw [normalized, List.length_map, length_schedule]

end NewTransport

namespace Builder

variable {b : Builder}

/-- What is known of a route that was opened. -/
structure Opens (b : Builder) (o : OpenRoute) : Prop where
  closed : b.openRoute = none
  two_le : 2 ≤ o.stops.size
  known : ∀ stop ∈ o.stops, stop.location.val < b.locations.size
  index_eq : o.index.val = b.routes.size
  first_eq : o.firstTransport.val = b.transports.size
  schedules_eq : o.schedules = #[]
  classes_eq : ∃ given, Sections.ofList? (o.stops.size - 1) given = some o.classes

/-- What is known of a transport that fits the open route. -/
structure Admits (b : Builder) (r : RouteIndex) (t : NewTransport) (o : OpenRoute)
    (days : ServiceDays) : Prop where
  opened : b.openRoute = some o
  index_eq : o.index = r
  length_eq : t.stopTimes.length = o.stops.size
  rises : NewTransport.decrease? t.schedule = none
  shifted : ∃ given, b.serviceDays.get? t.serviceDays = some given ∧
    days = given.shift (NewTransport.dayOffset t.schedule)
  runs : days.isEmpty = false
  lines_fit : t.lines.length ≤ 1 ∨ t.lines.length = o.stops.size - 1

def intern (b : Builder) (days : ServiceDays) : Builder :=
  { b with serviceDays := (b.serviceDays.intern days).2 }

/-- What is kept of a transport that runs on some days. -/
def transport (b : Builder) (r : RouteIndex) (t : NewTransport) (days : ServiceDays) : Transport :=
  { name := t.name
    route := r
    serviceDays := (b.serviceDays.intern days).1
    dayOffset := NewTransport.dayOffset t.schedule
    lines := t.lines }

/-- A transport that runs on some days is added to the open route. -/
def extend (b : Builder) (r : RouteIndex) (t : NewTransport) (o : OpenRoute) (days : ServiceDays) :
    Builder :=
  { b.intern days with
    transports := b.transports.push (b.transport r t days)
    openRoute := some { o with schedules := o.schedules.push t.normalized } }

lemma checkLocation_ok {l : LocationIndex} {u : Unit} (h : b.checkLocation l = .ok u) :
    l.val < b.locations.size := by
  unfold checkLocation at h
  split at h
  · assumption
  · cases h

lemma forM_checkLocation_ok {stops : List RouteStop} {u : PUnit}
    (h : stops.forM (fun s => b.checkLocation s.location) = .ok u) :
    ∀ s ∈ stops, s.location.val < b.locations.size := by
  induction stops with
  | nil => exact fun s hs => absurd hs List.not_mem_nil
  | cons s rest ih =>
    change (b.checkLocation s.location >>= fun _ =>
      rest.forM fun s => b.checkLocation s.location) = .ok u at h
    cases hs : b.checkLocation s.location with
    | error e =>
      rw [hs] at h
      cases h
    | ok v =>
      rw [hs] at h
      intro x hx
      rcases List.mem_cons.1 hx with rfl | hx
      · exact checkLocation_ok hs
      · exact ih h x hx

lemma checkEnds_ok {source target : LocationIndex} {u : Unit}
    (h : (do b.checkLocation source; b.checkLocation target) = .ok u) :
    source.val < b.locations.size ∧ target.val < b.locations.size := by
  cases hs : b.checkLocation source with
  | error e =>
    rw [hs] at h
    cases h
  | ok v =>
    rw [hs] at h
    exact ⟨checkLocation_ok hs, checkLocation_ok h⟩

/-- A route that can be opened has what was given for it. -/
lemma newRoute_ok {stops : List RouteStop} {classes : List ServiceClass} {bikes : List Bool}
    {o : OpenRoute} {permissions : Sections Bool}
    (h : b.newRoute stops classes bikes = .ok (o, permissions)) :
    b.Opens o ∧ o.stops = stops.toArray ∧
      Sections.ofList? (stops.length - 1) classes = some o.classes ∧
      Sections.ofList? (stops.length - 1) bikes = some permissions := by
  unfold newRoute at h
  cases hopen : b.openRoute with
  | some r =>
    rw [hopen] at h
    cases h
  | none =>
    rw [hopen] at h
    by_cases hlen : stops.length < 2
    · simp only [hlen, if_true] at h
      cases h
    · simp only [hlen, if_false] at h
      cases hknown : stops.forM (fun s => b.checkLocation s.location) with
      | error e =>
        simp only [hknown] at h
        cases h
      | ok u =>
        simp only [hknown] at h
        cases hclasses : Sections.ofList? (stops.length - 1) classes with
        | none =>
          simp only [hclasses] at h
          cases h
        | some cs =>
          cases hbikes : Sections.ofList? (stops.length - 1) bikes with
          | none =>
            simp only [hclasses, hbikes] at h
            cases h
          | some bs =>
            simp only [hclasses, hbikes] at h
            cases h
            have hstops := forM_checkLocation_ok hknown
            refine ⟨⟨hopen, ?_, ?_, rfl, rfl, rfl, classes, ?_⟩, rfl, rfl, rfl⟩
            · exact Nat.le_of_not_lt hlen
            · simpa using hstops
            · exact hclasses

lemma admits_of_checkTransport {r : RouteIndex} {t : NewTransport} {o : OpenRoute}
    {days : ServiceDays} (h : b.checkTransport r t = .ok (o, days)) : b.Admits r t o days := by
  unfold checkTransport at h
  cases hopen : b.openRoute.filter (·.index == r) with
  | none =>
    simp only [hopen] at h
    cases h
  | some opened =>
    obtain ⟨hsome, hindex⟩ := Option.filter_eq_some_iff.1 hopen
    simp only [hopen] at h
    by_cases hlen : t.stopTimes.length ≠ opened.stops.size
    · simp only [hlen, if_true, ne_eq, not_false_eq_true] at h
      cases h
    · by_cases hlines : 1 < t.lines.length ∧ t.lines.length ≠ opened.stops.size - 1
      · simp only [hlen, hlines, if_true, if_false, ne_eq, not_false_eq_true, and_self] at h
        cases h
      · simp only [hlen, hlines, if_false] at h
        cases hdays : b.serviceDays.get? t.serviceDays with
        | none =>
          simp only [hdays] at h
          cases h
        | some given =>
          simp only [hdays] at h
          cases hdec : NewTransport.decrease? t.schedule with
          | some p =>
            simp only [hdec] at h
            cases h
          | none =>
            simp only [hdec] at h
            by_cases hempty : (given.shift (NewTransport.dayOffset t.schedule)).isEmpty = true
            · simp only [hempty, if_true] at h
              cases h
            · simp only [hempty] at h
              cases h
              exact ⟨hsome, beq_iff_eq.1 hindex, not_not.1 hlen, hdec, ⟨given, hdays, rfl⟩,
                Bool.eq_false_iff.2 hempty, by omega⟩

/-- What a call can do to a builder. -/
inductive Step (b : Builder) : Builder → Prop
  | stay : Step b b
  | location (location : Location) : Step b { b with locations := (b.locations.register location).2 }
  | days {days : ServiceDays} : days.capacity = b.calendar.nbOfDays → Step b (b.intern days)
  | opened {o : OpenRoute} {permissions : Sections Bool} : b.Opens o →
      Step b { b with openRoute := some o, bikes := b.bikes.register permissions }
  | late {r : RouteIndex} {t : NewTransport} {o : OpenRoute} {days : ServiceDays} :
      b.Admits r t o days → (NewTransport.beyondSpan? t.normalized).isSome = true →
      Step b (b.intern days)
  | extended {r : RouteIndex} {t : NewTransport} {o : OpenRoute} {days : ServiceDays} :
      b.Admits r t o days → NewTransport.beyondSpan? t.normalized = none →
      Step b (b.extend r t o days)
  | spoiled {o : OpenRoute} {e : TimetableError} : b.openRoute = some o → o.close = .error e →
      Step b { b with routeError := b.routeError.or (some e) }
  | closed {o : OpenRoute} {r : Route} : b.openRoute = some o → o.close = .ok r →
      Step b { b with routes := b.routes.push r, openRoute := none }
  | footpath {source target : LocationIndex} {duration : Duration} :
      source.val < b.locations.size → target.val < b.locations.size →
      Step b { b with footpaths := b.footpaths.push (source, ⟨target, duration⟩) }
  | timedFootpath {source target : LocationIndex} {validFrom : Instant} {duration : Duration} :
      source.val < b.locations.size → target.val < b.locations.size →
      Step b { b with
        timedFootpaths := b.timedFootpaths.push (source, ⟨target, validFrom, duration⟩) }

/-- All that a call can answer, with what it leaves. -/
inductive Outcome (b : Builder) : Call → Except TimetableError Registered → Builder → Prop
  | location (location : Location) :
      Outcome b (.location location) (.ok (.location (b.locations.register location).1))
        { b with locations := (b.locations.register location).2 }
  | days {days : ServiceDays} : days.capacity = b.calendar.nbOfDays →
      Outcome b (.serviceDays days) (.ok (.serviceDays (b.serviceDays.intern days).1))
        (b.intern days)
  | opened {stops : List RouteStop} {classes : List ServiceClass} {bikes : List Bool}
      {o : OpenRoute} {permissions : Sections Bool} :
      b.newRoute stops classes bikes = .ok (o, permissions) →
      Outcome b (.route stops classes bikes) (.ok (.route o.index))
        { b with openRoute := some o, bikes := b.bikes.register permissions }
  | late {r : RouteIndex} {t : NewTransport} {o : OpenRoute} {days : ServiceDays} {position : Nat} :
      b.checkTransport r t = .ok (o, days) →
      NewTransport.beyondSpan? t.normalized = some position →
      Outcome b (.transport r t) (.error (.eventBeyondDaySpan t.name position)) (b.intern days)
  | extended {r : RouteIndex} {t : NewTransport} {o : OpenRoute} {days : ServiceDays} :
      b.checkTransport r t = .ok (o, days) → NewTransport.beyondSpan? t.normalized = none →
      Outcome b (.transport r t) (.ok (.transport ⟨b.transports.size⟩)) (b.extend r t o days)
  | notOpen : b.openRoute = none → Outcome b .finishRoute (.error .noOpenRoute) b
  | spoiled {o : OpenRoute} {e : TimetableError} : b.openRoute = some o → o.close = .error e →
      Outcome b .finishRoute (.error e) { b with routeError := b.routeError.or (some e) }
  | closed {o : OpenRoute} {r : Route} : b.openRoute = some o → o.close = .ok r →
      Outcome b .finishRoute (.ok .nothing) { b with routes := b.routes.push r, openRoute := none }
  | footpath {source target : LocationIndex} {duration : Duration} :
      source.val < b.locations.size → target.val < b.locations.size →
      Outcome b (.footpath source target duration) (.ok .nothing)
        { b with footpaths := b.footpaths.push (source, ⟨target, duration⟩) }
  | timedFootpath {source target : LocationIndex} {validFrom : Instant} {duration : Duration} :
      source.val < b.locations.size → target.val < b.locations.size →
      Outcome b (.timedFootpath source target validFrom duration) (.ok .nothing)
        { b with
          timedFootpaths := b.timedFootpaths.push (source, ⟨target, validFrom, duration⟩) }
  | refused {call : Call} {e : TimetableError} : call ≠ .finishRoute → Outcome b call (.error e) b

lemma outcome_registerServiceDays (days : ServiceDays) :
    b.Outcome (.serviceDays days) ((b.registerServiceDays days).1.map .serviceDays)
      (b.registerServiceDays days).2 := by
  unfold registerServiceDays
  split
  · rename_i hcap
    exact .days hcap
  · exact .refused Call.noConfusion

lemma outcome_registerRoute (stops : List RouteStop) (classes : List ServiceClass)
    (bikes : List Bool) :
    b.Outcome (.route stops classes bikes) ((b.registerRoute stops classes bikes).1.map .route)
      (b.registerRoute stops classes bikes).2 := by
  unfold registerRoute
  split
  · exact .refused Call.noConfusion
  · rename_i hnew
    exact .opened hnew

lemma addTransport_of_error {r : RouteIndex} {t : NewTransport} {e : TimetableError}
    (hcheck : b.checkTransport r t = .error e) : b.addTransport r t = (.error e, b) := by
  unfold addTransport
  rw [hcheck]

lemma addTransport_late {r : RouteIndex} {t : NewTransport} {o : OpenRoute} {days : ServiceDays}
    {position : Nat} (hcheck : b.checkTransport r t = .ok (o, days))
    (hspan : NewTransport.beyondSpan? t.normalized = some position) :
    b.addTransport r t = (.error (.eventBeyondDaySpan t.name position), b.intern days) := by
  unfold NewTransport.normalized at hspan
  unfold addTransport
  rw [hcheck]
  simp only [hspan]
  rfl

lemma addTransport_extended {r : RouteIndex} {t : NewTransport} {o : OpenRoute} {days : ServiceDays}
    (hcheck : b.checkTransport r t = .ok (o, days))
    (hspan : NewTransport.beyondSpan? t.normalized = none) :
    b.addTransport r t = (.ok ⟨b.transports.size⟩, b.extend r t o days) := by
  unfold NewTransport.normalized at hspan
  unfold addTransport
  rw [hcheck]
  simp only [hspan]
  rfl

lemma outcome_addTransport (r : RouteIndex) (t : NewTransport) :
    b.Outcome (.transport r t) ((b.addTransport r t).1.map .transport) (b.addTransport r t).2 := by
  cases hcheck : b.checkTransport r t with
  | error e =>
    rw [addTransport_of_error hcheck]
    exact .refused Call.noConfusion
  | ok checked =>
    obtain ⟨o, days⟩ := checked
    cases hspan : NewTransport.beyondSpan? t.normalized with
    | some position =>
      rw [addTransport_late hcheck hspan]
      exact .late hcheck hspan
    | none =>
      rw [addTransport_extended hcheck hspan]
      exact .extended hcheck hspan

/-- What a transport that is accepted adds to its builder. -/
lemma addTransport_ok {r : RouteIndex} {t : NewTransport} {i : TransportIndex}
    (h : (b.addTransport r t).1 = .ok i) :
    i.val = b.transports.size ∧ ∃ o days, b.Admits r t o days ∧
      NewTransport.beyondSpan? t.normalized = none ∧ (b.addTransport r t).2 = b.extend r t o days := by
  cases hcheck : b.checkTransport r t with
  | error e =>
    rw [addTransport_of_error hcheck] at h
    cases h
  | ok checked =>
    obtain ⟨o, days⟩ := checked
    cases hspan : NewTransport.beyondSpan? t.normalized with
    | some position =>
      rw [addTransport_late hcheck hspan] at h
      cases h
    | none =>
      rw [addTransport_extended hcheck hspan] at h ⊢
      cases h
      exact ⟨rfl, o, days, admits_of_checkTransport hcheck, rfl, rfl⟩

lemma outcome_finishRoute :
    b.Outcome .finishRoute (b.finishRoute.1.map fun _ => .nothing) b.finishRoute.2 := by
  unfold finishRoute
  cases hopen : b.openRoute with
  | none => exact .notOpen hopen
  | some o =>
    cases hclose : o.close with
    | error e =>
      simp only [hclose]
      exact hopen ▸ .spoiled hopen hclose
    | ok r =>
      simp only [hclose]
      exact .closed hopen hclose

lemma outcome_addFootpath (source target : LocationIndex) (duration : Duration) :
    b.Outcome (.footpath source target duration)
      ((b.addFootpath source target duration).1.map fun _ => .nothing)
      (b.addFootpath source target duration).2 := by
  unfold addFootpath
  split
  · exact .refused Call.noConfusion
  · rename_i hok
    obtain ⟨hsource, htarget⟩ := checkEnds_ok hok
    exact .footpath hsource htarget

lemma outcome_addTimedFootpath (source target : LocationIndex) (validFrom : Instant)
    (duration : Duration) : b.Outcome (.timedFootpath source target validFrom duration)
      ((b.addTimedFootpath source target validFrom duration).1.map fun _ => .nothing)
      (b.addTimedFootpath source target validFrom duration).2 := by
  unfold addTimedFootpath
  split
  · exact .refused Call.noConfusion
  · rename_i hok
    obtain ⟨hsource, htarget⟩ := checkEnds_ok hok
    exact .timedFootpath hsource htarget

theorem outcome_apply (b : Builder) (call : Call) :
    b.Outcome call (b.apply call).1 (b.apply call).2 := by
  cases call with
  | location location => exact .location location
  | serviceDays days => exact outcome_registerServiceDays days
  | route stops classes bikes => exact outcome_registerRoute stops classes bikes
  | transport route transport => exact outcome_addTransport route transport
  | finishRoute => exact outcome_finishRoute
  | footpath source target duration => exact outcome_addFootpath source target duration
  | timedFootpath source target validFrom duration =>
    exact outcome_addTimedFootpath source target validFrom duration

lemma Outcome.step {call : Call} {answer : Except TimetableError Registered} {b' : Builder}
    (h : b.Outcome call answer b') : b.Step b' := by
  cases h with
  | location location => exact .location location
  | days hcap => exact .days hcap
  | opened hnew => exact .opened (newRoute_ok hnew).1
  | late hcheck hspan =>
    exact .late (admits_of_checkTransport hcheck) (Option.isSome_of_eq_some hspan)
  | extended hcheck hspan => exact .extended (admits_of_checkTransport hcheck) hspan
  | notOpen _ => exact .stay
  | spoiled hopen hclose => exact .spoiled hopen hclose
  | closed hopen hclose => exact .closed hopen hclose
  | footpath hsource htarget => exact .footpath hsource htarget
  | timedFootpath hsource htarget => exact .timedFootpath hsource htarget
  | refused _ => exact .stay

theorem step_apply (b : Builder) (call : Call) : b.Step (b.apply call).2 :=
  (b.outcome_apply call).step

/-- What every step keeps holds after a run of calls. -/
theorem run_keeps {P : Builder → Prop} (hkeeps : ∀ b b' : Builder, b.Step b' → P b → P b')
    (h : P b) (calls : List Call) : P (b.run calls).2 := by
  induction calls generalizing b with
  | nil => exact h
  | cons call calls ih =>
    rw [run_cons]
    exact ih (hkeeps _ _ (b.step_apply call) h)

/-- A timetable can be built when every route is closed and every parent is known. -/
lemma build_eq_ok_iff {tt : Timetable} : b.build = .ok tt ↔
    b.routeError = none ∧ b.openRoute = none ∧ b.locations.danglingParent? = none ∧
      b.freeze = tt := by
  unfold build
  cases b.routeError with
  | some e => simp
  | none =>
    cases b.openRoute with
    | some o => simp
    | none => cases b.locations.danglingParent? <;> simp

end Builder
end JourneyPlanner
