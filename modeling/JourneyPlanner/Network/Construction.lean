import JourneyPlanner.Network.Builder

/-!
Constructions: the calls by which a timetable is put together, in any order and with any arguments,
and what a run of them answers. A call that fails answers an error, and the run goes on.
-/

namespace JourneyPlanner

/-- A call to a builder. -/
inductive Call where
  | location (location : Location)
  | serviceDays (days : ServiceDays)
  | route (stops : List RouteStop) (classes : List ServiceClass) (bikes : List Bool)
  | transport (route : RouteIndex) (transport : NewTransport)
  | finishRoute
  | footpath (source target : LocationIndex) (duration : Duration)
  | timedFootpath (source target : LocationIndex) (validFrom : Instant) (duration : Duration)
deriving DecidableEq, Repr

/-- What a call has registered. -/
inductive Registered where
  | location (location : LocationIndex)
  | serviceDays (days : ServiceDaysIndex)
  | route (route : RouteIndex)
  | transport (transport : TransportIndex)
  | nothing
deriving DecidableEq, Repr

namespace Builder

/-- Names what a call has registered. -/
def registered {α : Type} (f : α → Registered) (r : Except TimetableError α × Builder) :
    Except TimetableError Registered × Builder := (r.1.map f, r.2)

/-- Carries out a call. -/
def apply (b : Builder) : Call → Except TimetableError Registered × Builder
  | .location location =>
    let (l, b) := b.registerLocation location
    (.ok (.location l), b)
  | .serviceDays days => registered .serviceDays (b.registerServiceDays days)
  | .route stops classes bikes => registered .route (b.registerRoute stops classes bikes)
  | .transport route transport => registered .transport (b.addTransport route transport)
  | .finishRoute => registered (fun _ => .nothing) b.finishRoute
  | .footpath source target duration =>
    registered (fun _ => .nothing) (b.addFootpath source target duration)
  | .timedFootpath source target validFrom duration =>
    registered (fun _ => .nothing) (b.addTimedFootpath source target validFrom duration)

/-- Carries out calls one after the other. -/
def run (b : Builder) : List Call → List (Except TimetableError Registered) × Builder
  | [] => ([], b)
  | call :: calls =>
    let (answer, b) := b.apply call
    let (answers, b) := run b calls
    (answer :: answers, b)

theorem run_cons (b : Builder) (call : Call) (calls : List Call) :
    b.run (call :: calls) =
      ((b.apply call).1 :: ((b.apply call).2.run calls).1, ((b.apply call).2.run calls).2) := rfl

/-- A run of all calls is a run of the first ones, followed by a run of the others. -/
theorem run_append (b : Builder) (first others : List Call) :
    b.run (first ++ others) =
      ((b.run first).1 ++ ((b.run first).2.run others).1, ((b.run first).2.run others).2) := by
  induction first generalizing b with
  | nil => rfl
  | cons call first ih => simp only [List.cons_append, run_cons, ih]

end Builder

/-- A timetable that some run of calls leads to. -/
def Timetable.IsBuilt (tt : Timetable) : Prop :=
  ∃ (c : Calendar) (calls : List Call), ((Builder.new c).run calls).2.build = .ok tt

end JourneyPlanner
