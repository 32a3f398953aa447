import JourneyPlanner.Request.Params
import JourneyPlanner.Search.Planner

/-!
Answering the requests of travellers one after the other. A solver keeps one search state for each
number of via stops, so that it is sized once for a timetable.
-/

namespace JourneyPlanner

/-- A request as the traveller sees it. -/
structure Request where
  time : StartTime
  departures : List Offset
  arrivals : List Offset
  /-- in travel order -/
  vias : List ViaStop
deriving DecidableEq, Repr

/-- The query of a request. -/
def Request.query (r : Request) (params : RequestParams) (role : TimeRole) : Query :=
  let (start, destination) := match role with
    | .departure => (r.departures, r.arrivals)
    | .arrival => (r.arrivals, r.departures)
  { startTime := r.time
    direction := role.direction
    start := start
    destination := destination
    vias := r.vias
    allowedClasses := params.classSet
    requireBikes := params.requireBikes
    maxTransfers := params.maxTransfers }

/-- A request with all that its answer depends on. -/
structure Enquiry where
  timetable : Timetable
  request : Request
  params : RequestParams
  role : TimeRole

/-- The search states for queries with 0, 1, … via stops. -/
structure Solver where
  states : List SearchState

namespace Solver

def new : Solver := ⟨(List.range (maxVias + 1)).map fun vias => .new (vias + 1)⟩

/-- A state sized for a timetable. -/
def sizedFor (state : SearchState) (tt : Timetable) : SearchState :=
  if state.isSizedFor tt.nbOfLocations tt.nbOfRoutes then state
  else state.resize tt.nbOfLocations tt.nbOfRoutes 0

/-- A journey takes no longer than the request allows. -/
def isShortEnough (params : RequestParams) (j : Journey) : Bool :=
  (j.duration?.map fun d => decide (d ≤ params.maxDuration)).getD false

/-- The journeys of a request, and the solver for the next one. -/
def solve (s : Solver) (tt : Timetable) (r : Request) (params : RequestParams) (role : TimeRole) :
    Except BadRequest (List Journey) × Solver :=
  let q := r.query params role
  match s.states[q.vias.length]? with
  | none => (.error (.tooManyVias q.vias.length), s)
  | some state =>
    let (answer, state) := JourneyPlanner.solve tt (sizedFor state tt) q
    (answer.map (List.filter (isShortEnough params)), ⟨s.states.set q.vias.length state⟩)

def answer (s : Solver) (e : Enquiry) : Except BadRequest (List Journey) × Solver :=
  s.solve e.timetable e.request e.params e.role

/-- The solver that has answered enquiries, one after the other. -/
def after (s : Solver) (history : List Enquiry) : Solver :=
  history.foldl (fun s e => (s.answer e).2) s

end Solver

end JourneyPlanner
