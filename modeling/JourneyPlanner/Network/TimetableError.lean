import JourneyPlanner.Data.Index
import JourneyPlanner.Time.ServiceTime

/-!
What can be wrong with the parts of a timetable.
-/

namespace JourneyPlanner

/-- What is listed section by section. -/
inductive SectionValue where
  | classes
  | bikePermissions
  | lineNames
deriving DecidableEq, Repr

def SectionValue.text : SectionValue → String
  | classes => "classes"
  | bikePermissions => "bike permissions"
  | lineNames => "line names"

inductive TimetableError where
  | tooFewStops (nbOfStops : Nat)
  | unknownLocation (location : LocationIndex)
  | sectionMismatch (what : SectionValue) (nbOfSections nbOfValues : Nat)
  | routeNotFinished (route : RouteIndex)
  | noOpenRoute
  | transportOutsideOpenRoute (name : String) (route : RouteIndex)
  | stopTimesMismatch (name : String) (nbOfStopTimes nbOfStops : Nat)
  | unknownServiceDays (name : String) (days : ServiceDaysIndex)
  | nonMonotonicTimes (name : String) (position : Nat)
  | eventBeyondDaySpan (name : String) (position : Nat)
  | noTrafficDay (name : String)
  | emptyRoute (route : RouteIndex)
  | overtakingTransports (route : RouteIndex) (event : Nat)
  | unfinishedRoute (route : RouteIndex)
  | danglingParent (location parent : LocationIndex)
  | capacityMismatch (capacity nbOfDays : Nat)
deriving DecidableEq, Repr

def TimetableError.message : TimetableError → String
  | tooFewStops n => "A route must have at least 2 stops, got " ++ toString n
  | unknownLocation l => "Unknown location " ++ l.text
  | sectionMismatch what sections values =>
    "A route with " ++ toString sections ++ " section(s) was given " ++ toString values ++ " " ++
      what.text
  | routeNotFinished r => "Cannot register a new route while " ++ r.text ++ " is not finished"
  | noOpenRoute => "No route is open"
  | transportOutsideOpenRoute name r =>
    "Transport " ++ name ++ " is added to " ++ r.text ++ " which is not the open route"
  | stopTimesMismatch name times stops =>
    "Transport " ++ name ++ " has " ++ toString times ++ " stop times for a route with " ++
      toString stops ++ " stops"
  | unknownServiceDays name days => "Transport " ++ name ++ " uses an unknown " ++ days.text
  | nonMonotonicTimes name position =>
    "Transport " ++ name ++ " has decreasing times at stop position " ++ toString position
  | eventBeyondDaySpan name position =>
    "Transport " ++ name ++ " has an event at stop position " ++ toString position ++
      " more than " ++ toString maxDaysInTrip ++ " days after its first departure"
  | noTrafficDay name => "Transport " ++ name ++ " runs on no day of the calendar"
  | emptyRoute r => r.text ++ " has no transport"
  | overtakingTransports r event =>
    "Transports of " ++ r.text ++ " overtake each other at event " ++ toString event
  | unfinishedRoute r => r.text ++ " is not finished"
  | danglingParent l p => "Location " ++ l.text ++ " has an unknown parent " ++ p.text
  | capacityMismatch capacity days =>
    "A bitfield of " ++ toString capacity ++ " days does not match the " ++ toString days ++
      " days of the calendar"

end JourneyPlanner
