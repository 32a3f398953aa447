import JourneyPlanner.Journey.Basic
import JourneyPlanner.Network.Timetable

/-!
Journeys as a traveller reads them: a header and one line per leg.
-/

namespace JourneyPlanner

/-- The line of a leg. -/
def Leg.text (tt : Timetable) (leg : Leg) : String :=
  let source := tt.locations.name leg.source
  let target := tt.locations.name leg.target
  let departure := leg.departure.dateTime.shortText
  let arrival := leg.arrival.dateTime.shortText
  match leg.kind with
  | .offset mode =>
    "offset (mode " ++ toString mode ++ ") at " ++ source ++ " from " ++ departure ++ " to " ++
      arrival
  | .footpath =>
    "walk from " ++ source ++ " at " ++ departure ++ " to " ++ target ++ " at " ++ arrival
  | .ride transport _ board _ =>
    tt.name transport ++ " (" ++ (tt.lineOf? transport board).getD "-" ++ ") from " ++ source ++
      " at " ++ departure ++ " to " ++ target ++ " at " ++ arrival

/-- The lines of a journey. -/
def Journey.lines (tt : Timetable) (j : Journey) : List String :=
  ["*** New journey ***",
    "Departure : " ++ j.departure.dateTime.shortText,
    "Arrival : " ++ j.arrival.dateTime.shortText,
    "Nb of transfers : " ++ toString j.nbOfTransfers] ++ j.legs.map (Leg.text tt)

/-- The lines of a journey, each with its end of line. -/
def Journey.text (tt : Timetable) (j : Journey) : String :=
  String.join ((j.lines tt).map (· ++ "\n"))

end JourneyPlanner
