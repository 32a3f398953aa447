import JourneyPlanner.Journey.Text
import JourneyPlanner.Network.Construction
import JourneyPlanner.Network.FootpathWindow
import JourneyPlanner.Request.Arguments
import JourneyPlanner.Request.Settings
import JourneyPlanner.Request.Solver
import JourneyPlanner.Search.Assignment
import JourneyPlanner.Search.Exhaustive
import JourneyPlanner.Search.Feasible
import JourneyPlanner.Time.Zone
import JourneyPlanner.Proofs.Data.ListOfLists
import JourneyPlanner.Proofs.Network.Schedules
import JourneyPlanner.Proofs.Network.TimedRuns
import JourneyPlanner.Proofs.Network.BothWays
import JourneyPlanner.Proofs.Network.Calls
import JourneyPlanner.Proofs.Network.Building
import JourneyPlanner.Proofs.Network.WellFormed
import JourneyPlanner.Proofs.Network.Coherence
import JourneyPlanner.Proofs.Network.EachTarget
import JourneyPlanner.Proofs.Network.OpenWalks
import JourneyPlanner.Proofs.Network.Overtaking
import JourneyPlanner.Proofs.Network.Refusals
import JourneyPlanner.Proofs.Network.SectionData
import JourneyPlanner.Proofs.Network.Sections
import JourneyPlanner.Proofs.Network.Storing
import JourneyPlanner.Proofs.Network.Verdicts
import JourneyPlanner.Proofs.Network.WalksInOrder
import JourneyPlanner.Proofs.Request.Serving
import JourneyPlanner.Proofs.Search.Accepting
import JourneyPlanner.Proofs.Search.Answers
import JourneyPlanner.Proofs.Search.Carrying
import JourneyPlanner.Proofs.Search.Classes
import JourneyPlanner.Proofs.Search.Commuting
import JourneyPlanner.Proofs.Search.Completeness
import JourneyPlanner.Proofs.Search.Departing
import JourneyPlanner.Proofs.Search.Discarding
import JourneyPlanner.Proofs.Search.Extending
import JourneyPlanner.Proofs.Search.Fronts
import JourneyPlanner.Proofs.Search.InRange.Run
import JourneyPlanner.Proofs.Search.Mirroring
import JourneyPlanner.Proofs.Search.Reordering
import JourneyPlanner.Proofs.Search.Returning
import JourneyPlanner.Proofs.Search.RoundTimes
import JourneyPlanner.Proofs.Search.Skipping
import JourneyPlanner.Proofs.Search.Visiting
import JourneyPlanner.Proofs.Search.Catching
import JourneyPlanner.Proofs.Search.Ties
import JourneyPlanner.Proofs.Journey.Keeping
import JourneyPlanner.Proofs.Time.Splitting
import JourneyPlanner.Proofs.Time.ClockTimes
import JourneyPlanner.Proofs.Time.Frames
import JourneyPlanner.Proofs.Time.MovingOn
import JourneyPlanner.Proofs.Time.SharedDays
