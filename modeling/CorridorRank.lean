import CorridorRank.Clock.Civil
import CorridorRank.Clock.Pattern
import CorridorRank.Csv.Read
import CorridorRank.Csv.Write
import CorridorRank.Fault
import CorridorRank.Geo.Coordinates
import CorridorRank.Journey.Itinerary
import CorridorRank.Journey.Leg
import CorridorRank.Journey.Mode
import CorridorRank.Journey.Place
import CorridorRank.Json.Read
import CorridorRank.Json.Write
import CorridorRank.Main
import CorridorRank.Matching.Match
import CorridorRank.Matching.Request
import CorridorRank.Matching.Summary
import CorridorRank.Num.Binary64
import CorridorRank.Num.FloatText
import CorridorRank.Num.Read
import CorridorRank.Num.Shortest
import CorridorRank.Planner.Client
import CorridorRank.Planner.Transport
import CorridorRank.Scoring.Aggregate
import CorridorRank.Scoring.Batch
import CorridorRank.Scoring.Corridor
import CorridorRank.Scoring.FanOut
import CorridorRank.Scoring.Policy
import CorridorRank.Scoring.Rank
import CorridorRank.Scoring.Score
import CorridorRank.Simulation.Load
import CorridorRank.Simulation.Run
import CorridorRank.Sorting.NaturalMerge
import CorridorRank.Text.Basic
import CorridorRank.Text.Blank
import CorridorRank.Text.Digit
import CorridorRank.Text.Printable
import CorridorRank.Text.Ranges
import CorridorRank.Text.Split
import CorridorRank.Text.Upper
import CorridorRank.Value.Access
import CorridorRank.Value.Arith
import CorridorRank.Value.Basic
import CorridorRank.Value.Text
import CorridorRank.Proofs.Traversal
import CorridorRank.Proofs.Scoring.FanOut
import CorridorRank.Proofs.Scoring.Isolation
import CorridorRank.Proofs.Sorting.Permutation
import CorridorRank.Proofs.Scoring.Accounting
import CorridorRank.Proofs.Sorting.Searches
import CorridorRank.Proofs.Sorting.Moves
import CorridorRank.Proofs.Sorting.Order
import CorridorRank.Proofs.Sorting.StableMerge
import CorridorRank.Proofs.Sorting.StableSort
import CorridorRank.Proofs.Ranking.KeyOrder
import CorridorRank.Proofs.Ranking.Corridors
import CorridorRank.Proofs.Matching.TopCorridors
import CorridorRank.Proofs.Planner.Conversation
import CorridorRank.Proofs.Sorting.Totality
import CorridorRank.Proofs.Ranking.StableRanking
import CorridorRank.Proofs.Scoring.Doubles
import CorridorRank.Proofs.Scoring.Stages
import CorridorRank.Proofs.Scoring.Precedence
import CorridorRank.Proofs.Scoring.Duration
import CorridorRank.Proofs.Ranking.Representatives
import CorridorRank.Proofs.Scoring.CorridorKeys
import CorridorRank.Proofs.Journey.PlannerRecords
import CorridorRank.Proofs.Scoring.PolicyTerms
import CorridorRank.Proofs.Ranking.Groups
import CorridorRank.Proofs.Scoring.Aggregation
import CorridorRank.Proofs.Simulation.LegTables
import CorridorRank.Proofs.Scoring.NotANumber
import CorridorRank.Proofs.Scoring.Validation
import CorridorRank.Proofs.Scoring.Chronology
import CorridorRank.Proofs.Matching.DurationText
import CorridorRank.Proofs.Doubles.Nearest
import CorridorRank.Proofs.Doubles.Order
import CorridorRank.Proofs.Doubles.Rounding
import CorridorRank.Proofs.Doubles.Arithmetic
import CorridorRank.Proofs.Doubles.Conversion
import CorridorRank.Proofs.Scoring.Monotonicity
