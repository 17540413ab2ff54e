import ByrealTitan.Correctness.RouteData
import ByrealTitan.Correctness.HonestRoute
import ByrealTitan.Correctness.Custody
import ByrealTitan.Correctness.Refresh
import ByrealTitan.Correctness.Updated
import ByrealTitan.Correctness.FailedRefresh
import ByrealTitan.Correctness.RouteLegs
import ByrealTitan.Correctness.Boundaries
import ByrealTitan.Correctness.CachedReads
import ByrealTitan.Correctness.CatchUp
import ByrealTitan.Correctness.FetchedArrays
import ByrealTitan.Correctness.Monotone
import ByrealTitan.Correctness.Ladder
import ByrealTitan.Correctness.DynamicFee
import ByrealTitan.Correctness.Exhausted
import ByrealTitan.Correctness.PriceProbe
import ByrealTitan.Correctness.Termination
import ByrealTitan.Correctness.Accounting
import ByrealTitan.Correctness.QuotedRange
import ByrealTitan.Correctness.VisitedArrays
import ByrealTitan.Correctness.FinalCheck
import ByrealTitan.Correctness.TickSearch
import ByrealTitan.Correctness.NoPanic
import ByrealTitan.Correctness.SerialCalls
import ByrealTitan.Correctness.Weights
import ByrealTitan.Correctness.Payout
import ByrealTitan.Correctness.Deposit
import ByrealTitan.Correctness.TickWalk
import ByrealTitan.Correctness.Holdings
import ByrealTitan.Correctness.Histories
import ByrealTitan.Correctness.QuoteTotal
import ByrealTitan.TradingVenue.Contract
import ByrealTitan.Correctness.Life
import ByrealTitan.Correctness.DefaultBounds
import ByrealTitan.Program.Entry
import ByrealTitan.Correctness.Effects
import ByrealTitan.Correctness.Lifecycle
import ByrealTitan.SwapRoute.Route
import ByrealTitan.Correctness.BuiltRoute
import ByrealTitan.Correctness.Deployment
import ByrealTitan.Correctness.OneSnapshot
import ByrealTitan.Lib.Interleaving
import ByrealTitan.Correctness.ConcurrentCalls
import ByrealTitan.Correctness.TickArrayData
import ByrealTitan.Correctness.QuotedLegs
import ByrealTitan.Adapter.Creation
import ByrealTitan.Correctness.PaidQuotes
