import Ziggurat.FlatMapRefinement
import Ziggurat.RingBuffer
import Ziggurat.Nwk.LinkStatusFrames
import Ziggurat.Nwk.ChildTimeouts
import Ziggurat.Nwk.DiscoveryRuns
import Ziggurat.Nwk.TransactionRuns
import Ziggurat.Sends.Timer
import Ziggurat.Sends.OnAir
import Ziggurat.Sends.Quorum
import Ziggurat.Sends.Deadlines
import Ziggurat.Sends.SourceMatch
import Ziggurat.Sends.Cancellation
import Ziggurat.Protocol.SendTracker
import Ziggurat.Driver.BudgetTiming
import Ziggurat.Driver.BroadcastCopies
import Ziggurat.Driver.UnsecuredRejoin
import Ziggurat.Driver.ConflictReports
import Ziggurat.Driver.TableQueries
import Ziggurat.Driver.Relay
import Ziggurat.Driver.Nonces
import Ziggurat.Driver.RouteRecords
import Ziggurat.Spinel.PackedUint
import Ziggurat.Spinel.Host
import Ziggurat.Spinel.Release
import Ziggurat.Protocol.KeyTable
import Ziggurat.Ncp.Outbound
