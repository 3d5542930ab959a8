import Solnet.Daemon.Admissions
import Solnet.Daemon.AttackPrevention
import Solnet.Daemon.Availability
import Solnet.Daemon.BanRace
import Solnet.Daemon.BestNode
import Solnet.Daemon.BreakerLaw
import Solnet.Daemon.CacheRuns
import Solnet.Daemon.CachedErrors
import Solnet.Daemon.Checked
import Solnet.Daemon.ClientRuns
import Solnet.Daemon.Commitments
import Solnet.Daemon.Concurrent
import Solnet.Daemon.Consensus
import Solnet.Daemon.Disconnections
import Solnet.Daemon.Executor
import Solnet.Daemon.ExitClients
import Solnet.Daemon.Forwarding
import Solnet.Daemon.GuardStats
import Solnet.Daemon.Handling
import Solnet.Daemon.Housekeeping
import Solnet.Daemon.Identity
import Solnet.Daemon.Json
import Solnet.Daemon.Latencies
import Solnet.Daemon.LatencyEngine
import Solnet.Daemon.MerkleRoot
import Solnet.Daemon.MeshStatus
import Solnet.Daemon.MethodMetrics
import Solnet.Daemon.Onion
import Solnet.Daemon.Outage
import Solnet.Daemon.PayloadScan
import Solnet.Daemon.PeerBans
import Solnet.Daemon.PeerGuard
import Solnet.Daemon.PeerRegistry
import Solnet.Daemon.PeerScores
import Solnet.Daemon.Performance
import Solnet.Daemon.Process
import Solnet.Daemon.Quorum
import Solnet.Daemon.RateLimiter
import Solnet.Daemon.RateLimits
import Solnet.Daemon.Receipts
import Solnet.Daemon.Relays
import Solnet.Daemon.Replies
import Solnet.Daemon.RequestSigner
import Solnet.Daemon.ResponseCache
import Solnet.Daemon.RewardStatus
import Solnet.Daemon.Rewards
import Solnet.Daemon.RoundRobin
import Solnet.Daemon.Routing
import Solnet.Daemon.RpcProxy
import Solnet.Daemon.Selection
import Solnet.Daemon.SettledAmounts
import Solnet.Daemon.Settlement
import Solnet.Daemon.SlotReads
import Solnet.Daemon.Strikes
import Solnet.Daemon.Timestamps
import Solnet.Daemon.Upstream
import Solnet.Daemon.Verdicts
import Solnet.Daemon.Verification
import Solnet.Lib.Base58
import Solnet.Lib.Base64
import Solnet.Lib.Bytes
import Solnet.Lib.Doubles
import Solnet.Lib.Expiring
import Solnet.Lib.Extrema
import Solnet.Lib.Fallible
import Solnet.Lib.Hex
import Solnet.Lib.JsonText
import Solnet.Lib.Merkle
import Solnet.Lib.Orbit
import Solnet.Lib.OrderedMap
import Solnet.Lib.Outcomes
import Solnet.Lib.Rotation
import Solnet.Lib.Runs
import Solnet.Lib.Schedules
import Solnet.Lib.Slices
import Solnet.Lib.Smoothing
import Solnet.Lib.Table
import Solnet.Lib.Tiers
import Solnet.Lib.Votes
import Solnet.Lib.While
import Solnet.Lib.Windows
import Solnet.Mobile.EarningsStore
import Solnet.Mobile.Wallet
import Solnet.Native.Earnings
import Solnet.Native.Ffi
import Solnet.Native.P2pNode
import Solnet.Native.P2pNodes
import Solnet.Native.RelayClient
import Solnet.Native.RelayPipeline
import Solnet.Native.RelayReturns
import Solnet.Native.RelayTasks
import Solnet.Native.RelayUptime
import Solnet.Native.ThrottleCopies
import Solnet.Program.Accounts
import Solnet.Program.Escrow
import Solnet.Program.Forfeit
import Solnet.Program.Instructions
import Solnet.Program.Isolation
import Solnet.Program.LifeCycle
import Solnet.Program.Parallel
import Solnet.Program.Reward
import Solnet.Program.Settlements
import Solnet.Program.Supply
import Solnet.Sdk.Connection
import Solnet.Sdk.Endpoints
import Solnet.Sdk.Failover
import Solnet.Sdk.HealthChecks
import Solnet.Sdk.Overlaps
import Solnet.Sdk.PeerDiscovery
import Solnet.Sdk.PrivacyMode
