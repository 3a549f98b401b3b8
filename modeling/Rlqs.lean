import Rlqs.Lib.Steps
import Rlqs.Lib.Interleave
import Rlqs.Lib.Trace
import Rlqs.Lib.Linear
import Rlqs.Lib.Mutex
import Rlqs.Lib.GoMap
import Rlqs.Lib.Separated
import Rlqs.Storage.Definitions
import Rlqs.Storage.Keys
import Rlqs.Storage.Redis
import Rlqs.Storage.Conservation
import Rlqs.Storage.Deletion
import Rlqs.Storage.Recorders
import Rlqs.Storage.Recovery
import Rlqs.Storage.Breaker
import Rlqs.Storage.Partial
import Rlqs.Storage.Tripping
import Rlqs.Storage.Monotone
import Rlqs.Storage.Callers
import Rlqs.Storage.Fleet
import Rlqs.Storage.Expiry
import Rlqs.Storage.Healing
import Rlqs.Storage.Replicas
import Rlqs.Quota.Engine
import Rlqs.Quota.Edits
import Rlqs.Metrics.Domain
import Rlqs.Metrics.Concurrent
import Rlqs.Server.Definitions
import Rlqs.Server.Atomic
import Rlqs.Server.RefCount
import Rlqs.Server.Gauges
import Rlqs.Server.Labels
import Rlqs.Server.Removal
import Rlqs.Server.Calls
import Rlqs.Server.Refinement
import Rlqs.Server.Usage
import Rlqs.Server.Isolation
import Rlqs.Server.Cluster
import Rlqs.Server.Swap
import Rlqs.Server.Convergence
import Rlqs.Server.Observed
import Rlqs.Server.Session
import Rlqs.Server.Abandon
import Rlqs.Server.Locks
import Rlqs.Server.Exclusion
import Rlqs.Server.Races
import Rlqs.Server.Deadlock
import Rlqs.Server.Sections
import Rlqs.Server.StreamStats
import Rlqs.Server.Whole
import Rlqs.Server.Sharing
import Rlqs.Server.Bounds
import Rlqs.Server.Serial
import Rlqs.Config.Definitions
import Rlqs.Config.Watcher
import Rlqs.Config.FileWatch
import Rlqs.Config.Load
import Rlqs.Config.Rewatch
import Rlqs.Main.Build
import Rlqs.Main.Reload
import Rlqs.Main.Drift
import Rlqs.Main.Stateless
import Rlqs.Main.Deployment
import Rlqs.Main.Assignments
import Rlqs.Main.Exact
import Rlqs.Main.Push
import Rlqs.Main.Rollout
import Rlqs.Main.Environment
import Rlqs.Admin.Buckets
