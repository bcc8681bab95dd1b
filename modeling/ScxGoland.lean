import ScxGoland.LittleEndian
import ScxGoland.Runs
import ScxGoland.BoundedMap
import ScxGoland.SortedRing
import ScxGoland.Records
import ScxGoland.World
import ScxGoland.Effects
import ScxGoland.IdleCpu
import ScxGoland.DispatchTask
import ScxGoland.UserDispatch
import ScxGoland.Enqueue
import ScxGoland.Callbacks
import ScxGoland.System
import ScxGoland.Custody
import ScxGoland.TaskPool
import ScxGoland.QueueChannel
import ScxGoland.NrQueued
import ScxGoland.Peek
import ScxGoland.SchedLoop
import ScxGoland.TaskBalance
import ScxGoland.IdleSleep
import ScxGoland.Backlog
import ScxGoland.CLayout
import ScxGoland.Messages
import ScxGoland.VirtualTime
import ScxGoland.DsqInit
import ScxGoland.Traces
import ScxGoland.DsqLegality
import ScxGoland.IdleClaims
import ScxGoland.Frames
import ScxGoland.PriorityMap
import ScxGoland.KernelOrder
import ScxGoland.StoredVtime
import ScxGoland.Runtime
import ScxGoland.Charging
import ScxGoland.Policy
import ScxGoland.IdleSearch
import ScxGoland.CpuList
import ScxGoland.Topology
import ScxGoland.Insertions
import ScxGoland.Selection
import ScxGoland.DefaultSlice
import ScxGoland.Ledger
import ScxGoland.Footprint
import ScxGoland.Wakeup
import ScxGoland.Ejection
import ScxGoland.Batches
import ScxGoland.Placement
import ScxGoland.Transport
import ScxGoland.Occupancy
import ScxGoland.Grants
import ScxGoland.Submissions
import ScxGoland.Startup
import ScxGoland.ExitInfo
import ScxGoland.Kicks
import ScxGoland.CacheLocality
