import AxonVex.Adapters.AdapterBase
import AxonVex.Adapters.Brackets
import AxonVex.Concurrent.Containment
import AxonVex.Concurrent.EventTraffic
import AxonVex.Concurrent.Failure
import AxonVex.Concurrent.Initialize
import AxonVex.Concurrent.Recovery
import AxonVex.Concurrent.SafetyStop
import AxonVex.Concurrent.SchedulerCalls
import AxonVex.Concurrent.SchedulerLifecycle
import AxonVex.Concurrent.Shutdown
import AxonVex.Concurrent.ShutdownTraffic
import AxonVex.Concurrent.Tasks
import AxonVex.Concurrent.Teardown
import AxonVex.Concurrent.UnitLifetime
import AxonVex.Configuration.Access
import AxonVex.Configuration.Environment
import AxonVex.Configuration.EnvironmentOrder
import AxonVex.Configuration.Files
import AxonVex.Configuration.Keys
import AxonVex.Configuration.Merge
import AxonVex.Configuration.Patterns
import AxonVex.Configuration.Store
import AxonVex.Configuration.Tree
import AxonVex.Configuration.Updates
import AxonVex.Core.Caller
import AxonVex.Core.CallerKeyed
import AxonVex.Core.Capacities
import AxonVex.Core.Containers
import AxonVex.Core.Effects
import AxonVex.Core.ErrorHandler
import AxonVex.Core.EventBus
import AxonVex.Core.HealthCallbacks
import AxonVex.Core.HealthMonitor
import AxonVex.Core.Lifecycle
import AxonVex.Core.MemoryPool
import AxonVex.Core.Operations
import AxonVex.Core.Path
import AxonVex.Core.PeakUsage
import AxonVex.Core.Ports
import AxonVex.Core.PrecisionTimer
import AxonVex.Core.QueueTransfers
import AxonVex.Core.RingBuffer
import AxonVex.Core.Scheduler
import AxonVex.Core.Sizes
import AxonVex.Core.System
import AxonVex.Core.SystemPortRegistry
import AxonVex.Core.SystemRun
import AxonVex.Core.ThreadSafeQueue
import AxonVex.Core.TimingController
import AxonVex.Core.Traversal
import AxonVex.Core.UnitRegistry
import AxonVex.Core.Uuid
import AxonVex.Core.WorkerThread
import AxonVex.Lifecycle.Components
import AxonVex.Lifecycle.Moves
import AxonVex.Lifecycle.Pause
import AxonVex.Lifecycle.Refusal
import AxonVex.Lifecycle.Shutdown
import AxonVex.Logging.Blocks
import AxonVex.Logging.Format
import AxonVex.Logging.Logger
import AxonVex.Logging.Stop
import AxonVex.Logging.Written
import AxonVex.Machinery.BoundedFifo
import AxonVex.Machinery.Commuting
import AxonVex.Machinery.Deframer
import AxonVex.Machinery.Descent
import AxonVex.Machinery.Holdings
import AxonVex.Machinery.Ledger
import AxonVex.Machinery.LinkedBlocks
import AxonVex.Machinery.Machine
import AxonVex.Machinery.Members
import AxonVex.Machinery.Mutex
import AxonVex.Machinery.Numerals
import AxonVex.Machinery.Outcome
import AxonVex.Machinery.Passes
import AxonVex.Machinery.Placeholders
import AxonVex.Machinery.Raise
import AxonVex.Machinery.References
import AxonVex.Machinery.Regex
import AxonVex.Machinery.Reported
import AxonVex.Machinery.Roster
import AxonVex.Machinery.Rounding
import AxonVex.Machinery.Rounds
import AxonVex.Machinery.ServedRing
import AxonVex.Machinery.SlidingWindow
import AxonVex.Machinery.Smearing
import AxonVex.Machinery.Splitting
import AxonVex.Machinery.Table
import AxonVex.Machinery.Tally
import AxonVex.Machinery.TicketRing
import AxonVex.Machinery.Visits
import AxonVex.Machinery.WaitFor
import AxonVex.Machinery.Worker
import AxonVex.Machinery.WorkerCustody
import AxonVex.Machinery.WorkerSafety
import AxonVex.Machinery.WorkerSteps
import AxonVex.Machinery.WorkerWaits
import AxonVex.Mission.Brackets
import AxonVex.Mission.Commands
import AxonVex.Mission.Pipeline
import AxonVex.Mission.Throws
import AxonVex.Net.Configure
import AxonVex.Net.Datagrams
import AxonVex.Net.DispatchBarrier
import AxonVex.Net.ErrorAdapter
import AxonVex.Net.Framing
import AxonVex.Net.Sending
import AxonVex.Net.TcpLifecycle
import AxonVex.Net.UdpSocket
import AxonVex.Ownership.Dangling
import AxonVex.Ownership.Fleet
import AxonVex.Ownership.Registries
import AxonVex.Ownership.RegistryIds
import AxonVex.Ownership.SystemPorts
import AxonVex.Ownership.UnitCount
import AxonVex.Ownership.UnitLimit
import AxonVex.Plugins.Accounted
import AxonVex.Plugins.PluginManager
import AxonVex.Ports.AsyncInput
import AxonVex.Ports.Bridges
import AxonVex.Ports.Connections
import AxonVex.Ports.Publisher
import AxonVex.Ports.Signals
import AxonVex.Replay.TraceReplay
import AxonVex.Safety.Cycles
import AxonVex.Safety.EmergencyStop
import AxonVex.Safety.Evaluation
import AxonVex.Safety.Lifecycle
import AxonVex.Safety.Verdict
import AxonVex.Safety.Watchdog
import AxonVex.Scheduling.Admission
import AxonVex.Scheduling.BackOff
import AxonVex.Scheduling.Constraints
import AxonVex.Scheduling.Cycle
import AxonVex.Scheduling.Halted
import AxonVex.Scheduling.Misses
import AxonVex.Scheduling.Period
import AxonVex.Scheduling.Priority
import AxonVex.Scheduling.Selection
import AxonVex.Scheduling.Statistics
import AxonVex.Scheduling.TaskHistory
import AxonVex.Scheduling.TaskPool
import AxonVex.Scheduling.UnitMap
import AxonVex.Scheduling.UnitTasks
import AxonVex.Scheduling.ZeroDeadline
import AxonVex.Spec.Accepted
import AxonVex.Spec.Build
import AxonVex.Spec.Conforms
import AxonVex.Spec.Contents
import AxonVex.Spec.Declared
import AxonVex.Spec.Effects
import AxonVex.Spec.Initialize
import AxonVex.Spec.Json
import AxonVex.Spec.Load
import AxonVex.Spec.Loader
import AxonVex.Spec.Metadata
import AxonVex.Spec.NamedPorts
import AxonVex.Spec.Numbers
import AxonVex.Spec.Parse
import AxonVex.Spec.PortNames
import AxonVex.Spec.PortRefs
import AxonVex.Spec.Readers
import AxonVex.Spec.Rollback
import AxonVex.Spec.Schema
import AxonVex.Spec.Schematic
import AxonVex.Spec.SystemSpec
import AxonVex.Spec.Valid
import AxonVex.Spec.Validate
import AxonVex.Units.Control
import AxonVex.Units.DownSampling
import AxonVex.Units.Metrics
import AxonVex.Units.MovingAverage
import AxonVex.Units.PortUids
import AxonVex.Visualization.BusLifecycle
import AxonVex.Visualization.Delivery
import AxonVex.Visualization.Fanout
import AxonVex.Visualization.Telemetry
