import AxonVex.Core.EventBus
import AxonVex.Core.HealthMonitor
import AxonVex.Core.SystemPortRegistry
import AxonVex.Core.TimingController
import AxonVex.Core.UnitRegistry
import AxonVex.Machinery.Outcome

/-!
# Core/System — the components of a system and how they come and go

`AxonVexSystem` holds the lifecycle, the two registries, and the components that
`initializeComponents` creates and `cleanupComponents` destroys: logger, configuration, timing
controller, and the pool and queue of the event bus.  A component is an object with an identity
(`objectId`), so a component that has been replaced is not the one that was there.

Each helper below states which parts of the system it leaves alone.
-/

namespace AxonVex

open Machinery

/-- `SystemConfiguration`, the fields the modelled operations read. -/
structure SystemConfiguration where
  systemName : String := "AxonVex-System"
  version : String := "1.0.0"
  defaultSchedulingPolicy : SchedulingPolicy := .priorityBased
  systemTickRate : Microseconds := 100
  maxProcessingUnits : ℕ := 1000
  maxMemoryPoolSize : ℕ := 64 * 1024 * 1024
  loggerQueueSize : ℕ := 16384
  enablePerformanceMonitoring : Bool := true
  statisticsUpdateInterval : ℤ := 1
  healthCheckInterval : ℤ := 5
  enableAutoRecovery : Bool := true
  maxRecoveryAttempts : ℕ := 3
  eventPoolSize : UInt64 := 1024
  eventQueueSize : UInt64 := 256
  deriving DecidableEq, Repr

/-- `SystemConfiguration::validate`: the text of the exception, if it throws. -/
def SystemConfiguration.validate (c : SystemConfiguration) : Except String Unit := do
  if c.systemName.isEmpty then throw "System name cannot be empty"
  if c.version.isEmpty then throw "Version cannot be empty"
  if c.maxProcessingUnits = 0 then throw "Max processing units must be greater than 0"
  if c.maxMemoryPoolSize < 1024 * 1024 then throw "Max memory pool size must be at least 1MB"
  if c.loggerQueueSize < 1024 then throw "Logger queue size must be at least 1024"
  if c.statisticsUpdateInterval ≤ 0 then throw "Statistics update interval must be positive"
  if c.healthCheckInterval ≤ 0 then throw "Health check interval must be positive"

/-- `SystemStatistics`: the counters the modelled operations move. -/
structure SystemStatistics where
  totalProcessingUnits : ℕ := 0
  activeProcessingUnits : UInt64 := 0
  totalExecutions : ℕ := 0
  successfulExecutions : ℕ := 0
  failedExecutions : ℕ := 0
  totalStateTransitions : ℕ := 0
  errorCount : ℕ := 0
  recoveryAttempts : ℕ := 0
  successfulRecoveries : ℕ := 0
  deriving DecidableEq, Repr

/-- `getSuccessRate()`. -/
def SystemStatistics.getSuccessRate (st : SystemStatistics) : ℚ :=
  if st.totalExecutions = 0 then 1 else (st.successfulExecutions : ℚ) / st.totalExecutions

/-- `Logger`: the object, and whether its thread has been started. -/
structure Logger where
  objectId : ℕ
  isRunning : Bool := false
  deriving DecidableEq, Repr

/-- `Configuration`: the object. -/
structure Configuration where
  objectId : ℕ
  deriving DecidableEq, Repr

/-- `AxonVexSystem`. -/
structure AxonVexSystem where
  systemConfig : SystemConfiguration
  /-- `sizeof(AxonVexSystem)` -/
  objectSize : ℕ := 0
  lifecycle : LifecycleController := {}
  unitRegistry : UnitRegistry
  systemPorts : SystemPortRegistry := {}
  timingController : Option TimingController := none
  configuration : Option Configuration := none
  logger : Option Logger := none
  statistics : SystemStatistics := {}
  currentRecoveryAttempts : ℕ := 0
  eventBus : EventBus := {}
  healthMonitor : HealthMonitor := {}
  /-- the identity of the next component object -/
  nextObject : ℕ := 0

namespace AxonVexSystem

variable (s : AxonVexSystem)

/-- The constructor. -/
def new (config : SystemConfiguration) (objectSize : ℕ) : AxonVexSystem where
  systemConfig := config
  objectSize := objectSize
  unitRegistry := { maxUnits := config.maxProcessingUnits }

/-- `getState()`. -/
def state : SystemState := s.lifecycle.currentState

/-- `isRunning()`. -/
def isRunning : Bool := s.state == .running

/-- `isHealthy()`. -/
def isHealthy : Bool := s.state != .error && s.state != .fatalError

/-- `isOnWorkerThread()`, for the thread that asks. -/
def isOnWorkerThread (caller : Thread) : Bool :=
  match caller with
  | .dispatch => true
  | .monitor => true
  | .scheduler => s.timingController.isSome
  | .external _ => false

/-- The scheduler, when there is a timing controller. -/
def scheduler? : Option RealTimeScheduler := s.timingController.map (·.scheduler)

/-! ## Events and transitions -/

/-- `eventBus_.publish(event)`; an event the bus drops counts as an error. -/
def publish (event : SystemEvent) : AxonVexSystem :=
  let (eventBus, dropped) := s.eventBus.publish s.lifecycle.isShuttingDown event
  { s with
    eventBus
    statistics := { s.statistics with
      errorCount := s.statistics.errorCount + if dropped then 1 else 0 } }

/-- The event of an operation that leaves the state as it is. -/
def event (type : SystemEventType) (description : String)
    (metadata : List (String × String)) : SystemEvent :=
  { type, oldState := s.state, newState := s.state, description, metadata }

/-- `notifyStateChange(oldState, newState)`. -/
def notifyStateChange (oldState newState : SystemState) : AxonVexSystem :=
  s.publish {
    type := .stateChange, oldState, newState
    description := "System state changed from " ++ oldState.toString ++ " to " ++
      newState.toString }

/-- `transitionState(newState)`: the table, then the hooks of a transition that is taken. -/
def transitionState (newState : SystemState) : AxonVexSystem × Bool :=
  let (lifecycle, valid) := s.lifecycle.transition newState
  if valid then
    ({ s with
        lifecycle
        statistics := { s.statistics with
          totalStateTransitions := s.statistics.totalStateTransitions + 1 }
        }.notifyStateChange s.state newState, true)
  else (s, false)

/-! ## Component lifecycle -/

/-- Where `initializeComponents` may throw a `std::exception`. -/
inductive ComponentFault
  /-- the constructor of the logger: nothing has been replaced -/
  | logger
  /-- the outputs of the new logger, or its start -/
  | loggerSetup
  | eventPool
  | eventQueue
  /-- the constructor of the configuration, if there is none yet -/
  | configuration
  | timingController
  deriving DecidableEq, Repr

/-- A new logger, not yet started, in place of the old one. -/
def newLogger : AxonVexSystem :=
  { s with logger := some ⟨s.nextObject, false⟩, nextObject := s.nextObject + 1 }

/-- `logger_->start()`. -/
def startLogger : AxonVexSystem :=
  { s with logger := s.logger.map fun l => { l with isRunning := true } }

/-- A new event pool in place of the old one. -/
def newEventPool : AxonVexSystem :=
  { s with
    eventBus := s.eventBus.newPool s.nextObject s.systemConfig.eventPoolSize
    nextObject := s.nextObject + 1 }

/-- A new event queue in place of the old one. -/
def newEventQueue : AxonVexSystem :=
  { s with
    eventBus := s.eventBus.newQueue s.nextObject s.systemConfig.eventQueueSize
    nextObject := s.nextObject + 1 }

/-- A configuration, if there is none yet. -/
def newConfiguration : AxonVexSystem :=
  if s.configuration.isSome then s
  else { s with configuration := some ⟨s.nextObject⟩, nextObject := s.nextObject + 1 }

/-- A new timing controller; the old one is destroyed, and with it its scheduler thread and
tasks. -/
def newTimingController : AxonVexSystem :=
  { s with
    timingController := some (.new s.nextObject s.systemConfig.defaultSchedulingPolicy)
    nextObject := s.nextObject + 1 }

/-- `initializeComponents()`, which stops where `fault` says that an exception is thrown. -/
def initializeComponents (fault : Option ComponentFault) : AxonVexSystem × Bool :=
  if fault = some .logger then (s, false)
  else if fault = some .loggerSetup then (s.newLogger, false)
  else
    let s := s.newLogger.startLogger
    if fault = some .eventPool then (s, false)
    else if fault = some .eventQueue then (s.newEventPool, false)
    else
      let s := s.newEventPool.newEventQueue
      if fault = some .configuration ∧ s.configuration.isNone then (s, false)
      else if fault = some .timingController then (s.newConfiguration, false)
      else (s.newConfiguration.newTimingController, true)

/-- `cleanupComponents()`: the components go, the system ports and the queued events with them.
The units stay. -/
def cleanupComponents : AxonVexSystem :=
  { s with
    systemPorts := s.systemPorts.clear
    eventBus := s.eventBus.drain
    timingController := none
    configuration := none
    logger := none }

/-- The default constraints `startComponents` gives a unit. -/
def defaultConstraints : TimingConstraints where
  period := s.systemConfig.systemTickRate
  deadline := s.systemConfig.systemTickRate
  wcet := s.systemConfig.systemTickRate.tdiv 10

/-- `timingController_->scheduleProcessingUnit(unit, constraints)`; an exhausted task pool is
reported to the error callback, which counts it. -/
def scheduleUnit (unit : ProcessingUnit) (constraints : TimingConstraints) (now : TimePoint) :
    AxonVexSystem :=
  match s.timingController with
  | none => s
  | some c =>
    let (c, taskId) := c.scheduleProcessingUnit unit.ptr unit.name constraints now
    { s with
      timingController := some c
      statistics := { s.statistics with
        errorCount := s.statistics.errorCount + if taskId = 0 then 1 else 0 } }

/-- `startComponents()`: the timing controller is started if it is there, and then dereferenced for
each unit whether it is there or not. -/
def startComponents (caller : Thread) (spawned : Bool) (now : TimePoint) :
    Outcome (AxonVexSystem × Bool) :=
  match s.timingController with
  | none => if s.unitRegistry.all.isEmpty then .returned (s, true) else .undefinedBehaviour
  | some c =>
    let (c, threw) := c.start (caller == Thread.scheduler) spawned
    let s := { s with timingController := some c }
    if threw then .returned (s, false)
    else .returned
      (s.unitRegistry.all.foldl (fun s u => s.scheduleUnit u s.defaultConstraints now) s, true)

/-- `pauseComponents()`. -/
def pauseComponents : AxonVexSystem := { s with timingController := s.timingController.map (·.pause) }

/-- `resumeComponents()`. -/
def resumeComponents : AxonVexSystem :=
  { s with timingController := s.timingController.map (·.resume) }

/-- `stopComponents()`: the timing controller is stopped; on the scheduler thread it only halts. -/
def stopComponents (caller : Thread) : AxonVexSystem :=
  { s with timingController := s.timingController.map (·.stop (caller == Thread.scheduler)) }

/-! ## What events and transitions leave alone

An event moves the pool and the queue of the bus and the error count; a transition moves the
lifecycle state besides. -/

variable {s} {e : SystemEvent} {newState : SystemState}

@[simp] theorem publish_lifecycle : (s.publish e).lifecycle = s.lifecycle := rfl
@[simp] theorem publish_systemConfig : (s.publish e).systemConfig = s.systemConfig := rfl
@[simp] theorem publish_objectSize : (s.publish e).objectSize = s.objectSize := rfl
@[simp] theorem publish_unitRegistry : (s.publish e).unitRegistry = s.unitRegistry := rfl
@[simp] theorem publish_systemPorts : (s.publish e).systemPorts = s.systemPorts := rfl
@[simp] theorem publish_timingController : (s.publish e).timingController = s.timingController := rfl
@[simp] theorem publish_configuration : (s.publish e).configuration = s.configuration := rfl
@[simp] theorem publish_logger : (s.publish e).logger = s.logger := rfl
@[simp] theorem publish_currentRecoveryAttempts : (s.publish e).currentRecoveryAttempts = s.currentRecoveryAttempts := rfl
@[simp] theorem publish_healthMonitor : (s.publish e).healthMonitor = s.healthMonitor := rfl
@[simp] theorem publish_nextObject : (s.publish e).nextObject = s.nextObject := rfl

@[simp] theorem publish_bus_running : (s.publish e).eventBus.running = s.eventBus.running :=
  EventBus.publish_running

@[simp] theorem publish_bus_worker : (s.publish e).eventBus.worker = s.eventBus.worker :=
  EventBus.publish_worker

/-- A transition of the table. -/
theorem transitionState_of_valid (h : validTransition s.state newState = true) :
    s.transitionState newState =
      ({ s with
          lifecycle := { s.lifecycle with currentState := newState }
          statistics := { s.statistics with
            totalStateTransitions := s.statistics.totalStateTransitions + 1 }
          }.notifyStateChange s.state newState, true) := by
  rw [transitionState, LifecycleController.transition_of_valid h]
  rfl

/-- **A refused transition changes nothing.** -/
theorem transitionState_of_not_valid (h : validTransition s.state newState = false) :
    s.transitionState newState = (s, false) := by
  rw [transitionState, LifecycleController.transition_of_not_valid h]
  rfl

@[simp] theorem transitionState_snd :
    (s.transitionState newState).2 = validTransition s.state newState := by
  cases h : validTransition s.state newState
  · rw [transitionState_of_not_valid h]
  · rw [transitionState_of_valid h]

theorem transitionState_state :
    (s.transitionState newState).1.state =
      if validTransition s.state newState then newState else s.state := by
  cases h : validTransition s.state newState
  · rw [transitionState_of_not_valid h]
    rfl
  · rw [transitionState_of_valid h]
    rfl

@[simp] theorem transitionState_isShuttingDown :
    (s.transitionState newState).1.lifecycle.isShuttingDown = s.lifecycle.isShuttingDown := by
  cases h : validTransition s.state newState
  · rw [transitionState_of_not_valid h]
  · rw [transitionState_of_valid h]
    rfl

/-- **The frame of a transition**: what neither the lifecycle, nor the statistics, nor an event
reaches. -/
theorem transitionState_frame {α : Sort*} (f : AxonVexSystem → α)
    (hf : ∀ (t : AxonVexSystem) lifecycle statistics, f { t with lifecycle, statistics } = f t)
    (hp : ∀ (t : AxonVexSystem) e, f (t.publish e) = f t) :
    f (s.transitionState newState).1 = f s := by
  cases h : validTransition s.state newState
  · rw [transitionState_of_not_valid h]
  · rw [transitionState_of_valid h]
    exact (hp _ _).trans (hf _ _ _)

@[simp] theorem transitionState_systemConfig :
    (s.transitionState newState).1.systemConfig = s.systemConfig :=
  transitionState_frame (·.systemConfig) (fun _ _ _ => rfl) fun _ _ => rfl

@[simp] theorem transitionState_objectSize :
    (s.transitionState newState).1.objectSize = s.objectSize :=
  transitionState_frame (·.objectSize) (fun _ _ _ => rfl) fun _ _ => rfl

@[simp] theorem transitionState_unitRegistry :
    (s.transitionState newState).1.unitRegistry = s.unitRegistry :=
  transitionState_frame (·.unitRegistry) (fun _ _ _ => rfl) fun _ _ => rfl

@[simp] theorem transitionState_systemPorts :
    (s.transitionState newState).1.systemPorts = s.systemPorts :=
  transitionState_frame (·.systemPorts) (fun _ _ _ => rfl) fun _ _ => rfl

@[simp] theorem transitionState_timingController :
    (s.transitionState newState).1.timingController = s.timingController :=
  transitionState_frame (·.timingController) (fun _ _ _ => rfl) fun _ _ => rfl

@[simp] theorem transitionState_configuration :
    (s.transitionState newState).1.configuration = s.configuration :=
  transitionState_frame (·.configuration) (fun _ _ _ => rfl) fun _ _ => rfl

@[simp] theorem transitionState_logger : (s.transitionState newState).1.logger = s.logger :=
  transitionState_frame (·.logger) (fun _ _ _ => rfl) fun _ _ => rfl

@[simp] theorem transitionState_currentRecoveryAttempts :
    (s.transitionState newState).1.currentRecoveryAttempts = s.currentRecoveryAttempts :=
  transitionState_frame (·.currentRecoveryAttempts) (fun _ _ _ => rfl) fun _ _ => rfl

@[simp] theorem transitionState_healthMonitor :
    (s.transitionState newState).1.healthMonitor = s.healthMonitor :=
  transitionState_frame (·.healthMonitor) (fun _ _ _ => rfl) fun _ _ => rfl

@[simp] theorem transitionState_nextObject :
    (s.transitionState newState).1.nextObject = s.nextObject :=
  transitionState_frame (·.nextObject) (fun _ _ _ => rfl) fun _ _ => rfl

@[simp] theorem transitionState_bus_running :
    (s.transitionState newState).1.eventBus.running = s.eventBus.running :=
  transitionState_frame (·.eventBus.running) (fun _ _ _ => rfl) fun _ _ => publish_bus_running

@[simp] theorem transitionState_bus_worker :
    (s.transitionState newState).1.eventBus.worker = s.eventBus.worker :=
  transitionState_frame (·.eventBus.worker) (fun _ _ _ => rfl) fun _ _ => publish_bus_worker

end AxonVexSystem

end AxonVex
