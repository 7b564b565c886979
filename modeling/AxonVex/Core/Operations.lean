import AxonVex.Core.System

/-!
# Core/Operations — the public operations of a system

Each operation is a function of the system, the thread that calls it, and what the environment
contributes: whether a thread can be created, what a configuration file or a layout yields, a
reading of the clock.  An operation that joins a worker is read with the worker's loop already past
the point where it tests its condition; `initialize` is the one operation that may join a loop
whose condition still holds, and then it blocks.
-/

namespace AxonVex

open Machinery

namespace AxonVexSystem

variable (s : AxonVexSystem) (caller : Thread)

/-! ## Units -/

/-- `registerProcessingUnit(unit, constraints)`: the id of the unit, or nothing when the registry
is full (the source throws).  The unit is scheduled at once only while the system is running. -/
def registerProcessingUnit (unit : ProcessingUnit) (constraints : TimingConstraints)
    (now : TimePoint) : AxonVexSystem × Option ℕ :=
  match s.unitRegistry.add unit with
  | none => (s, none)
  | some (unitId, unitRegistry) =>
    let s := { s with unitRegistry }
    let s :=
      if s.isRunning then
        s.scheduleUnit unit (if constraints.period = 0 then
          { constraints with
            period := s.defaultConstraints.period
            deadline := s.defaultConstraints.deadline
            wcet := s.defaultConstraints.wcet }
          else constraints) now
      else s
    let s := { s with
      statistics := { s.statistics with
        totalProcessingUnits := s.statistics.totalProcessingUnits + 1
        activeProcessingUnits := s.statistics.activeProcessingUnits + 1 } }
    (s.publish (s.event .processingUnitAdded ("Processing unit registered: " ++ unit.name)
      [("unit_id", toString unitId), ("unit_name", unit.name)]), some unitId)

/-- `unregisterProcessingUnit(unitId)`: the unit leaves the registry, its system ports and its task
are removed, and it is destroyed. -/
def unregisterProcessingUnit (unitId : ℕ) : AxonVexSystem × Bool :=
  match s.unitRegistry.remove unitId with
  | none => (s, false)
  | some (unit, unitRegistry) =>
    let s := { s with
      unitRegistry
      systemPorts := s.systemPorts.removeAllForOwner unit.ptr
      timingController := s.timingController.map fun (c : TimingController) =>
        (c.removeProcessingUnit unit.ptr).1
      statistics := { s.statistics with
        activeProcessingUnits := s.statistics.activeProcessingUnits - 1 } }
    (s.publish (s.event .processingUnitRemoved ("Processing unit unregistered: " ++ unit.name)
      [("unit_id", toString unitId), ("unit_name", unit.name)]), true)

/-! ## System ports -/

/-- The input port of a unit at an index: the synchronous ports first, then the asynchronous
ones. -/
def inputPortOf (unit : ProcessingUnit) (unitPortId : ℤ) : Option PortPtr :=
  if unitPortId ∈ unit.inputPorts then some ⟨unit.ptr, .syncInput, unitPortId⟩
  else if unitPortId ∈ unit.asyncInputPorts then some ⟨unit.ptr, .asyncInput, unitPortId⟩
  else none

/-- The output port of a unit at an index. -/
def outputPortOf (unit : ProcessingUnit) (unitPortId : ℤ) : Option PortPtr :=
  if unitPortId ∈ unit.outputPorts then some ⟨unit.ptr, .syncOutput, unitPortId⟩
  else if unitPortId ∈ unit.asyncOutputPorts then some ⟨unit.ptr, .asyncOutput, unitPortId⟩
  else none

/-- The common body of the two port assignments: `find` picks the port, `assign` enters it in its
table, `kind` is the word the event uses. -/
def assignSystemPort (find : ProcessingUnit → ℤ → Option PortPtr)
    (assign : SystemPortRegistry → String → PortPtr → Option SystemPortRegistry) (kind : String)
    (systemPortName : String) (unit : UnitPtr) (unitPortId : ℤ) : AxonVexSystem × Bool :=
  if systemPortName.isEmpty then (s, false)
  else match s.unitRegistry.unitAt unit with
    | none => (s, false)
    | some u =>
      match find u unitPortId with
      | none => (s, false)
      | some port =>
        match assign s.systemPorts systemPortName port with
        | none => (s, false)
        | some systemPorts =>
          let s := { s with systemPorts }
          (s.publish (s.event .configurationChanged
            ("System " ++ kind ++ " port assigned: " ++ systemPortName)
            [("port_name", systemPortName), ("unit_name", u.name),
              ("unit_port_id", toString unitPortId)]), true)

/-- `assignSystemInputPort(systemPortName, unit, unitPortId)`. -/
def assignSystemInputPort (systemPortName : String) (unit : UnitPtr) (unitPortId : ℤ) :
    AxonVexSystem × Bool :=
  s.assignSystemPort inputPortOf SystemPortRegistry.assignInput "input" systemPortName unit
    unitPortId

/-- `assignSystemOutputPort(systemPortName, unit, unitPortId)`. -/
def assignSystemOutputPort (systemPortName : String) (unit : UnitPtr) (unitPortId : ℤ) :
    AxonVexSystem × Bool :=
  s.assignSystemPort outputPortOf SystemPortRegistry.assignOutput "output" systemPortName unit
    unitPortId

/-- `removeSystemInputPort(systemPortName)`. -/
def removeSystemInputPort (systemPortName : String) : AxonVexSystem × Bool :=
  match s.systemPorts.removeInput systemPortName with
  | none => (s, false)
  | some systemPorts => ({ s with systemPorts }, true)

/-- `removeSystemOutputPort(systemPortName)`. -/
def removeSystemOutputPort (systemPortName : String) : AxonVexSystem × Bool :=
  match s.systemPorts.removeOutput systemPortName with
  | none => (s, false)
  | some systemPorts => ({ s with systemPorts }, true)

/-! ## Initialization -/

/-- What a derived class may do to the system while it builds its layout. -/
inductive LayoutCall
  | register (unit : ProcessingUnit) (constraints : TimingConstraints) (now : TimePoint)
  | unregister (unitId : ℕ)
  | assignInput (name : String) (unit : UnitPtr) (unitPortId : ℤ)
  | assignOutput (name : String) (unit : UnitPtr) (unitPortId : ℤ)
  | removeInput (name : String)
  | removeOutput (name : String)

/-- One call of a layout. -/
def layoutCall : LayoutCall → AxonVexSystem
  | .register unit constraints now => (s.registerProcessingUnit unit constraints now).1
  | .unregister unitId => (s.unregisterProcessingUnit unitId).1
  | .assignInput name unit unitPortId => (s.assignSystemInputPort name unit unitPortId).1
  | .assignOutput name unit unitPortId => (s.assignSystemOutputPort name unit unitPortId).1
  | .removeInput name => (s.removeSystemInputPort name).1
  | .removeOutput name => (s.removeSystemOutputPort name).1

/-- How `initializeBlocksLayout()` ends. -/
inductive LayoutResult
  | returnsTrue
  | returnsFalse
  | throwsStdException
  /-- an exception that is not a `std::exception` -/
  | throwsOther
  deriving DecidableEq, Repr

/-- What the environment contributes to `initialize(configPath)`. -/
structure InitializeEnv where
  configPath : String := ""
  /-- where `initializeComponents` throws -/
  fault : Option ComponentFault := none
  /-- `loadFromFile` accepts the file -/
  configLoads : Bool := true
  /-- the calls of `initializeBlocksLayout` -/
  layout : List LayoutCall := []
  layoutResult : LayoutResult := .returnsTrue
  /-- the monitor thread can be created -/
  monitorSpawned : Bool := true
  /-- the dispatch thread can be created -/
  dispatchSpawned : Bool := true

/-- How a call that returns a `bool` ends. -/
inductive CallResult
  | returned (value : Bool)
  /-- a foreign exception passes through -/
  | escaped
  deriving DecidableEq, Repr

/-- The joins at the top of `initialize`: a stale loop whose condition still holds never returns. -/
def joinStaleWorkers : Outcome AxonVexSystem :=
  if s.healthMonitor.worker.alive && s.healthMonitor.loopCondition s.lifecycle.shutdownRequested
  then .blocked
  else
    let s := { s with healthMonitor := s.healthMonitor.join false }
    if s.eventBus.worker.alive && s.eventBus.loopCondition s.lifecycle.shutdownRequested
    then .blocked
    else .returned { s with eventBus := (s.eventBus.join false).1 }

/-- The failure exits of `initialize` that clean up: a transition to `ERROR`, before or after the
components go. -/
def failInitialize : AxonVexSystem := (s.transitionState .error).1.cleanupComponents

/-- The exit through `catch (const std::exception&)`. -/
def catchInitialize : AxonVexSystem := (s.cleanupComponents.transitionState .error).1

/-- The start of the monitor, if monitoring is enabled; the second component is whether it
threw. -/
def startMonitor (spawned : Bool) : AxonVexSystem × Bool :=
  if s.systemConfig.enablePerformanceMonitoring then
    ({ s with healthMonitor := (s.healthMonitor.start spawned).1 },
      (s.healthMonitor.start spawned).2)
  else (s, false)

/-- The start of the event bus. -/
def startDispatch (spawned : Bool) : AxonVexSystem × Bool :=
  ({ s with eventBus := (s.eventBus.start spawned).1 }, (s.eventBus.start spawned).2)

/-- `clearShutdownLatch()`. -/
def clearShutdownLatch : AxonVexSystem :=
  { s with lifecycle := s.lifecycle.clearShutdownLatch }

/-- `initialize` from the start of the workers on. -/
def startWorkers (env : InitializeEnv) : AxonVexSystem × CallResult :=
  let (s, threw) := s.clearShutdownLatch.startMonitor env.monitorSpawned
  if threw then (s.catchInitialize, .returned false)
  else
    let (s, threw) := s.startDispatch env.dispatchSpawned
    if threw then (s.catchInitialize, .returned false)
    else
      let (s, valid) := s.transitionState .initialized
      if valid then (s, .returned true) else (s.cleanupComponents, .returned false)

/-- `initialize` after its transition to `INITIALIZING`. -/
def configureAndStart (env : InitializeEnv) : AxonVexSystem × CallResult :=
  if env.configPath ≠ "" ∧ !(s.configuration.isSome && env.configLoads) then (s, .returned false)
  else
    let s := env.layout.foldl layoutCall s
    match env.layoutResult with
    | .returnsTrue => s.startWorkers env
    | .returnsFalse => (s.failInitialize, .returned false)
    | .throwsStdException => (s.catchInitialize, .returned false)
    | .throwsOther => (s, .escaped)

/-- `initialize(configPath)`. -/
def initializeSystem (env : InitializeEnv) : Outcome (AxonVexSystem × CallResult) :=
  if s.isOnWorkerThread caller then .returned (s, .returned false)
  else s.joinStaleWorkers.andThen fun s =>
    let (s, ok) := s.initializeComponents env.fault
    if !ok then .returned (s, .returned false)
    else
      let (s, valid) := s.transitionState .initializing
      if valid then .returned (s.configureAndStart env) else .returned (s, .returned false)

/-! ## Start, pause, resume, stop -/

/-- What the environment contributes to `start()`. -/
structure StartEnv where
  /-- the scheduler thread can be created -/
  spawned : Bool := true
  now : TimePoint := 0

/-- `start()`. -/
def start (env : StartEnv) : Outcome (AxonVexSystem × Bool) :=
  let (s, valid) := s.transitionState .starting
  if valid then
    (s.startComponents caller env.spawned env.now).andThen fun (s, ok) =>
      if ok then
        let (s, valid) := s.transitionState .running
        if valid then .returned (s, true) else .returned (s.stopComponents caller, false)
      else .returned ((s.transitionState .error).1, false)
  else .returned (s, false)

/-- `pause()`. -/
def pause : AxonVexSystem × Bool :=
  let (s, valid) := s.transitionState .pausing
  if valid then s.pauseComponents.transitionState .paused else (s, false)

/-- `resume()`. -/
def resume : AxonVexSystem × Bool :=
  let (s, valid) := s.transitionState .resuming
  if valid then s.resumeComponents.transitionState .running else (s, false)

/-- `requestStop()` on both polling workers, behind the shutdown latch. -/
def requestWorkerStops : AxonVexSystem :=
  { s with
    lifecycle := s.lifecycle.requestShutdown
    eventBus := s.eventBus.requestStop
    healthMonitor := s.healthMonitor.requestStop }

/-- `stop()`. -/
def stop : AxonVexSystem × Bool :=
  if s.isOnWorkerThread caller then (s, false)
  else
    let (s, valid) := s.transitionState .stopping
    if valid then
      let s := s.requestWorkerStops
      let s := { s with
        eventBus := s.eventBus.stopAndJoin (caller == Thread.dispatch)
        healthMonitor := s.healthMonitor.join (caller == Thread.monitor) }
      ((s.stopComponents caller).cleanupComponents).transitionState .stopped
    else (s, false)

/-! ## Emergency shutdown and reset -/

/-- `emergencyShutdown()` by a caller that gets the teardown mutex. -/
def emergencyShutdown : AxonVexSystem :=
  let s := (s.transitionState .fatalError).1.requestWorkerStops
  let s := { s with
    eventBus := (s.eventBus.stopAndJoin (caller == Thread.dispatch)).drain
    healthMonitor := s.healthMonitor.join (caller == Thread.monitor) }
  let s := s.stopComponents caller
  { s with unitRegistry := s.unitRegistry.clear }

/-- `reset()`.  The system ports stay as they are. -/
def reset : AxonVexSystem :=
  if s.isOnWorkerThread caller then s
  else
    let s := s.emergencyShutdown caller
    let s := { s with
      eventBus := (s.eventBus.join (caller == Thread.dispatch)).1
      healthMonitor := s.healthMonitor.join (caller == Thread.monitor) }
    let s := (s.transitionState .uninitialized).1
    { s with
      statistics := {}
      currentRecoveryAttempts := 0
      unitRegistry := s.unitRegistry.clear.resetIds
      timingController := none
      configuration := none
      logger := none }

/-! ## Health checks and recovery -/

/-- `getMemoryUsage()`. -/
def getMemoryUsage : ℕ :=
  s.objectSize + s.unitRegistry.count * 1024 +
    (s.systemPorts.inputs.keys.length + s.systemPorts.outputs.keys.length) * 64

/-- The readings the constructor wires into the health monitor. -/
def healthProviders : HealthProviders where
  getState := s.state
  timingControllerHealthy := s.timingController.isSome
  configurationHealthy := s.configuration.isSome
  loggerHealthy := s.logger.any (·.isRunning)
  getMemoryUsage := s.getMemoryUsage
  getSuccessRate := s.statistics.getSuccessRate

/-- `getHealth()`. -/
def getHealth : SystemHealth :=
  HealthMonitor.check s.systemConfig.maxMemoryPoolSize s.healthProviders

/-- `attemptRecovery`: the timing controller is stopped and started again, whatever the lifecycle
state is. -/
def attemptRecovery (spawned : Bool) : AxonVexSystem :=
  if !s.systemConfig.enableAutoRecovery then s
  else if s.systemConfig.maxRecoveryAttempts ≤ s.currentRecoveryAttempts then s
  else
    let s := { s with
      currentRecoveryAttempts := s.currentRecoveryAttempts + 1
      statistics := { s.statistics with recoveryAttempts := s.statistics.recoveryAttempts + 1 } }
    let succeed (s : AxonVexSystem) : AxonVexSystem := { s with
      statistics := { s.statistics with
        successfulRecoveries := s.statistics.successfulRecoveries + 1 } }
    match s.timingController with
    | none => succeed s
    | some c =>
      let (c, threw) := (c.stop (caller == Thread.scheduler)).start (caller == Thread.scheduler) spawned
      let s := { s with timingController := some c }
      if threw then s else succeed s

/-- `performHealthCheck()` once `check()` has given `health` and the callbacks have reported. -/
def finishHealthCheck (health : SystemHealth) (callbacks : List (Option SystemHealth))
    (spawned : Bool) : AxonVexSystem :=
  let health := callbacks.foldl .merge health
  let s := s.publish (s.event .healthCheck
    ("Health check completed: " ++ health.overallStatus.toString)
    [("overall_status", health.overallStatus.toString),
      ("warning_count", toString health.warnings.length),
      ("error_count", toString health.errors.length)])
  if health.callsForRecovery && s.systemConfig.enableAutoRecovery then
    s.attemptRecovery caller spawned
  else s

/-- `performHealthCheck()`; `callbacks` are the reports of the user's callbacks, in order. -/
def performHealthCheck (callbacks : List (Option SystemHealth)) (spawned : Bool) : AxonVexSystem :=
  s.finishHealthCheck caller s.getHealth callbacks spawned

/-- `updateStatistics()`. -/
def updateStatistics : AxonVexSystem :=
  match s.timingController with
  | none => s
  | some c => { s with
      statistics := { s.statistics with
        totalExecutions := c.scheduler.statistics.totalExecutions
        successfulExecutions := c.scheduler.statistics.successfulExecutions
        failedExecutions := c.scheduler.statistics.failedExecutions } }

end AxonVexSystem

end AxonVex
