import AxonVex.Concurrent.Shutdown
import Mathlib.Logic.Function.Basic

/-!
# Concurrent/Teardown — the operations that take a system apart, one step at a time

Any number of threads call `unregisterProcessingUnit`, `emergencyShutdown`, `reset` and `stop` while
the three worker loops go on.  Between two steps of a call everything else may happen; what orders
the calls are the teardown mutex, the joins, and that a worker whose user code is inside a call goes
on when the call returns.

A health check may call for **recovery**, which stops and starts the scheduler with no regard to the
teardown mutex; it is a call like the others.
-/

namespace AxonVex

open Machinery

/-- Where a call of `unregisterProcessingUnit` stands. -/
inductive UnregisterPc
  /-- the unit leaves the registry -/
  | remove (unitId : ℕ)
  /-- its system ports go -/
  | removePorts (unitId : ℕ) (unit : ProcessingUnit)
  /-- its task goes -/
  | removeTask (unitId : ℕ) (unit : ProcessingUnit)
  /-- the unit is destroyed -/
  | destroy (unitId : ℕ) (unit : ProcessingUnit)
  /-- the count and the event -/
  | finish (unitId : ℕ) (unitName : String)

/-- Where a call of `reset` stands. -/
inductive ResetPc
  /-- in its `emergencyShutdown()` -/
  | shutdown (pc : ShutdownPc)
  /-- waiting for whoever has the teardown mutex -/
  | waitTeardown
  | joinBus
  | joinMonitor
  /-- the transition to `UNINITIALIZED`, and the counters -/
  | transition
  /-- `unitRegistry_.clear()` -/
  | clear
  /-- the units that were cleared are destroyed -/
  | destroy (units : List ProcessingUnit)
  /-- the components are destroyed, the scheduler's destructor joins its thread -/
  | components

/-- Where a call of `stop` stands. -/
inductive StopPc
  /-- the transition to `STOPPING` -/
  | transition
  | latch
  | stopBus
  | stopMonitor
  /-- the teardown mutex is acquired -/
  | acquire
  /-- the flag that `stopAndJoin` clears again -/
  | stopBusAgain
  | joinBus
  | joinMonitor
  /-- the first half of the scheduler's `stop()` -/
  | halt
  | joinScheduler
  /-- `cleanupComponents()` -/
  | cleanup
  /-- the teardown mutex is released -/
  | release
  /-- the transition to `STOPPED` -/
  | finish
  /-- an exception, or components that do not stop: the teardown mutex is released -/
  | abandon
  /-- in the `emergencyShutdown()` of the failure exits -/
  | shutdown (pc : ShutdownPc)

/-- Where a recovery stands. -/
inductive RecoverPc
  | halt (spawned : Bool)
  | joinScheduler (spawned : Bool)
  /-- `timingController_->start()` -/
  | restart (spawned : Bool)

/-- A call in progress. -/
inductive TeardownCall
  | unregister (pc : UnregisterPc)
  | shutdown (pc : ShutdownPc)
  | reset (pc : ResetPc)
  | stop (pc : StopPc)
  | recover (pc : RecoverPc)

namespace Shared

variable (m : Shared) (caller : Thread)

/-- The next step of `unregisterProcessingUnit`. -/
def unregisterStep : UnregisterPc → Shared × Option UnregisterPc
  | .remove unitId => match m.system.unitRegistry.remove unitId with
    | none => (m, none)
    | some (unit, unitRegistry) =>
      (m.put { m.system with unitRegistry }, some (.removePorts unitId unit))
  | .removePorts unitId unit =>
    (m.put { m.system with systemPorts := m.system.systemPorts.removeAllForOwner unit.ptr },
      some (.removeTask unitId unit))
  | .removeTask unitId unit =>
    (m.put { m.system with
      timingController := m.system.timingController.map fun (c : TimingController) =>
        (c.removeProcessingUnit unit.ptr).1 }, some (.destroy unitId unit))
  | .destroy unitId unit => (m, some (.finish unitId unit.name))
  | .finish unitId unitName =>
    let s := { m.system with
      statistics := { m.system.statistics with
        activeProcessingUnits := m.system.statistics.activeProcessingUnits - 1 } }
    (m.put (s.publish (s.event .processingUnitRemoved ("Processing unit unregistered: " ++ unitName)
      [("unit_id", toString unitId), ("unit_name", unitName)])), none)

/-- The system with its event bus joined, and drained if there was a thread to join. -/
def joinedBus : AxonVexSystem :=
  let (bus, joined) := m.system.eventBus.join (caller == Thread.dispatch)
  { m.system with eventBus := if joined then bus.drain else bus }

/-- The system with its scheduler halted. -/
def halted : AxonVexSystem :=
  { m.system with
    timingController := m.system.timingController.map fun (c : TimingController) =>
      { c with scheduler := c.scheduler.halt } }

/-- The next step of `reset`; `none` while it waits. -/
def resetStep : ResetPc → Option (Shared × Option ResetPc)
  | .shutdown pc => (m.shutdownStep caller pc).map fun (m, pc) => (m, some (match pc with
    | .done => .waitTeardown
    | pc => .shutdown pc))
  | .waitTeardown => if m.teardown.isSome then none else some (m, some .joinBus)
  | .joinBus =>
    if m.busJoinable caller then
      some (m.put { m.system with
        eventBus := (m.system.eventBus.join (caller == Thread.dispatch)).1 }, some .joinMonitor)
    else none
  | .joinMonitor =>
    if m.monitorJoinable caller then
      some (m.put { m.system with
        healthMonitor := m.system.healthMonitor.join (caller == Thread.monitor) }, some .transition)
    else none
  | .transition =>
    some (m.put { (m.system.transitionState .uninitialized).1 with
      statistics := {}, currentRecoveryAttempts := 0 }, some .clear)
  | .clear =>
    some (m.put { m.system with unitRegistry := m.system.unitRegistry.clear },
      some (.destroy m.system.unitRegistry.all))
  | .destroy _ => some (m, some .components)
  | .components =>
    if m.schedulerJoinable caller then
      some (m.put { m.system with
        unitRegistry := m.system.unitRegistry.resetIds
        timingController := none
        configuration := none
        logger := none }, none)
    else none

/-- The next step of `stop`; `none` while it waits. -/
def stopStep : StopPc → Option (Shared × Option StopPc)
  | .transition =>
    let (system, valid) := m.system.transitionState .stopping
    some (m.put system, if valid then some .latch else none)
  | .latch =>
    some (m.put { m.system with lifecycle := m.system.lifecycle.requestShutdown }, some .stopBus)
  | .stopBus =>
    some (m.put { m.system with eventBus := m.system.eventBus.requestStop }, some .stopMonitor)
  | .stopMonitor =>
    some (m.put { m.system with healthMonitor := m.system.healthMonitor.requestStop }, some .acquire)
  | .acquire =>
    if m.teardown.isSome then none
    else some ({ m with teardown := some caller }, some .stopBusAgain)
  | .stopBusAgain =>
    some (m.put { m.system with eventBus := m.system.eventBus.requestStop }, some .joinBus)
  | .joinBus =>
    if m.busJoinable caller then some (m.put (m.joinedBus caller), some .joinMonitor) else none
  | .joinMonitor =>
    if m.monitorJoinable caller then
      some (m.put { m.system with
        healthMonitor := m.system.healthMonitor.join (caller == Thread.monitor) }, some .halt)
    else none
  | .halt => some (m.put m.halted, some .joinScheduler)
  | .joinScheduler =>
    if m.schedulerJoinable caller then some (m.put (m.system.stopComponents caller), some .cleanup)
    else none
  | .cleanup => some (m.put m.system.cleanupComponents, some .release)
  | .release => some ({ m with teardown := none }, some .finish)
  | .finish => some (m.put (m.system.transitionState .stopped).1, none)
  | .abandon => some ({ m with teardown := none }, some (.shutdown .transition))
  | .shutdown pc => (m.shutdownStep caller pc).map fun (m, pc) => (m, match pc with
    | .done => none
    | pc => some (.shutdown pc))

/-- The next step of a recovery; `none` while it waits. -/
def recoverStep : RecoverPc → Option (Shared × Option RecoverPc)
  | .halt spawned => some (m.put m.halted, some (.joinScheduler spawned))
  | .joinScheduler spawned =>
    if m.schedulerJoinable caller then
      some (m.put (m.system.stopComponents caller), some (.restart spawned))
    else none
  | .restart spawned =>
    if m.schedulerJoinable caller || m.system.scheduler?.any (·.running) then
      let system := match m.system.timingController with
        | none => m.system
        | some c => { m.system with
            timingController := some (c.start (caller == Thread.scheduler) spawned).1 }
      -- the monitor is back at its loop's condition
      some (m.put (if caller = .monitor then
        { system with healthMonitor := { system.healthMonitor with worker := .running .polling } }
        else system), none)
    else none

/-- The next step of a call, and what is left of the call. -/
def callStep : TeardownCall → Option (Shared × Option TeardownCall)
  | .unregister pc =>
    let (m, pc) := m.unregisterStep pc
    some (m, pc.map .unregister)
  | .shutdown pc => (m.shutdownStep caller pc).map fun (m, pc) => (m, match pc with
    | .done => none
    | pc => some (.shutdown pc))
  | .reset pc => (m.resetStep caller pc).map fun (m, pc) => (m, pc.map .reset)
  | .stop pc => (m.stopStep caller pc).map fun (m, pc) => (m, pc.map .stop)
  | .recover pc => (m.recoverStep caller pc).map fun (m, pc) => (m, pc.map .recover)

end Shared

/-- A system that is being taken apart. -/
structure Teardown where
  shared : Shared
  /-- the calls in progress -/
  calls : Thread → Option TeardownCall := fun _ => none

namespace Teardown

variable (p : Teardown)

/-- The system. -/
abbrev system : AxonVexSystem := p.shared.system

/-- What a thread may call. -/
inductive Beginning
  | unregisterProcessingUnit (unitId : ℕ)
  | emergencyShutdown
  | reset
  | stop
  /-- `attemptRecovery`, from a health check -/
  | attemptRecovery (spawned : Bool)

/-- What the threads do. -/
inductive Move
  /-- a thread makes a call -/
  | begin (thread : Thread) (c : Beginning)
  /-- a thread takes the next step of its call -/
  | advance (thread : Thread)
  /-- an exception in the part of `stop()` that has the teardown mutex -/
  | throws (thread : Thread)
  /-- a step of a worker loop -/
  | worker (step : Action)

/-- A call as it begins: refused ones are over before they begin. -/
def beginCall (thread : Thread) : Beginning → Option (AxonVexSystem × TeardownCall)
  | .unregisterProcessingUnit unitId => some (p.system, .unregister (.remove unitId))
  | .emergencyShutdown => some (p.system, .shutdown .transition)
  | .reset =>
    if p.system.isOnWorkerThread thread then none
    else some (p.system, .reset (.shutdown .transition))
  | .stop => if p.system.isOnWorkerThread thread then none else some (p.system, .stop .transition)
  | .attemptRecovery spawned =>
    if p.system.systemConfig.enableAutoRecovery = true ∧
        p.system.currentRecoveryAttempts < p.system.systemConfig.maxRecoveryAttempts then
      some ({ p.system with
        currentRecoveryAttempts := p.system.currentRecoveryAttempts + 1
        statistics := { p.system.statistics with
          recoveryAttempts := p.system.statistics.recoveryAttempts + 1 } }, .recover (.halt spawned))
    else none

/-- Where an exception leads. -/
def thrown : TeardownCall → Option TeardownCall
  | .stop .joinBus => some (.stop .abandon)
  | .stop .joinMonitor => some (.stop .abandon)
  | .stop .joinScheduler => some (.stop .abandon)
  | .stop .cleanup => some (.stop .abandon)
  | _ => none

/-- The state after a thread's step. -/
def after (thread : Thread) (shared : Shared) (call : Option TeardownCall) : Teardown :=
  { shared, calls := Function.update p.calls thread call }

/-- One step.  A worker whose user code is in a call goes on when the call returns, and a health
check that calls for recovery makes the call. -/
def step : Move → Option Teardown
  | .begin thread c =>
    if (p.calls thread).isNone ∧ p.system.isPresent thread = true then
      (p.beginCall thread c).map fun (system, call) => p.after thread (p.shared.put system) (some call)
    else none
  | .advance thread => (p.calls thread).bind fun call =>
    (p.shared.callStep thread call).map fun (shared, call) => p.after thread shared call
  | .throws thread => (p.calls thread).bind fun call =>
    (thrown call).map fun call => p.after thread p.shared (some call)
  | .worker a =>
    if a.workerThread.all (fun thread => (p.calls thread).isNone) ∧ p.system.recoversOn a = none then
      (p.system.workerStep a).map fun system => { p with shared := p.shared.put system }
    else none

/-- **The runs of a teardown** of a system with the property `start`. -/
def machine (start : AxonVexSystem → Prop) : Machine Teardown Move where
  init p := start p.system ∧ p.shared.teardown = none ∧ ∀ thread, p.calls thread = none
  step := step

end Teardown

end AxonVex
