import AxonVex.Core.SystemRun

/-!
# Concurrent/Shutdown — an emergency shutdown one step at a time

`emergencyShutdown()` may be called by several threads at once, on worker threads too.  Between two
of its steps the other threads go on: it takes the state mutex for its transition, stores the latch
and the stop flags, **tries** the teardown mutex, and only the thread that gets it joins the workers,
halts the scheduler and destroys the units.
-/

namespace AxonVex

open Machinery

/-- Where a call of `emergencyShutdown()` stands: what it is about to do. -/
inductive ShutdownPc
  /-- the transition to `FATAL_ERROR` -/
  | transition
  /-- `requestShutdown()` -/
  | latch
  | stopBus
  | stopMonitor
  | tryTeardown
  /-- the flag that `stopAndJoin` clears again -/
  | stopBusAgain
  | joinBus
  | drain
  | joinMonitor
  /-- the first half of the scheduler's `stop()` -/
  | halt
  | joinScheduler
  /-- `unitRegistry_.clear()` -/
  | clear
  /-- the units that were cleared are destroyed -/
  | destroy (units : List ProcessingUnit)
  /-- the teardown mutex is released -/
  | release
  | done

/-- The thread of a worker's step. -/
def Action.workerThread : Action → Option Thread
  | .schedulerStep _ => some .scheduler
  | .dispatchStep _ => some .dispatch
  | .call _ _ => none
  | .beginCheck => some .monitor
  | .finishCheck _ _ => some .monitor
  | .refreshStatistics => some .monitor
  | .exitMonitor => some .monitor

/-- What the threads share: the system and its teardown mutex, with the thread that holds it. -/
structure Shared where
  system : AxonVexSystem
  teardown : Option Thread := none

namespace Shared

variable (m : Shared) (caller : Thread)

/-- A step that changes the system only. -/
def put (system : AxonVexSystem) : Shared := { m with system }

/-- The joins wait for loops that have not returned, except on the loop's own thread. -/
def busJoinable : Bool := caller == Thread.dispatch || !m.system.eventBus.worker.alive

/-- The same for the monitor. -/
def monitorJoinable : Bool := caller == Thread.monitor || !m.system.healthMonitor.worker.alive

/-- The same for the scheduler. -/
def schedulerJoinable : Bool :=
  caller == Thread.scheduler || m.system.scheduler?.all fun r => !r.loopAlive

/-- The next step of `emergencyShutdown()`; `none` while it waits. -/
def shutdownStep : ShutdownPc → Option (Shared × ShutdownPc)
  | .transition => some (m.put (m.system.transitionState .fatalError).1, .latch)
  | .latch => some (m.put { m.system with lifecycle := m.system.lifecycle.requestShutdown }, .stopBus)
  | .stopBus => some (m.put { m.system with eventBus := m.system.eventBus.requestStop }, .stopMonitor)
  | .stopMonitor =>
    some (m.put { m.system with healthMonitor := m.system.healthMonitor.requestStop }, .tryTeardown)
  | .tryTeardown =>
    if m.teardown.isSome then some (m, .done)
    else some ({ m with teardown := some caller }, .stopBusAgain)
  | .stopBusAgain => some (m.put { m.system with eventBus := m.system.eventBus.requestStop }, .joinBus)
  | .joinBus =>
    if m.busJoinable caller then
      let (bus, joined) := m.system.eventBus.join (caller == Thread.dispatch)
      some (m.put { m.system with eventBus := if joined then bus.drain else bus }, .drain)
    else none
  | .drain => some (m.put { m.system with eventBus := m.system.eventBus.drain }, .joinMonitor)
  | .joinMonitor =>
    if m.monitorJoinable caller then
      some (m.put { m.system with
        healthMonitor := m.system.healthMonitor.join (caller == Thread.monitor) }, .halt)
    else none
  | .halt =>
    some (m.put { m.system with
      timingController := m.system.timingController.map fun (c : TimingController) =>
        { c with scheduler := c.scheduler.halt } }, .joinScheduler)
  | .joinScheduler =>
    if m.schedulerJoinable caller then some (m.put (m.system.stopComponents caller), .clear)
    else none
  | .clear =>
    some (m.put { m.system with unitRegistry := m.system.unitRegistry.clear },
      .destroy m.system.unitRegistry.all)
  | .destroy _ => some (m, .release)
  | .release => some ({ m with teardown := none }, .done)
  | .done => none

variable {m caller} {m' : Shared} {pc pc' : ShutdownPc}

/-- **What a step of the shutdown does to the state**: the first one sets `FATAL_ERROR`, the others
leave it. -/
theorem shutdownStep_state (h : m.shutdownStep caller pc = some (m', pc')) :
    m'.system.state = .fatalError ∧ pc = .transition ∨
      m'.system.state = m.system.state ∧ pc ≠ .transition := by
  cases pc with
  | transition =>
    obtain ⟨⟩ := h
    exact .inl ⟨AxonVexSystem.transitionState_state.trans (if_pos rfl), rfl⟩
  | joinBus =>
    simp only [shutdownStep] at h
    split at h
    · obtain ⟨⟩ := h
      exact .inr ⟨rfl, by simp⟩
    · cases h
  | tryTeardown =>
    simp only [shutdownStep] at h
    split at h <;> obtain ⟨rfl, rfl⟩ := pair_inj h <;>
      exact .inr ⟨rfl, by simp⟩
  | joinMonitor =>
    simp only [shutdownStep] at h
    split at h
    · obtain ⟨⟩ := h
      exact .inr ⟨rfl, by simp⟩
    · cases h
  | joinScheduler =>
    simp only [shutdownStep] at h
    split at h
    · obtain ⟨⟩ := h
      exact .inr ⟨rfl, by simp⟩
    · cases h
  | done => exact absurd h (by simp [shutdownStep])
  | _ =>
    obtain ⟨⟩ := h
    exact .inr ⟨rfl, by simp⟩

end Shared

end AxonVex
