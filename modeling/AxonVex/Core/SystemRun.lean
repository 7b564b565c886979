import AxonVex.Core.Operations
import AxonVex.Machinery.Machine

/-!
# Core/SystemRun — runs of a system: operations, worker loops, user code

A run of a system is a sequence of **actions**: an operation called by some thread, or one step of
one of the three worker loops.  Operations called by user code on a worker (an event callback, a
health callback, the body of a task) are calls whose caller is that worker, taken while the worker
stands in user code.

Operations do not overlap.  One that joins a worker is taken when that worker is not in the middle
of something the join would wait for: what the worker still does before it returns is the same
whether it is done inside the join or just before the call.

A unit is new to every registration: the addresses of a run are handed out in increasing order, so
an address that has been destroyed never names a live unit again.
-/

namespace AxonVex

open Machinery

/-- The operations. -/
inductive Call
  | initializeSystem (env : AxonVexSystem.InitializeEnv)
  | start (env : AxonVexSystem.StartEnv)
  | pause
  | resume
  | stop
  | emergencyShutdown
  | reset
  | registerProcessingUnit (unit : ProcessingUnit) (constraints : TimingConstraints)
      (now : TimePoint)
  | unregisterProcessingUnit (unitId : ℕ)
  | assignSystemInputPort (name : String) (unit : UnitPtr) (unitPortId : ℤ)
  | assignSystemOutputPort (name : String) (unit : UnitPtr) (unitPortId : ℤ)
  | removeSystemInputPort (name : String)
  | removeSystemOutputPort (name : String)
  | performHealthCheck (callbacks : List (Option SystemHealth)) (spawned : Bool)

/-- What a run is made of. -/
inductive Action
  /-- a thread calls an operation -/
  | call (caller : Thread) (c : Call)
  /-- a step of `schedulerLoop` -/
  | schedulerStep (step : RealTimeScheduler.LoopStep)
  /-- a step of `dispatchLoop` -/
  | dispatchStep (step : EventBus.Step)
  /-- `monitoringLoop` begins a health check -/
  | beginCheck
  /-- `monitoringLoop` finishes the health check it began -/
  | finishCheck (callbacks : List (Option SystemHealth)) (spawned : Bool)
  /-- `monitoringLoop` refreshes the statistics -/
  | refreshStatistics
  /-- `monitoringLoop` finds its condition false and returns -/
  | exitMonitor

namespace AxonVexSystem

variable (s : AxonVexSystem) (caller : Thread)

/-! ## Calls -/

/-- An operation and how it ends; the operations that return an id or nothing report `true`. -/
def invoke : Call → Outcome (AxonVexSystem × CallResult)
  | .initializeSystem env => s.initializeSystem caller env
  | .start env => (s.start caller env).andThen fun r => .returned (r.1, .returned r.2)
  | .pause => .returned (s.pause.1, .returned s.pause.2)
  | .resume => .returned (s.resume.1, .returned s.resume.2)
  | .stop => .returned ((s.stop caller).1, .returned (s.stop caller).2)
  | .emergencyShutdown => .returned (s.emergencyShutdown caller, .returned true)
  | .reset => .returned (s.reset caller, .returned true)
  | .registerProcessingUnit unit constraints now =>
    let r := s.registerProcessingUnit unit constraints now
    .returned (r.1, .returned r.2.isSome)
  | .unregisterProcessingUnit unitId =>
    let r := s.unregisterProcessingUnit unitId
    .returned (r.1, .returned r.2)
  | .assignSystemInputPort name unit unitPortId =>
    let r := s.assignSystemInputPort name unit unitPortId
    .returned (r.1, .returned r.2)
  | .assignSystemOutputPort name unit unitPortId =>
    let r := s.assignSystemOutputPort name unit unitPortId
    .returned (r.1, .returned r.2)
  | .removeSystemInputPort name =>
    let r := s.removeSystemInputPort name
    .returned (r.1, .returned r.2)
  | .removeSystemOutputPort name =>
    let r := s.removeSystemOutputPort name
    .returned (r.1, .returned r.2)
  | .performHealthCheck callbacks spawned =>
    .returned (s.performHealthCheck caller callbacks spawned, .returned true)

/-- The health report `health`, merged with the callbacks' reports, makes `performHealthCheck`
restart the timing controller. -/
def recoveryFires (health : SystemHealth) (callbacks : List (Option SystemHealth)) : Bool :=
  (callbacks.foldl .merge health).callsForRecovery && s.systemConfig.enableAutoRecovery &&
    decide (s.currentRecoveryAttempts < s.systemConfig.maxRecoveryAttempts) &&
    s.timingController.isSome

/-- The call joins workers. -/
def joinsWorkers : Call → Bool
  | .initializeSystem _ => !s.isOnWorkerThread caller
  | .stop => !s.isOnWorkerThread caller && validTransition s.state .stopping
  | .emergencyShutdown => true
  | .reset => !s.isOnWorkerThread caller
  | .performHealthCheck callbacks _ => s.recoveryFires s.getHealth callbacks
  | .start _ => false
  | .pause => false
  | .resume => false
  | .registerProcessingUnit _ _ _ => false
  | .unregisterProcessingUnit _ => false
  | .assignSystemInputPort _ _ _ => false
  | .assignSystemOutputPort _ _ _ => false
  | .removeSystemInputPort _ => false
  | .removeSystemOutputPort _ => false

/-- The thread is there and stands in user code. -/
def isPresent : Bool :=
  match caller with
  | .external _ => true
  | .dispatch => s.eventBus.worker.pc?.any fun pc => pc != .polling
  | .monitor => s.healthMonitor.worker.pc?.any fun pc => pc != .polling
  | .scheduler => s.scheduler?.any fun r => r.worker.pc?.any fun pc => pc.executing?.isSome

/-- No worker but the caller is in the middle of something a join would wait for. -/
def isQuiescent : Bool :=
  (caller == Thread.scheduler ||
    s.scheduler?.all fun r => r.worker.pc?.all fun pc => pc.betweenTurns) &&
  (caller == Thread.monitor || s.healthMonitor.worker.pc?.all fun pc => pc == .polling)

/-- The units a call of a layout brings into the system. -/
def LayoutCall.newUnits : LayoutCall → List UnitPtr
  | .register unit _ _ => [unit.ptr]
  | _ => []

/-- The units a call brings into the system. -/
def newUnits : Call → List UnitPtr
  | .registerProcessingUnit unit _ _ => [unit.ptr]
  | .initializeSystem env => env.layout.flatMap LayoutCall.newUnits
  | _ => []

/-! ## Steps of the workers -/

/-- A step of the scheduler loop; a failed execution ends in the error callback, which counts. -/
def schedulerStep (step : RealTimeScheduler.LoopStep) : Option AxonVexSystem :=
  s.timingController.bind fun c => (c.scheduler.loopStep step).map fun scheduler =>
    { s with
      timingController := some { c with scheduler }
      statistics := { s.statistics with
        errorCount := s.statistics.errorCount + match c.scheduler.worker.pc? with
          | some (.reporting _ times _) => times
          | _ => 0 } }

/-- A step of the dispatch loop. -/
def dispatchStep (step : EventBus.Step) : Option AxonVexSystem :=
  (s.eventBus.loopStep s.lifecycle.shutdownRequested step).map fun eventBus => { s with eventBus }

/-- `monitoringLoop` begins a health check. -/
def beginCheck : Option AxonVexSystem :=
  if s.healthMonitor.worker = .running .polling ∧
      s.healthMonitor.loopCondition s.lifecycle.shutdownRequested = true then
    some { s with healthMonitor := { s.healthMonitor with worker := .running (.checking s.getHealth) } }
  else none

/-- `monitoringLoop` finishes a health check. -/
def finishCheck (callbacks : List (Option SystemHealth)) (spawned : Bool) : Option AxonVexSystem :=
  match s.healthMonitor.worker.pc? with
  | some (.checking health) =>
    if s.recoveryFires health callbacks && !s.isQuiescent .monitor then none
    else
      let s := s.finishHealthCheck .monitor health callbacks spawned
      some { s with healthMonitor := { s.healthMonitor with worker := .running .polling } }
  | _ => none

/-- `monitoringLoop` refreshes the statistics. -/
def refreshStatistics : Option AxonVexSystem :=
  if s.healthMonitor.worker = .running .polling ∧
      s.healthMonitor.loopCondition s.lifecycle.shutdownRequested = true then
    some s.updateStatistics
  else none

/-- `monitoringLoop` returns. -/
def exitMonitor : Option AxonVexSystem :=
  if s.healthMonitor.worker = .running .polling ∧
      s.healthMonitor.loopCondition s.lifecycle.shutdownRequested = false then
    some { s with healthMonitor := { s.healthMonitor with worker := .exited } }
  else none

/-- A step of one of the three worker loops. -/
def workerStep : Action → Option AxonVexSystem
  | .call _ _ => none
  | .schedulerStep step => s.schedulerStep step
  | .dispatchStep step => s.dispatchStep step
  | .beginCheck => s.beginCheck
  | .finishCheck callbacks spawned => s.finishCheck callbacks spawned
  | .refreshStatistics => s.refreshStatistics
  | .exitMonitor => s.exitMonitor

/-- The thread that restarts the timing controller in this action, if its health check calls for
recovery. -/
def recoversOn : Action → Option Thread
  | .call caller (.performHealthCheck callbacks _) =>
    if s.recoveryFires s.getHealth callbacks then some caller else none
  | .finishCheck callbacks _ =>
    match s.healthMonitor.worker.pc? with
    | some (.checking health) => if s.recoveryFires health callbacks then some .monitor else none
    | _ => none
  | _ => none

end AxonVexSystem

/-! ## The machine -/

/-- A system in a run, and the first address not yet given to a unit. -/
structure SystemRun where
  system : AxonVexSystem
  nextPtr : UnitPtr := 0

namespace SystemRun

/-- The first free address after new units at the given addresses, if they are given out in
order. -/
def claimPtrs (next : UnitPtr) : List UnitPtr → Option UnitPtr
  | [] => some next
  | p :: ps => if next ≤ p then claimPtrs (p + 1) ps else none

theorem claimPtrs_append (next : UnitPtr) (ps qs : List UnitPtr) :
    claimPtrs next (ps ++ qs) = (claimPtrs next ps).bind fun m => claimPtrs m qs := by
  induction ps generalizing next with
  | nil => rfl
  | cons p ps ih =>
    by_cases h : next ≤ p
    · simp [claimPtrs, h, ih]
    · simp [claimPtrs, h]

theorem le_of_claimPtrs {next m : UnitPtr} {ps : List UnitPtr}
    (h : claimPtrs next ps = some m) : next ≤ m := by
  induction ps generalizing next with
  | nil => exact (Option.some.inj h).le
  | cons p ps ih =>
    unfold claimPtrs at h
    split at h
    next hp => exact hp.trans ((Nat.le_succ p).trans (ih h))
    · cases h

/-- The result of a call, where the call is taken. -/
def callResult (r : SystemRun) (caller : Thread) (c : Call) :
    Option (AxonVexSystem × AxonVexSystem.CallResult) :=
  if r.system.isPresent caller &&
      (!r.system.joinsWorkers caller c || r.system.isQuiescent caller) then
    (r.system.invoke caller c).toOption
  else none

/-- The call destroys every unit: an emergency shutdown, or a reset that is not refused. -/
def clearsUnits (r : SystemRun) : Action → Bool
  | .call _ .emergencyShutdown => true
  | .call caller .reset => !r.system.isOnWorkerThread caller
  | _ => false

/-- How the call of an action ends. -/
def returned (r : SystemRun) : Action → Option AxonVexSystem.CallResult
  | .call caller c => (r.callResult caller c).map (·.2)
  | _ => none

/-- One action. -/
def step (r : SystemRun) : Action → Option SystemRun
  | .call caller c =>
    (claimPtrs r.nextPtr (AxonVexSystem.newUnits c)).bind fun nextPtr =>
      (r.callResult caller c).map fun (system, _) => { system, nextPtr }
  | a => (r.system.workerStep a).map fun system => { r with system }

/-- A system as constructed. -/
def fresh (config : SystemConfiguration) (objectSize : ℕ) : SystemRun :=
  ⟨AxonVexSystem.new config objectSize, 0⟩

/-- **The runs of a system**, from its construction with a configuration that validates. -/
def machine : Machine SystemRun Action where
  init r := ∃ config objectSize, config.validate = .ok () ∧ r = fresh config objectSize
  step := step

/-- A system with the default configuration begins a run. -/
theorem reachable_fresh : machine.Reachable (fresh {} 0) := .init ⟨{}, 0, by decide, rfl⟩

variable {r t : SystemRun} {caller : Thread} {c : Call}

/-- A call that is taken returns from `invoke`. -/
theorem invoke_of_step (h : r.step (.call caller c) = some t) :
    ∃ system nextPtr res, t = ⟨system, nextPtr⟩ ∧
      claimPtrs r.nextPtr (AxonVexSystem.newUnits c) = some nextPtr ∧
      r.system.invoke caller c = .returned (system, res) ∧
      r.returned (.call caller c) = some res := by
  obtain ⟨nextPtr, hn, h⟩ := Option.bind_eq_some_iff.mp h
  obtain ⟨⟨system, res⟩, hres, rfl⟩ := Option.map_eq_some_iff.mp h
  have hreturned : r.returned (.call caller c) = some res := by simp [returned, hres]
  unfold callResult at hres
  split at hres
  · exact ⟨system, nextPtr, res, rfl, hn, Outcome.toOption_eq_some.mp hres, hreturned⟩
  · exact absurd hres (by simp)

end SystemRun

end AxonVex
