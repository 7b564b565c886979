import AxonVex.Core.Lifecycle
import AxonVex.Core.WorkerThread
import Mathlib.Data.Rat.Floor

/-!
# Core/HealthMonitor — the health report and when it calls for recovery

`HealthMonitor::check` rates the system from a few readings of it; `performHealthCheck` merges what
the user's callbacks report and calls for recovery when the result is `CRITICAL` or `FAILURE`.  In
an error state the rating is `FAILURE` (`check_of_error`), so there a health check always calls
for it.

Ratios are read as exact rationals.
-/

namespace AxonVex

/-- `SystemHealth::Status`. -/
inductive HealthStatus
  | healthy | warning | critical | failure
  deriving DecidableEq, Repr

namespace HealthStatus

/-- The underlying value of the enumerator. -/
def value : HealthStatus → ℕ
  | healthy => 0
  | warning => 1
  | critical => 2
  | failure => 3

theorem value_injective : Function.Injective value := by
  intro s t h
  cases s <;> cases t <;> first | rfl | exact absurd h (by decide)

/-- Enumerators compare by their values. -/
instance : LinearOrder HealthStatus := LinearOrder.lift' value value_injective

theorem le_def {s t : HealthStatus} : s ≤ t ↔ s.value ≤ t.value := Iff.rfl

/-- `getStatusString()`. -/
def toString : HealthStatus → String
  | healthy => "HEALTHY"
  | warning => "WARNING"
  | critical => "CRITICAL"
  | failure => "FAILURE"

end HealthStatus

/-- `SystemHealth`, without its timestamp. -/
structure SystemHealth where
  overallStatus : HealthStatus := .healthy
  timingControllerHealthy : Bool := true
  configurationHealthy : Bool := true
  loggerHealthy : Bool := true
  memoryHealthy : Bool := true
  memoryUtilization : ℚ := 0
  warnings : List String := []
  errors : List String := []
  deriving DecidableEq

/-- What `HealthMonitor::Providers` read of the system. -/
structure HealthProviders where
  getState : SystemState
  timingControllerHealthy : Bool
  configurationHealthy : Bool
  loggerHealthy : Bool
  getMemoryUsage : ℕ
  getSuccessRate : ℚ

/-- Where `monitoringLoop` stands. -/
inductive MonitorPc
  /-- at the loop's condition, or asleep -/
  | polling
  /-- in `performHealthCheck`, with the rating `check()` gave; the callbacks are running -/
  | checking (health : SystemHealth)
  deriving DecidableEq

/-- `HealthMonitor`. -/
structure HealthMonitor where
  enabled : Bool := false
  worker : WorkerThread MonitorPc := .empty

namespace SystemHealth

/-- A report with its status raised to `status`. -/
def raise (h : SystemHealth) (status : HealthStatus) : SystemHealth :=
  { h with overallStatus := max h.overallStatus status }

/-- The merge of one callback's report; `none` is a callback that threw. -/
def merge (h : SystemHealth) : Option SystemHealth → SystemHealth
  | some user =>
    { h.raise user.overallStatus with
      warnings := h.warnings ++ user.warnings, errors := h.errors ++ user.errors }
  | none => { h with errors := h.errors ++ ["Health check callback failed"] }

/-- The report calls for recovery. -/
def callsForRecovery (h : SystemHealth) : Bool :=
  h.overallStatus == .critical || h.overallStatus == .failure

@[simp] theorem le_overallStatus_raise (h : SystemHealth) (status : HealthStatus) :
    h.overallStatus ≤ (h.raise status).overallStatus := le_max_left _ _

/-- No callback lowers a rating. -/
theorem le_overallStatus_merge (h : SystemHealth) (r : Option SystemHealth) :
    h.overallStatus ≤ (h.merge r).overallStatus := by
  cases r with
  | none => exact le_rfl
  | some user => exact h.le_overallStatus_raise user.overallStatus

end SystemHealth

namespace HealthMonitor

variable (m : HealthMonitor)

/-- `check()`, with the limit `maxMemoryPoolSize`. -/
def check (maxMemoryPoolSize : ℕ) (p : HealthProviders) : SystemHealth :=
  let h : SystemHealth := {}
  let h :=
    if p.getState = .error ∨ p.getState = .fatalError then
      { h with overallStatus := .failure, errors := ["System is in error state"] }
    else h
  let utilization : ℚ := (p.getMemoryUsage : ℚ) / maxMemoryPoolSize
  let percent (x : ℚ) : String := ToString.toString ⌊x * 100⌋ ++ "%"
  let h := { h with
    timingControllerHealthy := p.timingControllerHealthy
    configurationHealthy := p.configurationHealthy
    loggerHealthy := p.loggerHealthy
    memoryUtilization := utilization }
  let h :=
    if 9 / 10 < utilization then
      { h.raise .critical with
        errors := h.errors ++ ["Memory utilization critical: " ++ percent utilization] }
    else if 3 / 4 < utilization then
      { h.raise .warning with
        warnings := h.warnings ++ ["Memory utilization high: " ++ percent utilization] }
    else h
  let h :=
    if p.getSuccessRate < 9 / 10 then
      { h.raise .warning with
        warnings := h.warnings ++ ["Success rate low: " ++ percent p.getSuccessRate] }
    else h
  { h with memoryHealthy := decide (utilization < 19 / 20) }

/-- **An error state is rated `FAILURE`**, whatever else is read. -/
theorem check_of_error {maxMemoryPoolSize : ℕ} {p : HealthProviders}
    (h : p.getState = .error ∨ p.getState = .fatalError) :
    (check maxMemoryPoolSize p).overallStatus = .failure := by
  have top (s : HealthStatus) : max HealthStatus.failure s = .failure :=
    max_eq_left (HealthStatus.le_def.mpr (by cases s <;> decide))
  simp only [check, if_pos h]
  split_ifs <;> simp [SystemHealth.raise, top]

/-- `requestStop()`. -/
def requestStop : HealthMonitor := { m with enabled := false }

/-- `monitoringLoop`'s condition, given `shutdownRequested()`. -/
def loopCondition (shutdownRequested : Bool) : Bool := m.enabled && !shutdownRequested

/-- `join()`, once the loop has returned. -/
def join (onMonitorThread : Bool) : HealthMonitor :=
  if onMonitorThread then m else { m with worker := .empty }

/-- `start()`; the second component is whether the call threw. -/
def start (_ : HealthMonitor) (spawned : Bool) : HealthMonitor × Bool :=
  if spawned then (⟨true, .running .polling⟩, false) else (⟨true, .empty⟩, true)

variable {m}

@[simp] theorem requestStop_enabled : m.requestStop.enabled = false := rfl

@[simp] theorem requestStop_worker : m.requestStop.worker = m.worker := rfl

@[simp] theorem join_false_worker : (m.join false).worker = .empty := rfl

/-- Without a handle there is nothing to join. -/
theorem join_of_empty (h : m.worker = .empty) : m.join false = m := by
  obtain ⟨enabled, worker⟩ := m
  obtain rfl : worker = .empty := h
  rfl

@[simp] theorem join_true : m.join true = m := rfl

@[simp] theorem join_enabled (onThread : Bool) : (m.join onThread).enabled = m.enabled := by
  cases onThread <;> rfl

end HealthMonitor

end AxonVex
