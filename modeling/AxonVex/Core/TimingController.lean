import AxonVex.Core.Scheduler
import Mathlib.Data.Rat.Floor

/-!
# Core/TimingController — units on the scheduler

`TimingController` owns a scheduler and remembers, for each unit it has scheduled, the id of the
unit's latest task.  Its other operations are the scheduler's.
-/

namespace AxonVex

open Machinery

/-- `TimingController`; `objectId` tells one object from the next that replaces it. -/
structure TimingController where
  objectId : ℕ
  scheduler : RealTimeScheduler
  /-- `unitToTaskId_` -/
  unitToTaskId : Table UnitPtr ℕ := ∅
  /-- `executionFrequency_`, in Hz -/
  executionFrequency : ℚ := 100

namespace TimingController

variable (c : TimingController)

/-- The constructor. -/
def new (objectId : ℕ) (policy : SchedulingPolicy) : TimingController where
  objectId := objectId
  scheduler := .new policy

/-- `createDefaultConstraints(frequency)`. -/
def createDefaultConstraints (frequency : ℚ) : TimingConstraints :=
  if 0 < frequency then
    let period : Microseconds := ⌊1000000 / frequency⌋
    { period, deadline := period, wcet := period.tdiv 10 }
  else {}

/-- `scheduleProcessingUnit(unit, constraints)`: the id of the new task, or 0. -/
def scheduleProcessingUnit (unit : UnitPtr) (name : String) (constraints : TimingConstraints)
    (now : TimePoint) : TimingController × ℕ :=
  let finalConstraints :=
    if constraints.period = 0 then createDefaultConstraints c.executionFrequency else constraints
  let (scheduler, taskId) := c.scheduler.addTask unit name finalConstraints now
  if taskId ≠ 0 then
    ({ c with scheduler, unitToTaskId := c.unitToTaskId.insert unit taskId }, taskId)
  else ({ c with scheduler }, taskId)

/-- `removeProcessingUnit(unit)`: the mapping goes first, then the task it names. -/
def removeProcessingUnit (unit : UnitPtr) : TimingController × Bool :=
  match c.unitToTaskId.lookup unit with
  | none => (c, false)
  | some taskId =>
    let (scheduler, removed) := c.scheduler.removeTask taskId
    ({ c with scheduler, unitToTaskId := c.unitToTaskId.erase unit }, removed)

/-- What `find_if` over `unitToTaskId_` may find: the order of its iteration is not fixed. -/
def mayFind (taskId : ℕ) : Option UnitPtr → Bool
  | some unit => c.unitToTaskId.lookup unit == some taskId
  | none => !c.unitToTaskId.values.contains taskId

/-- `removeProcessingUnit(taskId)`: the task goes first, then the mapping `found`. -/
def removeProcessingUnitById (taskId : ℕ) (found : Option UnitPtr) : TimingController × Bool :=
  let (scheduler, removed) := c.scheduler.removeTask taskId
  if removed then
    ({ c with scheduler, unitToTaskId := found.elim c.unitToTaskId c.unitToTaskId.erase }, true)
  else ({ c with scheduler }, false)

/-- `start()`; the second component is whether it threw. -/
def start (onSchedulerThread spawned : Bool) : TimingController × Bool :=
  let (scheduler, threw) := c.scheduler.start onSchedulerThread spawned
  ({ c with scheduler }, threw)

/-- `stop()`. -/
def stop (onSchedulerThread : Bool) : TimingController :=
  { c with scheduler := c.scheduler.stop onSchedulerThread }

/-- `reset()`. -/
def reset (onSchedulerThread : Bool) : TimingController :=
  { c with
    scheduler := (c.scheduler.stop onSchedulerThread).removeAllTasks.resetStatistics
    unitToTaskId := ∅ }

/-- `pause()`. -/
def pause : TimingController := { c with scheduler := c.scheduler.pause }

/-- `resume()`. -/
def resume : TimingController := { c with scheduler := c.scheduler.resume }

end TimingController

end AxonVex
