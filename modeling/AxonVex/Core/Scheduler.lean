import AxonVex.Core.Containers
import AxonVex.Core.Ports
import AxonVex.Core.WorkerThread

/-!
# Core/Scheduler — the task table and the scheduler loop

`RealTimeScheduler` keeps its tasks in a pool and maps task ids to blocks of it.  The loop runs on
a thread of its own; `loopStep` is one step of it, between two points at which another thread can
act: a test of `running_` or `paused_`, the selection of a cycle's ready set, the claim of one task,
the two calls into the unit's own code, the bookkeeping after them.

The loop reads `paused_` only at `top`, and `running_` at `top`, `armed` and at each turn of a
cycle; everything it does in between it does whatever these flags say.

Clock readings, the order a sort leaves equal keys in, and what the unit's code does are the
environment's: they come with the label of a step.
-/

namespace AxonVex

open Machinery

/-- A point of the steady clock, in microseconds. -/
abbrev TimePoint := ℤ

/-- `std::chrono::microseconds`. -/
abbrev Microseconds := ℤ

/-- `SchedulerPriority`. -/
inductive SchedulerPriority
  | idle | low | normal | high | realTime | critical
  deriving DecidableEq, Repr

/-- The underlying value of the enumerator. -/
def SchedulerPriority.value : SchedulerPriority → ℕ
  | idle => 0
  | low => 1
  | normal => 2
  | high => 3
  | realTime => 4
  | critical => 5

/-- `SchedulingPolicy`. -/
inductive SchedulingPolicy
  | roundRobin | priorityBased | earliestDeadlineFirst | rateMonotonic | custom
  deriving DecidableEq, Repr

/-- `TimingConstraints`. -/
structure TimingConstraints where
  period : Microseconds := 0
  deadline : Microseconds := 0
  wcet : Microseconds := 0
  priority : SchedulerPriority := .normal
  isRealTime : Bool := false
  deriving DecidableEq, Repr

/-- `SchedulerTask`. -/
structure SchedulerTask where
  unit : UnitPtr
  constraints : TimingConstraints
  taskId : ℕ
  name : String
  nextExecution : TimePoint
  lastExecution : TimePoint
  active : Bool := true
  executing : Bool := false
  pendingRemoval : Bool := false
  executionCount : ℕ := 0
  missedDeadlines : ℕ := 0
  totalExecutionTime : Microseconds := 0
  consecutiveFailures : ℕ := 0
  lastFailureTime : TimePoint := 0
  reactivationTime : TimePoint := 0
  deriving DecidableEq, Repr

/-- The counters of `AtomicStatistics` that a task execution moves. -/
structure SchedulerStatistics where
  totalExecutions : ℕ := 0
  successfulExecutions : ℕ := 0
  failedExecutions : ℕ := 0
  missedDeadlines : ℕ := 0
  totalExecutionTime : Microseconds := 0
  averageExecutionTime : Microseconds := 0
  /-- `none` stands for `microseconds::max()`, the minimum before the first execution -/
  minExecutionTime : Option Microseconds := none
  maxExecutionTime : Microseconds := 0
  deriving DecidableEq, Repr

/-! ## The loop's position -/

/-- What is left of a scheduling cycle: the rest of the ready set, or for the custom policy the
number of turns left. -/
inductive CyclePlan
  | ready (ids : List ℕ)
  | custom (left : ℕ)
  deriving DecidableEq, Repr

/-- The plan has no turn left. -/
def CyclePlan.done : CyclePlan → Bool
  | ready ids => ids.isEmpty
  | custom left => left == 0

/-- `TaskExecutionResult`: whether the unit's code returned, and the clock around it. -/
structure TaskExecutionResult where
  success : Bool
  executionStart : TimePoint
  executionEnd : TimePoint
  deriving DecidableEq, Repr

namespace TaskExecutionResult

/-- `executionTime`. -/
def executionTime (r : TaskExecutionResult) : Microseconds := r.executionEnd - r.executionStart

end TaskExecutionResult

/-- Where `schedulerLoop` stands. -/
inductive LoopPc
  /-- about to test the loop's condition, then `paused_` -/
  | top
  /-- the wait for the next wakeup is over; about to test `running_` -/
  | armed
  /-- about to build the ready set of the cycle -/
  | selecting
  /-- at the condition of the cycle's `for` -/
  | cycle (plan : CyclePlan)
  /-- a task id is selected; about to claim the task -/
  | picked (id : ℕ) (plan : CyclePlan)
  /-- `processAsyncBase` of the claimed task's unit is running -/
  | processAsync (block : ℕ) (plan : CyclePlan)
  /-- `processSyncBase` of the claimed task's unit is running -/
  | processSync (block : ℕ) (plan : CyclePlan)
  /-- the unit's code is over; about to call `finalizeTaskExecution` -/
  | finalizing (block : ℕ) (success : Bool) (plan : CyclePlan)
  /-- about to dispatch the error callback, `times` times, for `unit` -/
  | reporting (unit : UnitPtr) (times : ℕ) (plan : CyclePlan)
  deriving DecidableEq, Repr

namespace LoopPc

/-- The block of the task whose unit's code is running. -/
def executing? : LoopPc → Option ℕ
  | processAsync block _ => some block
  | processSync block _ => some block
  | top => none
  | armed => none
  | selecting => none
  | cycle _ => none
  | picked _ _ => none
  | finalizing _ _ _ => none
  | reporting _ _ _ => none

/-- The block of the task the loop has claimed and not yet released. -/
def claimed? : LoopPc → Option ℕ
  | processAsync block _ => some block
  | processSync block _ => some block
  | finalizing block _ _ => some block
  | top => none
  | armed => none
  | selecting => none
  | cycle _ => none
  | picked _ _ => none
  | reporting _ _ _ => none

/-- The loop is not in the middle of a turn: halted here, it returns without touching a task. -/
def betweenTurns : LoopPc → Bool
  | top => true
  | armed => true
  | selecting => true
  | cycle _ => true
  | picked _ _ => false
  | processAsync _ _ => false
  | processSync _ _ => false
  | finalizing _ _ _ => false
  | reporting _ _ _ => false

end LoopPc

/-! ## The scheduler -/

/-- `RealTimeScheduler`. -/
structure RealTimeScheduler where
  policy : SchedulingPolicy
  taskPool : MemoryPool SchedulerTask
  /-- `tasks_`, task ids to blocks of the pool -/
  tasks : Table ℕ ℕ := ∅
  nextTaskId : UInt32 := 1
  lastSelectedTask : ℕ := 0
  running : Bool := false
  paused : Bool := false
  hasStarted : Bool := false
  worker : WorkerThread LoopPc := .empty
  statistics : SchedulerStatistics := {}

namespace RealTimeScheduler

variable (s : RealTimeScheduler)

/-- The constructor: a pool of 128 blocks, no task, no thread. -/
def new (policy : SchedulingPolicy) : RealTimeScheduler where
  policy := policy
  taskPool := .new 128

/-- The task behind an id of `tasks_`. -/
def task? (id : ℕ) : Option SchedulerTask := (s.tasks.lookup id).bind s.taskPool.blocks.lookup

/-! ### Task management -/

/-- `addTask(unit, constraints)`: the id of the task, or 0 when the pool is exhausted.  The counter
of the ids wraps around. -/
def addTask (unit : UnitPtr) (name : String) (constraints : TimingConstraints) (now : TimePoint) :
    RealTimeScheduler × ℕ :=
  let task : SchedulerTask :=
    { unit, constraints, name
      taskId := s.nextTaskId.toNat
      nextExecution := now + constraints.period
      lastExecution := now }
  match s.taskPool.allocateObject task with
  | none => (s, 0)
  | some (block, taskPool) =>
    ({ s with
        taskPool
        tasks := s.tasks.insert s.nextTaskId.toNat block
        nextTaskId := s.nextTaskId + 1 }, s.nextTaskId.toNat)

/-- `removeTask(taskId)`: a task in the middle of an execution keeps its block until the loop has
finished with it. -/
def removeTask (taskId : ℕ) : RealTimeScheduler × Bool :=
  match s.tasks.lookup taskId with
  | none => (s, false)
  | some block =>
    match s.taskPool.blocks.lookup block with
    | none => ({ s with tasks := s.tasks.erase taskId }, true)
    | some task =>
      if task.executing then
        ({ s with
            taskPool := s.taskPool.update block fun t =>
              { t with active := false, pendingRemoval := true }
            tasks := s.tasks.erase taskId }, true)
      else
        ({ s with
            taskPool := s.taskPool.deallocateObject block
            tasks := s.tasks.erase taskId }, true)

/-- The turn of `removeAllTasks()` for one task: marked in the middle of an execution, else freed. -/
def releaseTask (pool : MemoryPool SchedulerTask) (block : ℕ) : MemoryPool SchedulerTask :=
  match pool.blocks.lookup block with
  | none => pool
  | some task =>
    if task.executing then
      pool.update block fun t => { t with active := false, pendingRemoval := true }
    else pool.deallocateObject block

/-- `removeAllTasks()`: the same for every task of the table. -/
def removeAllTasks : RealTimeScheduler :=
  { s with
    taskPool := s.tasks.values.foldl releaseTask s.taskPool
    tasks := ∅ }

/-- `resetStatistics()`. -/
def resetStatistics : RealTimeScheduler := { s with statistics := {} }

/-- `updateTaskConstraints(taskId, constraints)`. -/
def updateTaskConstraints (taskId : ℕ) (constraints : TimingConstraints) :
    RealTimeScheduler × Bool :=
  match s.tasks.lookup taskId with
  | none => (s, false)
  | some block =>
    ({ s with
        taskPool := s.taskPool.update block fun t => { t with
          constraints, nextExecution := t.lastExecution + constraints.period } }, true)

/-! ### Starting and stopping -/

/-- `start()`: refused on the scheduler thread and while `running_` is set.  A stale handle is
joined before the `beforeSpawn` hook sets the flags; `spawned` is whether the thread could be
created, and the second component whether the call threw. -/
def start (onSchedulerThread spawned : Bool) : RealTimeScheduler × Bool :=
  if onSchedulerThread || s.running then ({ s with hasStarted := true }, false)
  else if spawned then
    ({ s with hasStarted := true, running := true, paused := false, worker := .running .top }, false)
  else ({ s with hasStarted := true, running := true, paused := false, worker := .empty }, true)

/-- `halt()`. -/
def halt : RealTimeScheduler := { s with running := false }

/-- `stop()`: on the scheduler thread only `halt()`; elsewhere the loop is joined, which it allows
because `running_` is clear. -/
def stop (onSchedulerThread : Bool) : RealTimeScheduler :=
  if onSchedulerThread then s.halt else { s.halt with worker := .empty }

/-- `pause()`. -/
def pause : RealTimeScheduler := { s with paused := true }

/-- `resume()`. -/
def resume : RealTimeScheduler := { s with paused := false }

/-- The scheduler loop's thread has not returned. -/
def loopAlive : Bool := s.worker.alive

/-- The loop runs and will go on doing so. -/
def loopActive : Bool := s.worker.alive && s.running

/-- The unit whose code the loop is running. -/
def executingUnit? : Option UnitPtr :=
  ((s.worker.pc?.bind LoopPc.executing?).bind s.taskPool.blocks.lookup).map (·.unit)

/-! ### Selecting tasks -/

/-- The reactivation pass: a task deactivated by its failures comes back after the backoff. -/
def reactivate (now : TimePoint) (task : SchedulerTask) : SchedulerTask :=
  if !task.active && decide (0 < task.consecutiveFailures) && decide (task.reactivationTime ≤ now)
  then { task with active := true, consecutiveFailures := 0 }
  else task

/-- A task the loop may select. -/
def isReady (now : TimePoint) (task : SchedulerTask) : Bool :=
  task.active && !task.executing && decide (task.nextExecution ≤ now)

/-- The scheduler after the reactivation pass over `tasks_`. -/
def reactivateAll (now : TimePoint) : RealTimeScheduler :=
  { s with taskPool := s.tasks.values.foldl (fun p b => p.update b (reactivate now)) s.taskPool }

/-- The ids of the ready tasks. -/
def readyIds (now : TimePoint) : List ℕ :=
  s.tasks.keys.filter fun id => (s.task? id).any (isReady now)

/-- Whether the policy's comparator lets the first task stand before the second. -/
def mayPrecede (a b : SchedulerTask) : Bool :=
  match s.policy with
  | .priorityBased => decide (a.constraints.priority.value ≤ b.constraints.priority.value)
  | .earliestDeadlineFirst =>
    decide (a.nextExecution + a.constraints.deadline ≤ b.nextExecution + b.constraints.deadline)
  | .rateMonotonic => decide (a.constraints.period ≤ b.constraints.period)
  | .roundRobin => true
  | .custom => true

/-- `selectReadyTasksForCycle` may leave the ready ids in this order: the sort of the policy, or
for round robin the walk of the table from the one after `lastSelectedTask_`. -/
def mayOrder (now : TimePoint) (order : List ℕ) : Bool :=
  decide (order.Perm (s.readyIds now)) &&
    decide (order.Pairwise fun i j =>
      ∀ a ∈ s.task? i, ∀ b ∈ s.task? j, s.mayPrecede a b = true) &&
    (if s.policy = .roundRobin ∧ s.lastSelectedTask ∈ order
      then order.getLast? == some s.lastSelectedTask else true)

/-- `schedulePriorityBased` may return this id: a ready task that no ready task precedes by
priority value, or 0 when none is ready. -/
def mayPick (now : TimePoint) (id : ℕ) : Bool :=
  if s.readyIds now = [] then id == 0
  else decide (id ∈ s.readyIds now) &&
    decide (∀ j ∈ s.readyIds now, ∀ a ∈ s.task? id, ∀ b ∈ s.task? j,
      a.constraints.priority.value ≤ b.constraints.priority.value)

/-! ### Executing a task -/

/-- `kMaxConsecutiveFailures`. -/
def maxConsecutiveFailures : ℕ := 10

/-- `FAILURE_BACKOFF_TIME`, 100 ms. -/
def failureBackoffTime : Microseconds := 100000

/-- `hasDeadlinePassed(task)`. -/
def hasDeadlinePassed (now : TimePoint) (task : SchedulerTask) : Bool :=
  decide (task.nextExecution + task.constraints.deadline < now)

/-- `TaskFinalizeOutcome`. -/
structure TaskFinalizeOutcome where
  unit : UnitPtr
  missedDeadline : Bool
  deactivated : Bool
  deriving DecidableEq, Repr

/-- The bookkeeping of `finalizeTaskExecution` on the task itself.  A success moves
`nextExecution` before the deadline is looked at; a failure leaves the slot where it was. -/
def finalizeTask (task : SchedulerTask) (result : TaskExecutionResult) (now : TimePoint) :
    SchedulerTask × TaskFinalizeOutcome :=
  let count := task.executionCount + 1
  let total := task.totalExecutionTime + result.executionTime
  if result.success then
    let missed := if hasDeadlinePassed now task then 1 else 0
    let task := { task with
      executionCount := count
      totalExecutionTime := total
      missedDeadlines := task.missedDeadlines + missed
      lastExecution := result.executionStart
      nextExecution := result.executionStart + task.constraints.period
      consecutiveFailures := 0
      executing := false }
    (task, ⟨task.unit, hasDeadlinePassed now task, false⟩)
  else
    let failures := task.consecutiveFailures + 1
    let deactivated := decide (maxConsecutiveFailures ≤ failures)
    let missed := hasDeadlinePassed now task
    let task := { task with
      executionCount := count
      totalExecutionTime := total
      consecutiveFailures := failures
      lastFailureTime := result.executionEnd
      active := task.active && !deactivated
      reactivationTime :=
        if deactivated then result.executionEnd + failureBackoffTime else task.reactivationTime
      missedDeadlines := task.missedDeadlines + if missed then 1 else 0
      executing := false }
    (task, ⟨task.unit, missed, deactivated⟩)

/-- `updateGlobalStatistics`. -/
def updateGlobalStatistics (st : SchedulerStatistics) (success : Bool) (time : Microseconds)
    (missedDeadline : Bool) : SchedulerStatistics :=
  let total := st.totalExecutions + 1
  let st := { st with
    totalExecutions := total
    totalExecutionTime := st.totalExecutionTime + time
    missedDeadlines := st.missedDeadlines + if missedDeadline then 1 else 0 }
  if success then
    if total = 1 then
      { st with
        successfulExecutions := st.successfulExecutions + 1
        averageExecutionTime := time
        minExecutionTime := some time
        maxExecutionTime := time }
    else
      { st with
        successfulExecutions := st.successfulExecutions + 1
        averageExecutionTime := (st.averageExecutionTime * (total - 1) + time).tdiv total
        minExecutionTime := some (st.minExecutionTime.elim time (min time))
        maxExecutionTime := max time st.maxExecutionTime }
  else { st with failedExecutions := st.failedExecutions + 1 }

/-! ### The loop -/

/-- What the environment contributes to one step of the loop. -/
inductive LoopStep
  /-- a step with no input -/
  | advance
  /-- the cycle's ready set, in the order the sort left it -/
  | select (now : TimePoint) (order : List ℕ)
  /-- the custom policy's cycle, with its reactivation pass -/
  | beginCustom (now : TimePoint)
  /-- one pick of the custom policy -/
  | pick (now : TimePoint) (id : ℕ)
  /-- the unit's code returns -/
  | bodyReturns
  /-- the unit's code throws a `std::exception` -/
  | bodyThrows
  /-- the clock around the execution, and at the bookkeeping -/
  | finalize (executionStart executionEnd now : TimePoint)
  deriving DecidableEq, Repr

/-- The loop at its next position. -/
def goto (pc : LoopPc) : RealTimeScheduler := { s with worker := .running pc }

/-- The claim: a task that is present, active and not executing is marked executing. -/
def claim (id : ℕ) (plan : CyclePlan) : RealTimeScheduler :=
  match s.tasks.lookup id, s.task? id with
  | some block, some task =>
    if task.active && !task.executing then
      { s with
        taskPool := s.taskPool.update block fun t => { t with executing := true }
        worker := .running (.processAsync block plan) }
    else s.goto (.cycle plan)
  | _, _ => s.goto (.cycle plan)

/-- The claim is released, the statistics are moved, and a failure goes on to the error callback:
once, and once more for a task the failure has deactivated. -/
def finalizeTaskExecution (block : ℕ) (plan : CyclePlan) (result : TaskExecutionResult)
    (now : TimePoint) : RealTimeScheduler :=
  match s.taskPool.blocks.lookup block with
  | none => s.goto (.cycle plan)
  | some task =>
    let (task', outcome) := finalizeTask task result now
    let taskPool := s.taskPool.update block fun _ => task'
    let taskPool := if task.pendingRemoval then taskPool.deallocateObject block else taskPool
    { s with
      taskPool
      statistics := updateGlobalStatistics s.statistics result.success result.executionTime
        outcome.missedDeadline
      worker := .running <|
        if result.success then .cycle plan
        else .reporting outcome.unit (if outcome.deactivated then 2 else 1) plan }

/-- **One step of `schedulerLoop`**, from where the loop stands. -/
def loopStep (step : LoopStep) : Option RealTimeScheduler :=
  match s.worker.pc?, step with
  | some .top, .advance =>
    if !s.running then some { s with worker := .exited }
    else if s.paused then none  -- waits for `resume()`, or for `running_` to be cleared
    else some (s.goto .armed)
  | some .armed, .advance =>
    if !s.running then some { s with worker := .exited } else some (s.goto .selecting)
  | some .selecting, .select now order =>
    let s' := s.reactivateAll now
    if s.policy ≠ .custom ∧ s'.mayOrder now order then
      some { s' with
        worker := .running (.cycle (.ready order))
        lastSelectedTask :=
          if s.policy = .roundRobin then order.getLast?.getD s.lastSelectedTask
          else s.lastSelectedTask }
    else none
  | some .selecting, .beginCustom now =>
    if s.policy = .custom then
      let s' := s.reactivateAll now
      some (s'.goto (.cycle (.custom s.tasks.keys.length)))
    else none
  | some (.cycle plan), .advance =>
    if plan.done || !s.running then some (s.goto .top)
    else match plan with
      | .ready (id :: ids) =>
        -- the id 0 stands for no task
        if id = 0 then some (s.goto .top) else some (s.goto (.picked id (.ready ids)))
      | .ready [] => none
      | .custom _ => none
  | some (.cycle (.custom (left + 1))), .pick now id =>
    if s.running ∧ s.mayPick now id then
      if id = 0 then some (s.goto .top) else some (s.goto (.picked id (.custom left)))
    else none
  | some (.picked id plan), .advance => some (s.claim id plan)
  | some (.processAsync block plan), .bodyReturns => some (s.goto (.processSync block plan))
  | some (.processAsync block plan), .bodyThrows => some (s.goto (.finalizing block false plan))
  | some (.processSync block plan), .bodyReturns => some (s.goto (.finalizing block true plan))
  | some (.processSync block plan), .bodyThrows => some (s.goto (.finalizing block false plan))
  | some (.finalizing block success plan), .finalize executionStart executionEnd now =>
    some (s.finalizeTaskExecution block plan ⟨success, executionStart, executionEnd⟩ now)
  | some (.reporting _ _ plan), .advance => some (s.goto (.cycle plan))
  | _, _ => none

/-! ### What a step of the loop can do -/

/-- The steps of the loop, one constructor for each: where it stood, what it tested, where it
goes. -/
inductive LoopMove (s : RealTimeScheduler) : RealTimeScheduler → Prop
  /-- the loop finds `running_` clear and returns -/
  | exit (hpc : s.worker = .running .top ∨ s.worker = .running .armed) (hr : s.running = false) :
      LoopMove s { s with worker := .exited }
  | arm (hpc : s.worker = .running .top) (hr : s.running = true) (hp : s.paused = false) :
      LoopMove s (s.goto .armed)
  | wake (hpc : s.worker = .running .armed) (hr : s.running = true) :
      LoopMove s (s.goto .selecting)
  /-- the cycle begins, after the reactivation pass -/
  | select (now : TimePoint) (plan : CyclePlan) (last : ℕ) (hpc : s.worker = .running .selecting) :
      LoopMove s { s.reactivateAll now with
        worker := .running (.cycle plan), lastSelectedTask := last }
  /-- the cycle is over, or `running_` is clear, or the custom policy picks nothing -/
  | endCycle (plan : CyclePlan) (hpc : s.worker = .running (.cycle plan)) :
      LoopMove s (s.goto .top)
  | pick (id : ℕ) (plan plan' : CyclePlan) (hpc : s.worker = .running (.cycle plan))
      (hdone : plan.done = false) (hr : s.running = true) :
      LoopMove s (s.goto (.picked id plan'))
  | claim (id : ℕ) (plan : CyclePlan) (hpc : s.worker = .running (.picked id plan)) :
      LoopMove s (s.claim id plan)
  | asyncDone (block : ℕ) (plan : CyclePlan)
      (hpc : s.worker = .running (.processAsync block plan)) :
      LoopMove s (s.goto (.processSync block plan))
  | bodyDone (block : ℕ) (success : Bool) (plan : CyclePlan)
      (hpc : s.worker = .running (.processAsync block plan) ∨
        s.worker = .running (.processSync block plan)) :
      LoopMove s (s.goto (.finalizing block success plan))
  | finalize (block : ℕ) (plan : CyclePlan) (result : TaskExecutionResult) (now : TimePoint)
      (hpc : s.worker = .running (.finalizing block result.success plan)) :
      LoopMove s (s.finalizeTaskExecution block plan result now)
  | report (unit : UnitPtr) (times : ℕ) (plan : CyclePlan)
      (hpc : s.worker = .running (.reporting unit times plan)) :
      LoopMove s (s.goto (.cycle plan))

variable {s} {s' : RealTimeScheduler} {step : LoopStep}

theorem worker_eq_of_pc? {pc : LoopPc} (h : s.worker.pc? = some pc) : s.worker = .running pc := by
  generalize s.worker = w at h
  cases w <;> simp_all

/-- **Every step of the loop is one of these moves.** -/
theorem loopMove_of_loopStep (h : s.loopStep step = some s') : LoopMove s s' := by
  unfold loopStep at h
  split at h <;> rename_i hpc <;> try replace hpc := worker_eq_of_pc? hpc
  · split at h
    next hr => exact Option.some.inj h ▸ .exit (.inl hpc) (by simpa using hr)
    next hr =>
      split at h
      · cases h
      next hp => exact Option.some.inj h ▸ .arm hpc (by simpa using hr) (by simpa using hp)
  · split at h
    next hr => exact Option.some.inj h ▸ .exit (.inr hpc) (by simpa using hr)
    next hr => exact Option.some.inj h ▸ .wake hpc (by simpa using hr)
  · dsimp only at h
    split at h
    · exact Option.some.inj h ▸ .select _ _ _ hpc
    · cases h
  · split at h
    · exact Option.some.inj h ▸ .select _ _ s.lastSelectedTask hpc
    · cases h
  · split at h
    · exact Option.some.inj h ▸ .endCycle _ hpc
    next hd =>
      rw [Bool.not_eq_true, Bool.or_eq_false_iff, Bool.not_eq_false'] at hd
      split at h
      · split at h
        · exact Option.some.inj h ▸ .endCycle _ hpc
        · exact Option.some.inj h ▸ .pick _ _ _ hpc hd.1 hd.2
      all_goals exact absurd h (by simp)
  · split at h
    next hr =>
      split at h
      · exact Option.some.inj h ▸ .endCycle _ hpc
      · exact Option.some.inj h ▸ .pick _ _ _ hpc rfl hr.1
    · cases h
  · exact Option.some.inj h ▸ .claim _ _ hpc
  · exact Option.some.inj h ▸ .asyncDone _ _ hpc
  · exact Option.some.inj h ▸ .bodyDone _ _ _ (.inl hpc)
  · exact Option.some.inj h ▸ .bodyDone _ _ _ (.inr hpc)
  · exact Option.some.inj h ▸ .bodyDone _ _ _ (.inr hpc)
  · exact Option.some.inj h ▸ .finalize _ _ ⟨_, _, _⟩ _ hpc
  · exact Option.some.inj h ▸ .report _ _ _ hpc
  · cases h

/-- Only a loop that is there moves. -/
theorem LoopMove.alive (h : LoopMove s s') : s.loopAlive = true := by
  cases h with
  | exit hpc _ => rcases hpc with hpc | hpc <;> simp [loopAlive, hpc]
  | arm hpc _ _ => simp [loopAlive, hpc]
  | wake hpc _ => simp [loopAlive, hpc]
  | select _ _ _ hpc => simp [loopAlive, hpc]
  | endCycle _ hpc => simp [loopAlive, hpc]
  | pick _ _ _ hpc _ _ => simp [loopAlive, hpc]
  | claim _ _ hpc => simp [loopAlive, hpc]
  | asyncDone _ _ hpc => simp [loopAlive, hpc]
  | bodyDone _ _ _ hpc => rcases hpc with hpc | hpc <;> simp [loopAlive, hpc]
  | finalize _ _ _ _ hpc => simp [loopAlive, hpc]
  | report _ _ _ hpc => simp [loopAlive, hpc]

end RealTimeScheduler

end AxonVex
