import AxonVex.Core.SystemRun

/-!
# Core/Effects — what each operation does to the lifecycle and the scheduler

The claims about runs look at a system through a few windows: the lifecycle state and latch, which
components exist, and the scheduler's flags and loop.  This file says once, for each operation, what
it does to them; no later proof unfolds an operation.  Scheduling and unscheduling units moves tasks
and nothing else of the scheduler.
-/

namespace AxonVex

open Machinery

/-! ## The scheduler -/

namespace RealTimeScheduler

variable {s t : RealTimeScheduler}

/-- The same flags and the same loop: only tasks may differ. -/
structure SameLoop (s t : RealTimeScheduler) : Prop where
  running : t.running = s.running
  paused : t.paused = s.paused
  worker : t.worker = s.worker

theorem SameLoop.refl (s : RealTimeScheduler) : SameLoop s s := ⟨rfl, rfl, rfl⟩

theorem sameLoop_addTask (unit : UnitPtr) (name : String) (constraints : TimingConstraints)
    (now : TimePoint) : SameLoop s (s.addTask unit name constraints now).1 := by
  unfold addTask
  dsimp only
  split <;> exact ⟨rfl, rfl, rfl⟩

theorem sameLoop_removeTask (taskId : ℕ) : SameLoop s (s.removeTask taskId).1 := by
  unfold removeTask
  split
  · exact .refl s
  · split
    · exact ⟨rfl, rfl, rfl⟩
    · split <;> exact ⟨rfl, rfl, rfl⟩

theorem removeTask_of_tasks_empty (h : s.tasks = ∅) (taskId : ℕ) : (s.removeTask taskId).1 = s := by
  simp [removeTask, h]

/-- Started anew, the loop runs and is not paused. -/
theorem start_of_stopped (hr : s.running = false) :
    (s.start false true).1.loopActive = true ∧ (s.start false true).1.paused = false := by
  simp [start, hr, loopActive]

/-- A loop that is there and may run on stays as it is. -/
theorem start_of_running (h : s.running = true) (onThread spawned : Bool) :
    SameLoop s (s.start onThread spawned).1 ∧ (s.start onThread spawned).2 = false := by
  rw [start, if_pos (by simp [h])]
  exact ⟨⟨rfl, rfl, rfl⟩, rfl⟩

/-- **A start that does not throw leaves a loop that runs**, if `running_` was set only over a
loop that is there. -/
theorem loopActive_start {spawned : Bool} (hstale : s.running = true → s.loopAlive = true)
    (h : (s.start false spawned).2 = false) : (s.start false spawned).1.loopActive = true := by
  cases hr : s.running with
  | true =>
    obtain ⟨hl, -⟩ := start_of_running hr false spawned
    rw [loopActive, hl.worker, hl.running, hr, show s.worker.alive = true from hstale hr]
    rfl
  | false =>
    cases spawned with
    | true => exact (start_of_stopped hr).1
    | false => simp [start, hr] at h

/-- A start that throws leaves no loop. -/
theorem start_threw {onThread spawned : Bool} (h : (s.start onThread spawned).2 = true) :
    (s.start onThread spawned).1.worker.alive = false := by
  unfold start at h ⊢
  split_ifs at h ⊢
  rfl

/-- Stopped from outside, there is no loop. -/
@[simp] theorem stop_false_worker : (s.stop false).worker = .empty := rfl

@[simp] theorem stop_running (onThread : Bool) : (s.stop onThread).running = false := by
  cases onThread <;> rfl

@[simp] theorem stop_paused (onThread : Bool) : (s.stop onThread).paused = s.paused := by
  cases onThread <;> rfl

@[simp] theorem stop_true_worker : (s.stop true).worker = s.worker := rfl

@[simp] theorem start_true (spawned : Bool) :
    s.start true spawned = ({ s with hasStarted := true }, false) := rfl

/-- The loop has neither tasks nor one it is executing. -/
structure Idle (s : RealTimeScheduler) : Prop where
  noTask : s.tasks = ∅
  notExecuting : s.worker.pc?.bind LoopPc.executing? = none

/-- Without tasks the loop turns and executes nothing. -/
theorem Idle.of_loopMove (hs : s.Idle) (h : LoopMove s t) : t.Idle := by
  have hclaim (id : ℕ) (plan : CyclePlan) : s.claim id plan = s.goto (.cycle plan) := by
    simp [claim, hs.noTask]
  have hx := hs.notExecuting
  cases h with
  | claim id plan _ =>
    rw [hclaim]
    exact ⟨hs.noTask, rfl⟩
  | asyncDone _ _ hpc => simp [hpc, LoopPc.executing?] at hx
  | bodyDone _ _ _ hpc => rcases hpc with hpc | hpc <;> simp [hpc, LoopPc.executing?] at hx
  | finalize block plan result now _ =>
    unfold finalizeTaskExecution
    split
    · exact ⟨hs.noTask, rfl⟩
    · refine ⟨hs.noTask, ?_⟩
      simp only [WorkerThread.pc?_running, Option.bind_some]
      split <;> rfl
  | _ => exact ⟨hs.noTask, rfl⟩

/-- Stopping and starting a loop brings no task. -/
theorem Idle.restart (hs : s.Idle) (onThread spawned : Bool) :
    ((s.stop onThread).start onThread spawned).1.Idle := by
  cases onThread with
  | true => exact ⟨hs.noTask, hs.notExecuting⟩
  | false => cases spawned <;> exact ⟨hs.noTask, rfl⟩

end RealTimeScheduler

namespace TimingController

variable {c : TimingController}

open RealTimeScheduler

theorem sameLoop_scheduleProcessingUnit (unit : UnitPtr) (name : String)
    (constraints : TimingConstraints) (now : TimePoint) :
    SameLoop c.scheduler (c.scheduleProcessingUnit unit name constraints now).1.scheduler := by
  unfold scheduleProcessingUnit
  dsimp only
  split_ifs <;> exact sameLoop_addTask unit name _ now

theorem sameLoop_removeProcessingUnit (unit : UnitPtr) :
    SameLoop c.scheduler (c.removeProcessingUnit unit).1.scheduler := by
  unfold removeProcessingUnit
  split
  · exact .refl _
  · exact sameLoop_removeTask _

/-- Without tasks there is none to remove. -/
theorem removeProcessingUnit_of_tasks_empty (h : c.scheduler.tasks = ∅) (unit : UnitPtr) :
    (c.removeProcessingUnit unit).1.scheduler = c.scheduler := by
  unfold removeProcessingUnit
  split
  · rfl
  · exact removeTask_of_tasks_empty h _

end TimingController

/-! ## Operations that leave lifecycle, components and loop alone -/

namespace AxonVexSystem

open RealTimeScheduler

variable {s t : AxonVexSystem} {caller : Thread}

/-- The flags and the loop of the scheduler, if there is one. -/
def loopView (s : AxonVexSystem) : Option (Bool × Bool × WorkerThread LoopPc) :=
  s.scheduler?.map fun r => (r.running, r.paused, r.worker)

/-- No task is scheduled. -/
def HasNoTask (s : AxonVexSystem) : Prop := ∀ r ∈ s.scheduler?, r.tasks = ∅

/-- The same latch, logger, configuration and dispatch loop. -/
structure SameParts (s t : AxonVexSystem) : Prop where
  systemConfig : t.systemConfig = s.systemConfig
  isShuttingDown : t.lifecycle.isShuttingDown = s.lifecycle.isShuttingDown
  configuration : t.configuration = s.configuration
  logger : t.logger = s.logger
  bus_running : t.eventBus.running = s.eventBus.running
  bus_worker : t.eventBus.worker = s.eventBus.worker

theorem SameParts.refl (s : AxonVexSystem) : SameParts s s := ⟨rfl, rfl, rfl, rfl, rfl, rfl⟩

theorem SameParts.trans {u : AxonVexSystem} (h : SameParts s t) (h' : SameParts t u) :
    SameParts s u :=
  ⟨h'.systemConfig.trans h.systemConfig, h'.isShuttingDown.trans h.isShuttingDown,
    h'.configuration.trans h.configuration, h'.logger.trans h.logger,
    h'.bus_running.trans h.bus_running, h'.bus_worker.trans h.bus_worker⟩

/-- The same lifecycle state and scheduler loop besides; no task is added before the system
starts. -/
structure SameControl (s t : AxonVexSystem) : Prop extends SameParts s t where
  state : t.state = s.state
  loop : t.loopView = s.loopView
  noTask : s.state < .starting → s.HasNoTask → t.HasNoTask

theorem SameControl.refl (s : AxonVexSystem) : SameControl s s := ⟨.refl s, rfl, rfl, fun _ h => h⟩

theorem SameControl.trans {u : AxonVexSystem} (h : SameControl s t) (h' : SameControl t u) :
    SameControl s u :=
  ⟨h.toSameParts.trans h'.toSameParts, h'.state.trans h.state, h'.loop.trans h.loop,
    fun hs hn => h'.noTask (h.state ▸ hs) (h.noTask hs hn)⟩

/-- Where the timing controller is the same, so is what is seen of it. -/
theorem SameControl.of_timingController (h : SameParts s t) (hs : t.state = s.state)
    (hc : t.timingController = s.timingController) : SameControl s t where
  toSameParts := h
  state := hs
  loop := by rw [loopView, loopView, scheduler?, scheduler?, hc]
  noTask _ hn := by rwa [HasNoTask, scheduler?, hc]

theorem loopView_eq_of_sameLoop {c c' : TimingController} (hs : s.timingController = some c)
    (ht : t.timingController = some c') (h : SameLoop c.scheduler c'.scheduler) :
    t.loopView = s.loopView := by
  simp [loopView, scheduler?, hs, ht, h.running, h.paused, h.worker]

/-- What is seen of a scheduler determines its flags and its loop. -/
theorem exists_sameLoop {c : TimingController} (hs : s.timingController = some c)
    (h : t.loopView = s.loopView) :
    ∃ c', t.timingController = some c' ∧ SameLoop c.scheduler c'.scheduler := by
  cases ht : t.timingController with
  | none => simp [loopView, scheduler?, hs, ht] at h
  | some c' =>
    simp only [loopView, scheduler?, hs, ht, Option.map_some, Option.some.injEq,
      Prod.mk.injEq] at h
    exact ⟨c', rfl, h.1, h.2.1, h.2.2⟩

/-- An event changes nothing of these. -/
theorem SameControl.publish {e : SystemEvent} (h : SameControl s t) :
    SameControl s (t.publish e) :=
  h.trans <| .of_timingController ⟨rfl, rfl, rfl, rfl, publish_bus_running, publish_bus_worker⟩
    rfl rfl

/-- Nor do counters. -/
theorem SameControl.count {statistics : SystemStatistics} (h : SameControl s t) :
    SameControl s { t with statistics } :=
  h.trans <| .of_timingController ⟨rfl, rfl, rfl, rfl, rfl, rfl⟩ rfl rfl

/-- From `STARTING` on, tasks may be added. -/
theorem sameControl_scheduleUnit (hs : .starting ≤ s.state) (unit : ProcessingUnit)
    (constraints : TimingConstraints) (now : TimePoint) :
    SameControl s (s.scheduleUnit unit constraints now) := by
  unfold scheduleUnit
  split
  · exact .refl s
  next c hc =>
    exact ⟨⟨rfl, rfl, rfl, rfl, rfl, rfl⟩, rfl, loopView_eq_of_sameLoop hc rfl
      (TimingController.sameLoop_scheduleProcessingUnit _ _ _ _), fun h => absurd hs h.not_ge⟩

theorem sameControl_foldl_scheduleUnit (hs : .starting ≤ s.state)
    (constraints : AxonVexSystem → TimingConstraints) (now : TimePoint)
    (units : List ProcessingUnit) :
    SameControl s (units.foldl (fun s u => s.scheduleUnit u (constraints s) now) s) := by
  induction units generalizing s with
  | nil => exact .refl s
  | cons u units ih =>
    have hu := sameControl_scheduleUnit hs u (constraints s) now
    exact hu.trans (ih (hu.state ▸ hs))

theorem sameControl_registerProcessingUnit (unit : ProcessingUnit)
    (constraints : TimingConstraints) (now : TimePoint) :
    SameControl s (s.registerProcessingUnit unit constraints now).1 := by
  unfold registerProcessingUnit
  split
  · exact .refl s
  next unitId unitRegistry hadd =>
    have hr : SameControl s { s with unitRegistry } :=
      .of_timingController ⟨rfl, rfl, rfl, rfl, rfl, rfl⟩ rfl rfl
    dsimp only
    split
    next hrun =>
      have hstate : s.state = .running := by simpa [isRunning, state] using hrun
      exact .publish (.count (hr.trans (sameControl_scheduleUnit
        (hr.state.trans hstate ▸ by decide) unit _ now)))
    · exact .publish (.count hr)

theorem sameControl_unregisterProcessingUnit (id : ℕ) :
    SameControl s (s.unregisterProcessingUnit id).1 := by
  unfold unregisterProcessingUnit
  split
  · exact .refl s
  next unit unitRegistry hrem =>
    refine .publish ?_
    cases hc : s.timingController with
    | none => exact .of_timingController ⟨rfl, rfl, rfl, rfl, rfl, rfl⟩ rfl hc.symm
    | some c =>
      refine ⟨⟨rfl, rfl, rfl, rfl, rfl, rfl⟩, rfl, loopView_eq_of_sameLoop hc rfl
        (TimingController.sameLoop_removeProcessingUnit unit.ptr), fun _ hn => ?_⟩
      have hempty : c.scheduler.tasks = ∅ := hn _ (by simp [scheduler?, hc])
      have hsame := TimingController.removeProcessingUnit_of_tasks_empty hempty unit.ptr
      simp [HasNoTask, scheduler?, hsame, hempty]

theorem sameControl_assignSystemPort (find : ProcessingUnit → ℤ → Option PortPtr)
    (assign : SystemPortRegistry → String → PortPtr → Option SystemPortRegistry)
    (kind name : String) (unit : UnitPtr) (id : ℤ) :
    SameControl s (s.assignSystemPort find assign kind name unit id).1 := by
  unfold assignSystemPort
  split
  · exact .refl s
  · split
    · exact .refl s
    · split
      · exact .refl s
      · split
        · exact .refl s
        · dsimp only
          exact .publish (.of_timingController ⟨rfl, rfl, rfl, rfl, rfl, rfl⟩ rfl rfl)

theorem sameControl_removeSystemInputPort (name : String) :
    SameControl s (s.removeSystemInputPort name).1 := by
  unfold removeSystemInputPort
  split
  · exact .refl s
  · exact .of_timingController ⟨rfl, rfl, rfl, rfl, rfl, rfl⟩ rfl rfl

theorem sameControl_removeSystemOutputPort (name : String) :
    SameControl s (s.removeSystemOutputPort name).1 := by
  unfold removeSystemOutputPort
  split
  · exact .refl s
  · exact .of_timingController ⟨rfl, rfl, rfl, rfl, rfl, rfl⟩ rfl rfl

theorem sameControl_layoutCall (c : LayoutCall) : SameControl s (s.layoutCall c) := by
  cases c with
  | register unit constraints now => exact sameControl_registerProcessingUnit unit constraints now
  | unregister id => exact sameControl_unregisterProcessingUnit id
  | assignInput name unit id => exact sameControl_assignSystemPort _ _ _ name unit id
  | assignOutput name unit id => exact sameControl_assignSystemPort _ _ _ name unit id
  | removeInput name => exact sameControl_removeSystemInputPort name
  | removeOutput name => exact sameControl_removeSystemOutputPort name

theorem sameControl_layout (calls : List LayoutCall) (s : AxonVexSystem) :
    SameControl s (calls.foldl layoutCall s) := by
  induction calls generalizing s with
  | nil => exact .refl s
  | cons c calls ih => exact (sameControl_layoutCall c).trans (ih _)

theorem sameControl_updateStatistics : SameControl s s.updateStatistics := by
  unfold updateStatistics
  split
  · exact .refl s
  · exact .of_timingController ⟨rfl, rfl, rfl, rfl, rfl, rfl⟩ rfl rfl

end AxonVexSystem

end AxonVex
