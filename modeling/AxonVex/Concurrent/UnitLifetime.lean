import AxonVex.Concurrent.Tasks
import AxonVex.Concurrent.Teardown
import AxonVex.Lifecycle.Moves
import AxonVex.Ownership.Registries

/-!
# Concurrent/UnitLifetime — no unit is destroyed while the loop has a claim on it

Three mechanisms keep a unit alive while its task is executed, and each has a hole:

    unregister   takes the task from the table first     unless the task is executing
    e-stop       joins the scheduler before it clears    unless it runs on the scheduler
    reset        waits for the e-stop that has the mutex

* `not_destroyed_while_claimed` — where unregistering meets no task in execution, no shutdown tears
  down on the scheduler thread, and nothing restarts the scheduler, the loop has no claim on a unit
  that is about to be destroyed.
* `unregister_destroys_claimed` — a unit unregistered during its execution is destroyed in the
  middle of it.
-/

namespace AxonVex

open Machinery

/-! ## Systems in step -/

namespace AxonVexSystem

open RealTimeScheduler MemoryPool

variable {s t : AxonVexSystem} {unit : UnitPtr}

/-- The tasks of the timing controller, if there is one, are in step with its units. -/
def TasksInStep (s : AxonVexSystem) : Prop := ∀ c ∈ s.timingController, c.InStep

/-- No task belongs to the unit. -/
def NotScheduled (s : AxonVexSystem) (unit : UnitPtr) : Prop :=
  ∀ c ∈ s.timingController, c.NotScheduled unit

/-- The unit of the task the loop has claimed. -/
def claimedUnit? (s : AxonVexSystem) : Option UnitPtr :=
  s.scheduler?.bind RealTimeScheduler.claimedUnit?

/-- The timing controller is gone, or has the same tasks, and the loop where it was or none. -/
def Quiets (s t : AxonVexSystem) : Prop :=
  ∀ c' ∈ t.timingController, ∃ c, s.timingController = some c ∧
    c'.unitToTaskId = c.unitToTaskId ∧ c'.scheduler.tasks = c.scheduler.tasks ∧
    c'.scheduler.taskPool = c.scheduler.taskPool ∧
    (c'.scheduler.worker = c.scheduler.worker ∨ c'.scheduler.worker = .empty)

theorem quiets_of_eq (h : t.timingController = s.timingController) : Quiets s t :=
  fun c hc => ⟨c, h ▸ hc, rfl, rfl, rfl, .inl rfl⟩

theorem quiets_of_none (h : t.timingController = none) : Quiets s t :=
  fun c hc => absurd (h.symm.trans hc) (by simp)

theorem quiets_stopComponents (caller : Thread) : Quiets s (s.stopComponents caller) := by
  intro c' hc'
  obtain ⟨c, hc, rfl⟩ := Option.map_eq_some_iff.mp hc'
  refine ⟨c, hc, ?_⟩
  cases hcaller : caller == Thread.scheduler with
  | true => exact ⟨rfl, rfl, rfl, .inl rfl⟩
  | false => exact ⟨rfl, rfl, rfl, .inr rfl⟩

theorem quiets_halted (m : Shared) : Quiets m.system m.halted := by
  intro c' hc'
  obtain ⟨c, hc, rfl⟩ := Option.map_eq_some_iff.mp hc'
  exact ⟨c, hc, rfl, rfl, rfl, .inl rfl⟩

theorem Quiets.tasksInStep (h : Quiets s t) (hs : s.TasksInStep) : t.TasksInStep := by
  intro c' hc'
  obtain ⟨c, hc, hmap, htasks, hpool, hworker⟩ := h c' hc'
  have hin := hs c hc
  refine ⟨?_, fun block hb => ?_⟩
  · rw [hmap, htasks, hpool]
    exact hin.mapped
  · rw [htasks, hpool]
    refine hin.claimed block ?_
    rcases hworker with hw | hw
    · rwa [claimed?, ← hw]
    · rw [claimed?, hw] at hb
      exact absurd hb (by simp)

theorem Quiets.noLoop (h : Quiets s t) (hs : s.NoLoop) : t.NoLoop := by
  intro r hr
  obtain ⟨c', hc', rfl⟩ := Option.map_eq_some_iff.mp hr
  obtain ⟨c, hc, -, -, -, hw | hw⟩ := h c' hc'
  · rw [loopAlive, hw]
    exact hs c.scheduler (Option.map_eq_some_iff.mpr ⟨c, hc, rfl⟩)
  · rw [loopAlive, hw]
    rfl

theorem Quiets.notScheduled (h : Quiets s t) (hs : s.NotScheduled unit) : t.NotScheduled unit := by
  intro c' hc'
  obtain ⟨c, hc, -, htasks, hpool, -⟩ := h c' hc'
  intro id block u hid hu
  exact hs c hc id block u (htasks ▸ hid) (hpool ▸ hu)

/-- **Without a task or without a loop there is no claim.** -/
theorem claimedUnit_ne_of_notScheduled (h : s.TasksInStep) (hn : s.NotScheduled unit) :
    s.claimedUnit? ≠ some unit := by
  intro hu
  obtain ⟨r, hr, hu⟩ := Option.bind_eq_some_iff.mp hu
  obtain ⟨c, hc, rfl⟩ := Option.map_eq_some_iff.mp hr
  exact (h c hc).claimedUnit_ne (hn c hc) hu

theorem claimedUnit_of_noLoop (h : s.NoLoop) : s.claimedUnit? = none := by
  rw [claimedUnit?, Option.bind_eq_none_iff]
  intro r hr
  have hw := h r hr
  rw [loopAlive, WorkerThread.not_alive_iff] at hw
  rcases hw with hw | hw <;> simp [RealTimeScheduler.claimedUnit?, claimed?, hw]

/-- A health check that does not call for recovery leaves the timing controller alone. -/
theorem finishHealthCheck_timingController {caller : Thread} {health : SystemHealth}
    {callbacks : List (Option SystemHealth)} (spawned : Bool)
    (h : s.recoveryFires health callbacks = false) :
    (s.finishHealthCheck caller health callbacks spawned).timingController =
      s.timingController := by
  unfold finishHealthCheck
  dsimp only
  split
  next hcall =>
    rw [Bool.and_eq_true] at hcall
    unfold attemptRecovery
    split
    · rfl
    · split
      · rfl
      next hn =>
        have hc : s.timingController = none := by
          rw [← Option.not_isSome_iff_eq_none]
          intro hc
          simp only [recoveryFires, hcall.1, hc, Bool.and_true, Bool.true_and, Bool.and_eq_false_iff,
            decide_eq_false_iff_not, not_lt] at h
          rcases h with h | h
          · exact absurd (hcall.2.symm.trans h) (by simp)
          · exact hn h
        simp [hc]
  · rfl

/-- **A worker's step moves the loop, or leaves the timing controller alone**, if its health check
does not call for recovery. -/
theorem workerStep_timingController {a : Action} (h : s.workerStep a = some t)
    (ha : s.recoversOn a = none) :
    t.timingController = s.timingController ∨
      ∃ c scheduler, s.timingController = some c ∧ LoopMove c.scheduler scheduler ∧
        t.timingController = some { c with scheduler } := by
  cases a with
  | call caller c => exact absurd h (by simp [workerStep])
  | schedulerStep st =>
    obtain ⟨c, hc, h⟩ := Option.bind_eq_some_iff.mp h
    obtain ⟨scheduler, hm, rfl⟩ := Option.map_eq_some_iff.mp h
    exact .inr ⟨c, scheduler, hc, loopMove_of_loopStep hm, rfl⟩
  | dispatchStep st =>
    obtain ⟨bus, -, rfl⟩ := Option.map_eq_some_iff.mp h
    exact .inl rfl
  | beginCheck =>
    change s.beginCheck = some t at h
    unfold beginCheck at h
    split at h
    · exact .inl (Option.some.inj h ▸ rfl)
    · cases h
  | finishCheck callbacks spawned =>
    change s.finishCheck callbacks spawned = some t at h
    unfold finishCheck at h
    split at h
    next health hpc =>
      split at h
      · cases h
      · obtain ⟨⟩ := h
        refine .inl (finishHealthCheck_timingController spawned ?_)
        simp only [recoversOn, hpc] at ha
        split at ha
        · exact absurd ha (by simp)
        next hf => simpa using hf
    · cases h
  | refreshStatistics =>
    change s.refreshStatistics = some t at h
    unfold refreshStatistics updateStatistics at h
    split at h
    · split at h <;> exact .inl (Option.some.inj h ▸ rfl)
    · cases h
  | exitMonitor =>
    change s.exitMonitor = some t at h
    unfold exitMonitor at h
    split at h
    · exact .inl (Option.some.inj h ▸ rfl)
    · cases h

end AxonVexSystem

/-! ## Steps of the calls -/

namespace Shared

open AxonVexSystem

variable {m m' : Shared} {thread : Thread} {unit : UnitPtr}

/-- A step brings no loop and no task, and lets no one through the teardown mutex while there is a
loop. -/
structure Steady (m m' : Shared) : Prop where
  tasksInStep : m.system.TasksInStep → m'.system.TasksInStep
  noLoop : m.system.NoLoop → m'.system.NoLoop
  notScheduled : ∀ unit, m.system.TasksInStep → m.system.NotScheduled unit →
    m'.system.NotScheduled unit
  waiting : m.teardown.isSome = true ∨ m.system.NoLoop →
    m'.teardown.isSome = true ∨ m'.system.NoLoop

theorem steady_of_quiets (h : Quiets m.system m'.system)
    (ht : m.teardown.isSome = true → m'.teardown.isSome = true ∨ m'.system.NoLoop) :
    Steady m m' where
  tasksInStep := h.tasksInStep
  noLoop := h.noLoop
  notScheduled _ _ := h.notScheduled
  waiting hw := hw.elim ht fun hn => .inr (h.noLoop hn)

/-- A step on the system that quiets it. -/
theorem steady_put {system : AxonVexSystem} (h : Quiets m.system system) :
    Steady m (m.put system) :=
  steady_of_quiets h .inl

/-- A step on other parts of the system. -/
theorem steady_put_of_eq {system : AxonVexSystem}
    (h : system.timingController = m.system.timingController) : Steady m (m.put system) :=
  steady_put (quiets_of_eq h)

/-- What a shutdown has achieved: past the join of the scheduler there is no loop, and when it is
over someone has the mutex or there is no loop.  On the scheduler thread it does not get the
mutex. -/
def ShutdownOk (m : Shared) (thread : Thread) : ShutdownPc → Prop
  | .transition => True
  | .latch => True
  | .stopBus => True
  | .stopMonitor => True
  | .tryTeardown => True
  | .clear => thread ≠ .scheduler ∧ m.system.NoLoop
  | .destroy _ => thread ≠ .scheduler ∧ m.system.NoLoop
  | .release => thread ≠ .scheduler ∧ m.system.NoLoop
  | .done => m.teardown.isSome = true ∨ m.system.NoLoop
  | _ => thread ≠ .scheduler

/-- Stopped from outside, the scheduler has no loop. -/
theorem noLoop_stopComponents {s : AxonVexSystem} (h : thread ≠ .scheduler) :
    (s.stopComponents thread).NoLoop := by
  intro r hr
  obtain ⟨c', hc', rfl⟩ := Option.map_eq_some_iff.mp hr
  obtain ⟨c, -, rfl⟩ := Option.map_eq_some_iff.mp hc'
  rw [beq_eq_false_iff_ne.mpr h]
  rfl

/-- **A step of a shutdown.** -/
theorem steady_shutdownStep {pc pc' : ShutdownPc} (hok : ShutdownOk m thread pc)
    (hG : pc = .tryTeardown → thread = .scheduler → m.teardown.isSome = true)
    (h : m.shutdownStep thread pc = some (m', pc')) : Steady m m' ∧ ShutdownOk m' thread pc' := by
  cases pc with
  | transition =>
    obtain ⟨⟩ := h
    exact ⟨steady_put_of_eq transitionState_timingController, trivial⟩
  | latch =>
    obtain ⟨⟩ := h
    exact ⟨steady_put_of_eq rfl, trivial⟩
  | stopBus =>
    obtain ⟨⟩ := h
    exact ⟨steady_put_of_eq rfl, trivial⟩
  | stopMonitor =>
    obtain ⟨⟩ := h
    exact ⟨steady_put_of_eq rfl, trivial⟩
  | tryTeardown =>
    simp only [shutdownStep] at h
    split at h
    next ht =>
      obtain ⟨⟩ := h
      exact ⟨steady_put_of_eq rfl, .inl ht⟩
    next ht =>
      obtain ⟨⟩ := h
      exact ⟨steady_of_quiets (quiets_of_eq rfl) fun _ => .inl rfl, fun hs => ht (hG rfl hs)⟩
  | joinBus =>
    simp only [shutdownStep] at h
    split at h
    · obtain ⟨⟩ := h
      exact ⟨steady_put_of_eq rfl, hok⟩
    · cases h
  | joinMonitor =>
    simp only [shutdownStep] at h
    split at h
    · obtain ⟨⟩ := h
      exact ⟨steady_put_of_eq rfl, hok⟩
    · cases h
  | halt =>
    obtain ⟨⟩ := h
    exact ⟨steady_put (quiets_halted m), hok⟩
  | joinScheduler =>
    simp only [shutdownStep] at h
    split at h
    · obtain ⟨⟩ := h
      exact ⟨steady_put (quiets_stopComponents thread), hok, noLoop_stopComponents hok⟩
    · cases h
  | release =>
    obtain ⟨⟩ := h
    exact ⟨steady_of_quiets (quiets_of_eq rfl) fun _ => .inr hok.2, .inr hok.2⟩
  | done => exact absurd h (by simp [shutdownStep])
  | _ =>
    obtain ⟨⟩ := h
    exact ⟨steady_put_of_eq rfl, hok⟩

/-- What a call has achieved where it stands. -/
def CallOk (m : Shared) (thread : Thread) : TeardownCall → Prop
  | .unregister (.destroy _ unit) => m.system.NotScheduled unit.ptr
  | .unregister _ => True
  | .shutdown pc => pc ≠ .done ∧ ShutdownOk m thread pc
  | .reset (.shutdown pc) => thread ≠ .scheduler ∧ pc ≠ .done ∧ ShutdownOk m thread pc
  | .reset .waitTeardown => thread ≠ .scheduler ∧ (m.teardown.isSome = true ∨ m.system.NoLoop)
  | .reset _ => thread ≠ .scheduler ∧ m.system.NoLoop
  | .stop .cleanup => thread ≠ .scheduler ∧ m.system.NoLoop
  | .stop .release => thread ≠ .scheduler ∧ m.system.NoLoop
  | .stop (.shutdown pc) => thread ≠ .scheduler ∧ pc ≠ .done ∧ ShutdownOk m thread pc
  | .stop _ => thread ≠ .scheduler
  | .recover _ => True

theorem ShutdownOk.of_steady {pc : ShutdownPc} (h : Steady m m') (hok : ShutdownOk m thread pc) :
    ShutdownOk m' thread pc := by
  cases pc with
  | clear => exact ⟨hok.1, h.noLoop hok.2⟩
  | destroy units => exact ⟨hok.1, h.noLoop hok.2⟩
  | release => exact ⟨hok.1, h.noLoop hok.2⟩
  | done => exact h.waiting hok
  | _ => exact hok

/-- What one thread does takes nothing from another's call. -/
theorem CallOk.of_steady {call : TeardownCall} (h : Steady m m') (hin : m.system.TasksInStep)
    (hok : CallOk m thread call) : CallOk m' thread call := by
  cases call with
  | unregister pc =>
    cases pc with
    | destroy unitId unit => exact h.notScheduled unit.ptr hin hok
    | _ => trivial
  | shutdown pc => exact ⟨hok.1, hok.2.of_steady h⟩
  | reset pc =>
    cases pc with
    | shutdown pc => exact ⟨hok.1, hok.2.1, hok.2.2.of_steady h⟩
    | waitTeardown => exact ⟨hok.1, h.waiting hok.2⟩
    | _ => exact ⟨hok.1, h.noLoop hok.2⟩
  | stop pc =>
    cases pc with
    | cleanup => exact ⟨hok.1, h.noLoop hok.2⟩
    | release => exact ⟨hok.1, h.noLoop hok.2⟩
    | shutdown pc => exact ⟨hok.1, hok.2.1, hok.2.2.of_steady h⟩
    | _ => exact hok
  | recover pc => trivial

/-- A step of `unregisterProcessingUnit`. -/
theorem steady_unregisterStep {pc : UnregisterPc} {pc' : Option UnregisterPc}
    (hin : m.system.TasksInStep) (hok : CallOk m thread (.unregister pc))
    (hidle : ∀ unitId unit, pc = .removeTask unitId unit →
      ∀ c ∈ m.system.timingController, c.IdleUnit unit.ptr)
    (h : m.unregisterStep pc = (m', pc')) :
    Steady m m' ∧ ∀ pc, pc' = some pc → CallOk m' thread (.unregister pc) := by
  cases pc with
  | remove unitId =>
    simp only [unregisterStep] at h
    split at h <;> obtain ⟨rfl, rfl⟩ := Prod.mk.inj h
    · exact ⟨steady_put_of_eq rfl, by simp⟩
    · refine ⟨steady_put_of_eq rfl, fun pc hpc => ?_⟩
      obtain ⟨⟩ := hpc
      trivial
  | removePorts unitId unit =>
    obtain ⟨rfl, rfl⟩ := Prod.mk.inj h
    refine ⟨steady_put_of_eq rfl, fun pc hpc => ?_⟩
    obtain ⟨⟩ := hpc
    trivial
  | removeTask unitId unit =>
    obtain ⟨rfl, rfl⟩ := Prod.mk.inj h
    have hc := hidle unitId unit rfl
    refine ⟨⟨fun hin => ?_, fun hn => ?_, fun v hin hn => ?_, fun hw => ?_⟩, fun pc hpc => ?_⟩
    · intro c' hc'
      obtain ⟨c, hcc, rfl⟩ := Option.map_eq_some_iff.mp hc'
      exact (hin c hcc).remove (hc c hcc)
    · exact hn.map rfl fun c => (TimingController.sameLoop_removeProcessingUnit unit.ptr).worker
    · intro c' hc'
      obtain ⟨c, hcc, rfl⟩ := Option.map_eq_some_iff.mp hc'
      exact (hn c hcc).remove (hin c hcc) (hc c hcc)
    · exact hw.imp_right fun hn =>
        hn.map rfl fun c => (TimingController.sameLoop_removeProcessingUnit unit.ptr).worker
    · obtain ⟨⟩ := hpc
      intro c' hc'
      obtain ⟨c, hcc, rfl⟩ := Option.map_eq_some_iff.mp hc'
      exact (hin c hcc).notScheduled_remove (hc c hcc)
  | destroy unitId unit =>
    obtain ⟨rfl, rfl⟩ := Prod.mk.inj h
    refine ⟨steady_put_of_eq rfl, fun pc hpc => ?_⟩
    obtain ⟨⟩ := hpc
    trivial
  | finish unitId unitName =>
    obtain ⟨rfl, rfl⟩ := Prod.mk.inj h
    exact ⟨steady_put_of_eq rfl, by simp⟩

/-- A step of `reset`. -/
theorem steady_resetStep {pc : ResetPc} {pc' : Option ResetPc} (hok : CallOk m thread (.reset pc))
    (h : m.resetStep thread pc = some (m', pc')) :
    Steady m m' ∧ ∀ pc, pc' = some pc → CallOk m' thread (.reset pc) := by
  cases pc with
  | shutdown pc =>
    obtain ⟨⟨n, pc₁⟩, hs, ⟨⟩⟩ := Option.map_eq_some_iff.mp h
    obtain ⟨hst, hok'⟩ := steady_shutdownStep hok.2.2 (fun _ hsch => absurd hsch hok.1) hs
    refine ⟨hst, fun pc hpc => ?_⟩
    obtain ⟨⟩ := hpc
    cases pc₁ with
    | done => exact ⟨hok.1, hok'⟩
    | _ => exact ⟨hok.1, by simp, hok'⟩
  | waitTeardown =>
    simp only [resetStep] at h
    split at h
    · cases h
    next ht =>
      obtain ⟨⟩ := h
      refine ⟨steady_put_of_eq rfl, fun pc hpc => ?_⟩
      obtain ⟨⟩ := hpc
      exact ⟨hok.1, hok.2.resolve_left ht⟩
  | joinBus =>
    simp only [resetStep] at h
    split at h
    · obtain ⟨⟩ := h
      refine ⟨steady_put_of_eq rfl, fun pc hpc => ?_⟩
      obtain ⟨⟩ := hpc
      exact hok
    · cases h
  | joinMonitor =>
    simp only [resetStep] at h
    split at h
    · obtain ⟨⟩ := h
      refine ⟨steady_put_of_eq rfl, fun pc hpc => ?_⟩
      obtain ⟨⟩ := hpc
      exact hok
    · cases h
  | transition =>
    obtain ⟨⟩ := h
    have hst : Steady m (m.put { (m.system.transitionState .uninitialized).1 with
        statistics := {}, currentRecoveryAttempts := 0 }) :=
      steady_put_of_eq transitionState_timingController
    refine ⟨hst, fun pc hpc => ?_⟩
    obtain ⟨⟩ := hpc
    exact ⟨hok.1, hst.noLoop hok.2⟩
  | clear =>
    obtain ⟨⟩ := h
    refine ⟨steady_put_of_eq rfl, fun pc hpc => ?_⟩
    obtain ⟨⟩ := hpc
    exact hok
  | destroy units =>
    obtain ⟨⟩ := h
    refine ⟨steady_put_of_eq rfl, fun pc hpc => ?_⟩
    obtain ⟨⟩ := hpc
    exact hok
  | components =>
    simp only [resetStep] at h
    split at h
    · obtain ⟨⟩ := h
      exact ⟨steady_put (quiets_of_none rfl), by simp⟩
    · cases h

/-- A step of `stop`, but the release of the mutex after an exception. -/
theorem steady_stopStep {pc : StopPc} {pc' : Option StopPc} (hok : CallOk m thread (.stop pc))
    (hpc : pc ≠ .abandon) (h : m.stopStep thread pc = some (m', pc')) :
    Steady m m' ∧ ∀ pc, pc' = some pc → CallOk m' thread (.stop pc) := by
  cases pc with
  | transition =>
    simp only [stopStep] at h
    obtain ⟨⟩ := h
    refine ⟨steady_put_of_eq transitionState_timingController, fun pc hpc => ?_⟩
    split at hpc
    · obtain ⟨⟩ := hpc
      exact hok
    · exact absurd hpc (by simp)
  | acquire =>
    simp only [stopStep] at h
    split at h
    · cases h
    · obtain ⟨⟩ := h
      exact ⟨steady_of_quiets (quiets_of_eq rfl) fun _ => .inl rfl,
        fun pc hpc => Option.some.inj hpc ▸ hok⟩
  | joinBus =>
    simp only [stopStep] at h
    split at h
    · obtain ⟨⟩ := h
      exact ⟨steady_put_of_eq rfl, fun pc hpc => Option.some.inj hpc ▸ hok⟩
    · cases h
  | joinMonitor =>
    simp only [stopStep] at h
    split at h
    · obtain ⟨⟩ := h
      exact ⟨steady_put_of_eq rfl, fun pc hpc => Option.some.inj hpc ▸ hok⟩
    · cases h
  | halt =>
    obtain ⟨⟩ := h
    exact ⟨steady_put (quiets_halted m), fun pc hpc => Option.some.inj hpc ▸ hok⟩
  | joinScheduler =>
    simp only [stopStep] at h
    split at h
    · obtain ⟨⟩ := h
      exact ⟨steady_put (quiets_stopComponents thread),
        fun pc hpc => Option.some.inj hpc ▸ ⟨hok, noLoop_stopComponents hok⟩⟩
    · cases h
  | cleanup =>
    obtain ⟨⟩ := h
    have hq : Quiets m.system m.system.cleanupComponents := quiets_of_none rfl
    exact ⟨steady_put hq, fun pc hpc => Option.some.inj hpc ▸ ⟨hok.1, hq.noLoop hok.2⟩⟩
  | release =>
    obtain ⟨⟩ := h
    exact ⟨steady_of_quiets (quiets_of_eq rfl) fun _ => .inr hok.2,
      fun pc hpc => Option.some.inj hpc ▸ hok.1⟩
  | finish =>
    obtain ⟨⟩ := h
    exact ⟨steady_put_of_eq transitionState_timingController, by simp⟩
  | abandon => exact absurd rfl hpc
  | shutdown pc =>
    obtain ⟨⟨n, pc₁⟩, hs, ⟨⟩⟩ := Option.map_eq_some_iff.mp h
    obtain ⟨hst, hok'⟩ := steady_shutdownStep hok.2.2 (fun _ hsch => absurd hsch hok.1) hs
    refine ⟨hst, fun pc hpc => ?_⟩
    cases pc₁ with
    | done => exact absurd hpc (by simp)
    | _ =>
      obtain ⟨⟩ := hpc
      exact ⟨hok.1, by simp, hok'⟩
  | _ =>
    obtain ⟨⟩ := h
    exact ⟨steady_put_of_eq rfl, fun pc hpc => Option.some.inj hpc ▸ hok⟩

/-- A step of a recovery, but the restart. -/
theorem steady_recoverStep {pc : RecoverPc} {pc' : Option RecoverPc}
    (hpc : ∀ spawned, pc ≠ .restart spawned) (h : m.recoverStep thread pc = some (m', pc')) :
    Steady m m' := by
  cases pc with
  | halt spawned =>
    obtain ⟨⟩ := h
    exact steady_put (quiets_halted m)
  | joinScheduler spawned =>
    simp only [recoverStep] at h
    split at h
    · obtain ⟨⟩ := h
      exact steady_put (quiets_stopComponents thread)
    · cases h
  | restart spawned => exact absurd rfl (hpc spawned)

/-- **A step of a call**, but the restart of a recovery and the release of the mutex after an
exception. -/
theorem steady_callStep {call : TeardownCall} {call' : Option TeardownCall}
    (hin : m.system.TasksInStep) (hok : CallOk m thread call)
    (hidle : ∀ unitId unit, call = .unregister (.removeTask unitId unit) →
      ∀ c ∈ m.system.timingController, c.IdleUnit unit.ptr)
    (hout : call = .shutdown .tryTeardown → thread = .scheduler → m.teardown.isSome = true)
    (hrestart : ∀ spawned, call ≠ .recover (.restart spawned)) (habandon : call ≠ .stop .abandon)
    (h : m.callStep thread call = some (m', call')) :
    Steady m m' ∧ ∀ call, call' = some call → CallOk m' thread call := by
  cases call with
  | unregister pc =>
    simp only [callStep] at h
    obtain ⟨⟩ := h
    obtain ⟨hst, hok'⟩ := steady_unregisterStep hin hok
      (fun unitId unit hpc => hidle unitId unit (hpc ▸ rfl)) rfl
    refine ⟨hst, fun call hcall => ?_⟩
    obtain ⟨pc', hpc', rfl⟩ := Option.map_eq_some_iff.mp hcall
    exact hok' pc' hpc'
  | shutdown pc =>
    obtain ⟨⟨n, pc₁⟩, hs, ⟨⟩⟩ := Option.map_eq_some_iff.mp h
    obtain ⟨hst, hok'⟩ := steady_shutdownStep hok.2 (fun hpc => hout (hpc ▸ rfl)) hs
    refine ⟨hst, fun call hcall => ?_⟩
    cases pc₁ with
    | done => exact absurd hcall (by simp)
    | _ =>
      obtain ⟨⟩ := hcall
      exact ⟨by simp, hok'⟩
  | reset pc =>
    obtain ⟨⟨n, pc₁⟩, hs, ⟨⟩⟩ := Option.map_eq_some_iff.mp h
    obtain ⟨hst, hok'⟩ := steady_resetStep hok hs
    refine ⟨hst, fun call hcall => ?_⟩
    obtain ⟨pc', hpc', rfl⟩ := Option.map_eq_some_iff.mp hcall
    exact hok' pc' hpc'
  | stop pc =>
    obtain ⟨⟨n, pc₁⟩, hs, ⟨⟩⟩ := Option.map_eq_some_iff.mp h
    obtain ⟨hst, hok'⟩ := steady_stopStep hok (fun hpc => habandon (hpc ▸ rfl)) hs
    refine ⟨hst, fun call hcall => ?_⟩
    obtain ⟨pc', hpc', rfl⟩ := Option.map_eq_some_iff.mp hcall
    exact hok' pc' hpc'
  | recover pc =>
    obtain ⟨⟨n, pc₁⟩, hs, ⟨⟩⟩ := Option.map_eq_some_iff.mp h
    refine ⟨steady_recoverStep (fun spawned hpc => hrestart spawned (hpc ▸ rfl)) hs,
      fun call hcall => ?_⟩
    obtain ⟨pc', hpc', rfl⟩ := Option.map_eq_some_iff.mp hcall
    trivial

/-! ## Where a step is not steady -/

/-- Giving the mutex up takes nothing from a call that does not wait for it. -/
theorem CallOk.of_release {call : TeardownCall} (hcall : call ≠ .reset .waitTeardown)
    (hok : CallOk m thread call) : CallOk { m with teardown := none } thread call := by
  have hshutdown {pc : ShutdownPc} (hpc : pc ≠ .done) (h : ShutdownOk m thread pc) :
      ShutdownOk { m with teardown := none } thread pc := by
    cases pc with
    | done => exact absurd rfl hpc
    | _ => exact h
  cases call with
  | unregister pc => cases pc <;> exact hok
  | shutdown pc => exact ⟨hok.1, hshutdown hok.1 hok.2⟩
  | reset pc =>
    cases pc with
    | shutdown pc => exact ⟨hok.1, hok.2.1, hshutdown hok.2.1 hok.2.2⟩
    | waitTeardown => exact absurd rfl hcall
    | _ => exact hok
  | stop pc =>
    cases pc with
    | shutdown pc => exact ⟨hok.1, hok.2.1, hshutdown hok.2.1 hok.2.2⟩
    | _ => exact hok
  | recover pc => trivial

/-- The restart of a recovery changes no task. -/
theorem restart_tasks {spawned : Bool} {pc' : Option RecoverPc}
    (h : m.recoverStep thread (.restart spawned) = some (m', pc')) :
    pc' = none ∧ (m.system.TasksInStep → m'.system.TasksInStep) ∧
      ∀ unit, m.system.NotScheduled unit → m'.system.NotScheduled unit := by
  simp only [recoverStep] at h
  split at h
  · obtain ⟨⟩ := h
    -- on the monitor's thread the monitor goes on besides
    have hmonitor (s : AxonVexSystem) : (if thread = .monitor then { s with
        healthMonitor := { s.healthMonitor with worker := .running .polling } } else s).timingController
        = s.timingController := by
      split <;> rfl
    refine ⟨rfl, fun hin c' hc' => ?_, fun unit hn c' hc' => ?_⟩
    · replace hc' := (hmonitor _).symm.trans hc'
      split at hc'
      · exact hin c' hc'
      next c hc =>
        obtain ⟨⟩ := hc'
        exact (hin c hc).start _ _
    · replace hc' := (hmonitor _).symm.trans hc'
      split at hc'
      · exact hn c' hc'
      next c hc =>
        obtain ⟨⟩ := hc'
        exact (hn c hc).start _ _
  · cases h

end Shared

/-! ## The start -/

namespace AxonVexSystem

open RealTimeScheduler

variable {s t : AxonVexSystem}

/-- The ids of the timing controller, if there is one, are fresh. -/
def IdsFresh (s : AxonVexSystem) : Prop := ∀ c ∈ s.timingController, c.IdsFresh

theorem tasksInStep_scheduleUnit {unit : ProcessingUnit} (h : s.TasksInStep) (hids : s.IdsFresh)
    (hnew : ∀ c ∈ s.timingController, c.unitToTaskId.lookup unit.ptr = none)
    (constraints : TimingConstraints) (now : TimePoint) :
    (s.scheduleUnit unit constraints now).TasksInStep ∧
      (s.scheduleUnit unit constraints now).IdsFresh ∧
      ∀ v ≠ unit.ptr, (∀ c ∈ s.timingController, c.unitToTaskId.lookup v = none) →
        ∀ c ∈ (s.scheduleUnit unit constraints now).timingController,
          c.unitToTaskId.lookup v = none := by
  unfold scheduleUnit
  split
  next hn =>
    exact ⟨fun c hc => absurd (hn.symm.trans hc) (by simp),
      fun c hc => absurd (hn.symm.trans hc) (by simp), fun v _ hv => hv⟩
  next c hc =>
    obtain ⟨hin, hids', hother⟩ := (h c hc).schedule (hids c hc) (hnew c hc) unit.name constraints now
    refine ⟨fun c' hc' => ?_, fun c' hc' => ?_, fun v hv hun c' hc' => ?_⟩ <;>
      obtain ⟨⟩ := hc'
    · exact hin
    · exact hids'
    · exact hother v hv (hun c hc)

/-- **Scheduling units that have no task yet**, one after the other. -/
theorem tasksInStep_scheduleAll {units : List ProcessingUnit}
    {constraints : AxonVexSystem → TimingConstraints} {now : TimePoint}
    (hnd : (units.map (·.ptr)).Nodup) (h : s.TasksInStep) (hids : s.IdsFresh)
    (hnew : ∀ u ∈ units, ∀ c ∈ s.timingController, c.unitToTaskId.lookup u.ptr = none) :
    (units.foldl (fun s u => s.scheduleUnit u (constraints s) now) s).TasksInStep := by
  induction units generalizing s with
  | nil => exact h
  | cons u units ih =>
    obtain ⟨hu, hnd⟩ := List.nodup_cons.mp hnd
    obtain ⟨hin, hids', hother⟩ := tasksInStep_scheduleUnit h hids (hnew u (List.mem_cons_self ..))
      (constraints s) now
    refine ih hnd hin hids' fun v hv =>
      hother v.ptr (fun he => hu ?_) (hnew v (List.mem_cons_of_mem u hv))
    exact List.mem_map.mpr ⟨v, hv, he⟩

/-- A run has brought the system to an accepted `start()` with its timing controller as
constructed. -/
def Started (t : AxonVexSystem) : Prop :=
  ∃ r caller env, SystemRun.machine.Reachable r ∧
    (∃ objectId policy, r.system.timingController = some (.new objectId policy)) ∧
    r.system.start caller env = .returned (t, true)

/-- **Just started, the tasks are in step with the units.** -/
theorem Started.tasksInStep (h : Started t) : t.TasksInStep := by
  obtain ⟨r, caller, env, hr, ⟨objectId, policy, hc⟩, hstart⟩ := h
  have hnd : (r.system.unitRegistry.all.map (·.ptr)).Nodup :=
    (SystemRun.registriesValid_of_reachable hr).registry.nodup_ptrs
  unfold start at hstart
  simp only [transitionState_snd] at hstart
  split at hstart
  · obtain ⟨⟨u, ok⟩, hcomp, hstart⟩ := Outcome.andThen_eq_returned.mp hstart
    unfold startComponents at hcomp
    rw [transitionState_timingController, hc] at hcomp
    dsimp only at hcomp
    split at hcomp
    · obtain ⟨⟩ := hcomp
      simp only [Bool.false_eq_true, if_false] at hstart
      exact absurd (Outcome.pair_inj hstart).2 (by simp)
    · obtain ⟨⟩ := hcomp
      simp only [if_true] at hstart
      split at hstart
      · obtain ⟨rfl, -⟩ := Outcome.pair_inj hstart
        refine (quiets_of_eq transitionState_timingController).tasksInStep ?_
        refine tasksInStep_scheduleAll (s := _) (by simpa using hnd) ?_ ?_ ?_
        · intro c' hc'
          obtain ⟨⟩ := hc'
          exact (TimingController.inStep_new objectId policy).start _ _
        · intro c' hc'
          obtain ⟨⟩ := hc'
          exact (TimingController.idsFresh_new objectId policy).start _ _
        · intro v hv c' hc'
          obtain ⟨⟩ := hc'
          rfl
      · exact absurd (Outcome.pair_inj hstart).2 (by simp)
  · exact absurd (Outcome.pair_inj hstart).2 (by simp)

end AxonVexSystem

/-! ## Runs -/

namespace TeardownCall

/-- The call is an `emergencyShutdown`, a `reset` or a `stop`. -/
def stopsSystem : TeardownCall → Bool
  | unregister _ => false
  | shutdown _ => true
  | reset _ => true
  | stop _ => true
  | recover _ => false

/-- The units the call is about to destroy. -/
def doomed : TeardownCall → List ProcessingUnit
  | unregister (.destroy _ unit) => [unit]
  | shutdown (.destroy units) => units
  | reset (.destroy units) => units
  | reset (.shutdown (.destroy units)) => units
  | stop (.shutdown (.destroy units)) => units
  | _ => []

end TeardownCall

namespace Teardown

open AxonVexSystem Shared

variable {p q : Teardown} {thread : Thread} {call : TeardownCall} {unit : ProcessingUnit}

/-- **The condition** on the next step of a call. -/
structure OrderlyCall (p : Teardown) (thread : Thread) (call : TeardownCall) : Prop where
  /-- a unit that is unregistered is not being executed when its task goes -/
  idle : ∀ unitId unit, call = .unregister (.removeTask unitId unit) →
    ∀ c ∈ p.system.timingController, c.IdleUnit unit.ptr
  /-- no emergency shutdown gets the teardown mutex on the scheduler's thread -/
  outside : call = .shutdown .tryTeardown → thread = .scheduler → p.shared.teardown.isSome = true
  /-- a recovery restarts the scheduler while nothing stops the system -/
  restart : ∀ spawned, call = .recover (.restart spawned) →
    ∀ other call', p.calls other = some call' → call'.stopsSystem = false
  /-- a `stop()` that fails gives the mutex up while no reset waits for it -/
  release : call = .stop .abandon → ∀ other, p.calls other ≠ some (.reset .waitTeardown)

/-- **The condition** on the steps of a run. -/
def Orderly (p : Teardown) : Move → Prop
  | .begin _ _ => True
  | .advance thread => ∀ call, p.calls thread = some call → p.OrderlyCall thread call
  | .throws _ => True
  | .worker _ => True

/-- The tasks are in step with the units, and every call has achieved what it should. -/
def CallsOk (p : Teardown) : Prop :=
  p.system.TasksInStep ∧ ∀ thread call, p.calls thread = some call → CallOk p.shared thread call

/-- One thread's step, and what it means to the others. -/
theorem CallsOk.after {shared : Shared} {call' : Option TeardownCall}
    (hin : shared.system.TasksInStep) (hown : ∀ call, call' = some call → CallOk shared thread call)
    (hother : ∀ other call, other ≠ thread → p.calls other = some call → CallOk shared other call) :
    (p.after thread shared call').CallsOk := by
  refine ⟨hin, fun other call hcall => ?_⟩
  change Function.update p.calls thread call' other = some call at hcall
  by_cases ho : other = thread
  · subst ho
    exact hown call (by simpa using hcall)
  · rw [Function.update_of_ne ho] at hcall
    exact hother other call ho hcall

/-- A steady step. -/
theorem CallsOk.of_steady {shared : Shared} {call' : Option TeardownCall} (hp : p.CallsOk)
    (h : Steady p.shared shared) (hown : ∀ call, call' = some call → CallOk shared thread call) :
    (p.after thread shared call').CallsOk :=
  .after (h.tasksInStep hp.1) hown fun other call _ hcall => (hp.2 other call hcall).of_steady h hp.1

/-- A call begins. -/
theorem CallsOk.begin {c : Beginning} (hp : p.CallsOk)
    (h : p.step (.begin thread c) = some q) : q.CallsOk := by
  simp only [step] at h
  split at h
  next hcond =>
    obtain ⟨⟨system, call⟩, hb, rfl⟩ := Option.map_eq_some_iff.mp h
    -- on the scheduler's thread, `reset` and `stop` are refused
    have hout (hw : p.system.isOnWorkerThread thread = false) : thread ≠ .scheduler := by
      rintro rfl
      obtain ⟨r, hr, -⟩ := (Option.any_eq_true _ _).mp hcond.2
      obtain ⟨c, hc, -⟩ := Option.map_eq_some_iff.mp hr
      exact absurd hw (by simp [isOnWorkerThread, hc])
    cases c with
    | unregisterProcessingUnit unitId =>
      obtain ⟨⟩ := hb
      exact hp.of_steady (steady_put_of_eq rfl) fun call hcall => Option.some.inj hcall ▸ trivial
    | emergencyShutdown =>
      obtain ⟨⟩ := hb
      exact hp.of_steady (steady_put_of_eq rfl) fun call hcall =>
        Option.some.inj hcall ▸ ⟨by simp, trivial⟩
    | reset =>
      simp only [beginCall] at hb
      split at hb
      · exact absurd hb (by simp)
      next hw =>
        obtain ⟨⟩ := hb
        exact hp.of_steady (steady_put_of_eq rfl) fun call hcall =>
          Option.some.inj hcall ▸ ⟨hout (Bool.eq_false_iff.mpr hw), by simp, trivial⟩
    | stop =>
      simp only [beginCall] at hb
      split at hb
      · exact absurd hb (by simp)
      next hw =>
        obtain ⟨⟩ := hb
        exact hp.of_steady (steady_put_of_eq rfl) fun call hcall =>
          Option.some.inj hcall ▸ hout (Bool.eq_false_iff.mpr hw)
    | attemptRecovery spawned =>
      simp only [beginCall] at hb
      split at hb
      · obtain ⟨⟩ := hb
        exact hp.of_steady (steady_put_of_eq rfl) fun call hcall => Option.some.inj hcall ▸ trivial
      · exact absurd hb (by simp)
  · cases h

/-- A call goes on. -/
theorem CallsOk.advance (hp : p.CallsOk) (hG : p.Orderly (.advance thread))
    (h : p.step (.advance thread) = some q) : q.CallsOk := by
  obtain ⟨call, hcall, h⟩ := Option.bind_eq_some_iff.mp h
  obtain ⟨⟨shared, call'⟩, hstep, rfl⟩ := Option.map_eq_some_iff.mp h
  have hok := hp.2 thread call hcall
  obtain ⟨hidle, hout, hrestart, hrelease⟩ := hG call hcall
  by_cases hr : ∃ spawned, call = .recover (.restart spawned)
  · obtain ⟨spawned, rfl⟩ := hr
    obtain ⟨⟨m, pc'⟩, hrec, ⟨⟩⟩ := Option.map_eq_some_iff.mp hstep
    obtain ⟨rfl, hin, hn⟩ := restart_tasks hrec
    refine .after (hin hp.1) (by simp) fun other call' _ hcall' => ?_
    -- nothing is in progress that counts on the loop being gone
    have hstops := hrestart spawned rfl other call' hcall'
    have hok' := hp.2 other call' hcall'
    cases call' with
    | unregister pc =>
      cases pc with
      | destroy unitId unit => exact hn unit.ptr hok'
      | _ => trivial
    | recover pc => trivial
    | _ => exact absurd hstops (by simp [TeardownCall.stopsSystem])
  · by_cases ha : call = .stop .abandon
    · subst ha
      obtain ⟨⟩ := hstep
      refine .after hp.1 (fun call hc => ?_) fun other call' _ hcall' => ?_
      · obtain ⟨⟩ := hc
        exact ⟨hok, by simp, trivial⟩
      · exact (hp.2 other call' hcall').of_release fun hw => hrelease rfl other (hw ▸ hcall')
    · obtain ⟨hst, hok'⟩ := steady_callStep hp.1 hok hidle hout
        (fun spawned hc => hr ⟨spawned, hc⟩) ha hstep
      exact hp.of_steady hst hok'

/-- A call ends in an exception. -/
theorem CallsOk.throws (hp : p.CallsOk) (h : p.step (.throws thread) = some q) : q.CallsOk := by
  obtain ⟨call, hcall, h⟩ := Option.bind_eq_some_iff.mp h
  obtain ⟨call', hthrown, rfl⟩ := Option.map_eq_some_iff.mp h
  have hok := hp.2 thread call hcall
  refine .after hp.1 (fun c hc => ?_) fun other c _ hc => hp.2 other c hc
  obtain ⟨⟩ := hc
  unfold thrown at hthrown
  split at hthrown <;> try obtain rfl := Option.some.inj hthrown
  · exact hok
  · exact hok
  · exact hok
  · exact hok.1
  · exact absurd hthrown (by simp)

/-- A worker's loop goes on. -/
theorem CallsOk.worker {a : Action} (hp : p.CallsOk) (h : p.step (.worker a) = some q) :
    q.CallsOk := by
  simp only [step] at h
  split at h
  next hcond =>
    obtain ⟨system, hw, rfl⟩ := Option.map_eq_some_iff.mp h
    have hst : Steady p.shared (p.shared.put system) := by
      rcases workerStep_timingController hw hcond.2 with heq | ⟨c, scheduler, hc, hm, hc'⟩
      · exact steady_put_of_eq heq
      · have hnot : ¬ p.system.NoLoop := fun hn =>
          absurd (hn c.scheduler (Option.map_eq_some_iff.mpr ⟨c, hc, rfl⟩))
            (by rw [hm.alive]; exact Bool.noConfusion)
        refine ⟨fun hin c' h' => ?_, fun hn => absurd hn hnot, fun unit hin hn c' h' => ?_,
          fun hw => .inl (hw.resolve_right hnot)⟩ <;>
          obtain rfl := Option.some.inj (hc'.symm.trans h')
        · exact ((hin c hc).loopMove hm).1
        · exact (hn c hc).of_sameTasks (TimingController.tasks_of_loopMove hm)
            ((hin c hc).loopMove hm).2
    exact ⟨hst.tasksInStep hp.1, fun thread call hcall => (hp.2 thread call hcall).of_steady hst hp.1⟩
  · cases h

/-- **In every orderly run the tasks stay in step, and every call achieves what it should.** -/
theorem callsOk_of_reachable (h : (machine Started).ReachableUnder Orderly p) : p.CallsOk := by
  refine h.invariant ⟨fun p hp => ?_, fun p a q hp hG hq => ?_⟩
  · exact ⟨hp.1.tasksInStep, fun thread call hcall => absurd ((hp.2.2 thread).symm.trans hcall) (by simp)⟩
  · cases a with
    | begin thread c => exact hp.begin hq
    | advance thread => exact hp.advance hG hq
    | throws thread => exact hp.throws hq
    | worker a => exact hp.worker hq

/-- **No unit is destroyed while the loop has a claim on it**: in every run in which a unit is
unregistered outside its execution, no shutdown tears down on the scheduler's thread, no recovery
restarts the scheduler while the system is being stopped, and no failing `stop()` lets a waiting
reset go on. -/
theorem not_destroyed_while_claimed (h : (machine Started).ReachableUnder Orderly p)
    (hcall : p.calls thread = some call) (hunit : unit ∈ call.doomed) :
    p.system.claimedUnit? ≠ some unit.ptr := by
  have hp := callsOk_of_reachable h
  have hok := hp.2 thread call hcall
  have hgone (hn : p.system.NoLoop) : p.system.claimedUnit? ≠ some unit.ptr := by
    rw [claimedUnit_of_noLoop hn]
    exact (Option.some_ne_none _).symm
  unfold TeardownCall.doomed at hunit
  split at hunit
  next unitId u =>
    obtain rfl := List.mem_singleton.mp hunit
    exact claimedUnit_ne_of_notScheduled hp.1 hok
  · exact hgone hok.2.2
  · exact hgone hok.2
  · exact hgone hok.2.2.2
  · exact hgone hok.2.2.2
  · exact absurd hunit (List.not_mem_nil)

/-- A system with one unit, about to be started. -/
def cameraRegistered : Option SystemRun :=
  SystemRun.machine.exec (SystemRun.fresh {} 0)
    [.call (.external 0) (.initializeSystem {}),
      .call (.external 0) (.registerProcessingUnit (.new 0 "camera") {} 0)]

/-- The same, started. -/
def cameraStarted : Option Teardown := cameraRegistered.bind fun r =>
  (r.system.start (.external 0) {}).toOption.map fun t => ⟨⟨t.1, none⟩, fun _ => none⟩

set_option maxRecDepth 4000 in
theorem init_cameraStarted {p : Teardown} (h : cameraStarted = some p) :
    (machine Started).init p := by
  obtain ⟨r, hr, h⟩ := Option.bind_eq_some_iff.mp h
  obtain ⟨⟨t, ok⟩, ht, rfl⟩ := Option.map_eq_some_iff.mp h
  have hcontroller : cameraRegistered.map (·.system.timingController) =
      some (some (.new 4 .priorityBased)) := rfl
  have hok : cameraRegistered.all (fun r =>
      (r.system.start (.external 0) {}).toOption.all (·.2)) = true := by decide
  rw [hr] at hcontroller hok
  obtain rfl : ok = true := by simpa [ht] using hok
  exact ⟨⟨r, .external 0, {}, SystemRun.reachable_fresh.exec hr, ⟨_, _, Option.some.inj hcontroller⟩,
    Outcome.toOption_eq_some.mp ht⟩, rfl, fun _ => rfl⟩

/-- An unregistration, up to the destruction of the unit. -/
def unregisterCamera : List Move :=
  [.begin (.external 0) (.unregisterProcessingUnit 1),
    .advance (.external 0), .advance (.external 0), .advance (.external 0)]

/-- The call in progress is an unregistration, and no task is executing. -/
def unregistersIdle (p : Teardown) : Move → Bool
  | .advance thread => (match p.calls thread with
      | some (.unregister _) => true
      | _ => false) &&
    p.system.timingController.all fun c => c.scheduler.taskPool.blocks.values.all (!·.executing)
  | _ => true

theorem orderly_of_unregistersIdle (p : Teardown) (a : Move) (h : p.unregistersIdle a = true) :
    p.Orderly a := by
  cases a with
  | advance thread =>
    intro call hcall
    rw [unregistersIdle, hcall, Bool.and_eq_true] at h
    obtain ⟨hun, hidle⟩ := h
    cases call with
    | unregister pc =>
      refine ⟨fun _ unit _ c hc id _ t ht => ?_, by simp, by simp, by simp⟩
      rw [Option.mem_def.mp hc, Option.all_some, List.all_eq_true] at hidle
      obtain ⟨block, -, hb⟩ := Option.bind_eq_some_iff.mp ht
      simpa using hidle t (AList.mem_values.mpr ⟨block, hb⟩)
    | _ => exact absurd hun (by simp)
  | _ => trivial

set_option maxRecDepth 4000 in
/-- Unregistered between its executions, the camera is destroyed while the loop has no claim on
it. -/
theorem not_destroyed_unregisterCamera : ∃ p, (machine Started).ReachableUnder Orderly p ∧
    ∃ call unit, p.calls (.external 0) = some call ∧ unit ∈ call.doomed ∧
      p.system.claimedUnit? ≠ some unit.ptr := by
  have hrun : cameraStarted.any (fun p => (machine Started).checks unregistersIdle p unregisterCamera &&
      ((machine Started).exec p unregisterCamera).any fun p =>
        (p.calls (.external 0)).any fun call => !call.doomed.isEmpty) = true := by decide
  obtain ⟨p, hp, hs⟩ := (Option.any_eq_true _ _).mp hrun
  rw [Bool.and_eq_true] at hs
  obtain ⟨q, hq, hdoomed⟩ := (Option.any_eq_true _ _).mp hs.2
  obtain ⟨call, hcall, hdoomed⟩ := (Option.any_eq_true _ _).mp hdoomed
  obtain ⟨unit, hunit⟩ := List.exists_mem_of_ne_nil call.doomed (by simpa using hdoomed)
  have hreach : (machine Started).ReachableUnder Orderly q :=
    .exec (.init (init_cameraStarted (Option.mem_def.mp hp)))
      (Machine.allowed_of_checks orderly_of_unregistersIdle hs.1) (Option.mem_def.mp hq)
  exact ⟨q, hreach, call, unit, Option.mem_def.mp hcall, hunit,
    not_destroyed_while_claimed hreach (Option.mem_def.mp hcall) hunit⟩

/-- The camera's execution begins. -/
def beginExecution : List Move :=
  [.worker (.schedulerStep .advance), .worker (.schedulerStep .advance),
    .worker (.schedulerStep (.select 100 [1])), .worker (.schedulerStep .advance),
    .worker (.schedulerStep .advance)]

set_option maxRecDepth 4000 in
/-- **Unregistered in the middle of its execution, the camera is destroyed in the middle of it.** -/
theorem unregister_destroys_claimed : ¬ ∀ p, (machine Started).Reachable p →
    ∀ thread call, p.calls thread = some call → ∀ unit ∈ call.doomed,
      p.system.claimedUnit? ≠ some unit.ptr := by
  intro h
  have hrun : cameraStarted.any (fun p =>
      ((machine Started).exec p (beginExecution ++ unregisterCamera)).any fun p =>
        (p.calls (.external 0)).any fun call =>
          call.doomed.any fun unit => p.system.claimedUnit? == some unit.ptr) = true := by decide
  obtain ⟨p, hp, hs⟩ := (Option.any_eq_true _ _).mp hrun
  obtain ⟨q, hq, hs⟩ := (Option.any_eq_true _ _).mp hs
  obtain ⟨call, hcall, hs⟩ := (Option.any_eq_true _ _).mp hs
  obtain ⟨unit, hunit, hclaimed⟩ := List.any_eq_true.mp hs
  have hreach : (machine Started).Reachable q :=
    .exec (.init (init_cameraStarted (Option.mem_def.mp hp))) (Option.mem_def.mp hq)
  exact h q hreach _ call (Option.mem_def.mp hcall) unit hunit (by simpa using hclaimed)

end Teardown

end AxonVex
