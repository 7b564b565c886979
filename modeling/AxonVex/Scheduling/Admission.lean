import AxonVex.Lifecycle.Moves
import AxonVex.Ownership.UnitCount
import AxonVex.Scheduling.UnitTasks

/-!
# Scheduling/Admission — every registered unit has its task

The registry admits as many units as the configuration says (a thousand, by default), and the
scheduler has a pool of 128 task blocks.  `start()` schedules every registered unit and
`registerProcessingUnit()` a new one while the system runs; neither looks at what scheduling it
returned, and an exhausted pool is reported to the error callback only.

A `ScheduleMove` says what an action does to the units and to the timing controller, and
`scheduleMove_of_step` that there is no further way; no later proof unfolds an operation.

* `reported_scheduled` — after a `start()` or a registration in `RUNNING` that reports success, every
  registered unit has exactly one task, in every run in which the units fit.
* `start_overfull` — with more than 128 units, `start()` reports success and one of them has none.
-/

namespace AxonVex

open Machinery

namespace AxonVexSystem

open RealTimeScheduler

/-- No timing controller that is there has been given a unit. -/
def FreshTasks (s : AxonVexSystem) : Prop := ∀ c, s.timingController = some c → c.Fresh

/-- The system is in one of the two states in which its units are scheduled. -/
def isActive (s : AxonVexSystem) : Bool := s.state == .running || s.state == .paused

/-- The constraints `registerProcessingUnit` passes on. -/
def registeredConstraints (s : AxonVexSystem) (constraints : TimingConstraints) :
    TimingConstraints :=
  if constraints.period = 0 then
    { constraints with
      period := s.defaultConstraints.period
      deadline := s.defaultConstraints.deadline
      wcet := s.defaultConstraints.wcet }
  else constraints

/-! ## The moves -/

/-- What an action does to the units and to the timing controller. -/
inductive ScheduleMove (s : AxonVexSystem) : Action → AxonVexSystem → Prop
  | same {a t} (hs : t.state = s.state) (hr : t.unitRegistry = s.unitRegistry)
      (ht : t.timingController = s.timingController) : ScheduleMove s a t
  | loop {a step t c scheduler} (hc : s.timingController = some c)
      (hl : c.scheduler.loopStep step = some scheduler) (hs : t.state = s.state)
      (hr : t.unitRegistry = s.unitRegistry)
      (ht : t.timingController = some { c with scheduler }) : ScheduleMove s a t
  /-- a health check restarts the timing controller -/
  | restarted {a t c onThread spawned} (hc : s.timingController = some c)
      (hq : onThread = true ∨ c.scheduler.claimed? = none) (hs : t.state = s.state)
      (hr : t.unitRegistry = s.unitRegistry)
      (ht : t.timingController = some ((c.stop onThread).start onThread spawned).1) :
      ScheduleMove s a t
  | registered {caller unit constraints now id t}
      (hadd : s.unitRegistry.add unit = some (id, t.unitRegistry)) (hs : t.state = s.state)
      (ht : t.timingController =
        if s.isRunning then s.timingController.map fun c =>
          (c.scheduleProcessingUnit unit.ptr unit.name (s.registeredConstraints constraints) now).1
        else s.timingController) :
      ScheduleMove s (.call caller (.registerProcessingUnit unit constraints now)) t
  | unregistered {a id unit t} (hrem : s.unitRegistry.remove id = some (unit, t.unitRegistry))
      (hs : t.state = s.state)
      (ht : t.timingController = s.timingController.map fun c =>
        (c.removeProcessingUnit unit.ptr).1) : ScheduleMove s a t
  | paused {caller t} (hv : validTransition s.state .pausing = true) (hs : t.state = .paused)
      (hr : t.unitRegistry = s.unitRegistry)
      (ht : t.timingController = s.timingController.map (·.pause)) :
      ScheduleMove s (.call caller .pause) t
  | resumed {caller t} (hv : validTransition s.state .resuming = true) (hs : t.state = .running)
      (hr : t.unitRegistry = s.unitRegistry)
      (ht : t.timingController = s.timingController.map (·.resume)) :
      ScheduleMove s (.call caller .resume) t
  /-- `start()` without a timing controller, and without units -/
  | startedNothing {caller env t} (hv : validTransition s.state .starting = true)
      (hc : s.timingController = none) (hu : s.unitRegistry.all = []) (hs : t.state = .running)
      (hr : t.unitRegistry = s.unitRegistry) (ht : t.timingController = none) :
      ScheduleMove s (.call caller (.start env)) t
  | startFailed {caller env t c} (hc : s.timingController = some c)
      (hv : validTransition s.state .starting = true) (hs : t.state = .error)
      (hr : t.unitRegistry = s.unitRegistry)
      (ht : t.timingController = some (c.start (caller == Thread.scheduler) env.spawned).1) :
      ScheduleMove s (.call caller (.start env)) t
  | started {caller env t c} (hc : s.timingController = some c)
      (hv : validTransition s.state .starting = true) (hs : t.state = .running)
      (hr : t.unitRegistry = s.unitRegistry)
      (ht : t.timingController = some
        ((c.start (caller == Thread.scheduler) env.spawned).1.scheduleAll s.unitRegistry.all
          s.defaultConstraints env.now)) :
      ScheduleMove s (.call caller (.start env)) t
  | emergencyShutdown {a onThread t} (hs : t.state = .fatalError)
      (ht : t.timingController = s.timingController.map (·.stop onThread)) : ScheduleMove s a t
  /-- the table refuses `initialize` after the components have been replaced -/
  | replaced {caller env t id policy} (hs : t.state = s.state)
      (hr : t.unitRegistry = s.unitRegistry) (ht : t.timingController = some (.new id policy)) :
      ScheduleMove s (.call caller (.initializeSystem env)) t
  /-- the components go, or a new system is initialized -/
  | prepared {a t} (hs : t.isActive = false) (ht : t.FreshTasks) : ScheduleMove s a t

variable {s t u : AxonVexSystem} {caller : Thread}

theorem freshTasks_of_none (h : s.timingController = none) : s.FreshTasks :=
  fun _ hc => absurd (h.symm.trans hc) (by simp)

theorem FreshTasks.of_eq (h : s.FreshTasks) (ht : t.timingController = s.timingController) :
    t.FreshTasks := fun c hc => h c (ht ▸ hc)

/-! ## Initialization -/

/-- A layout schedules no unit, as the system does not run yet. -/
theorem freshTasks_layoutCall (c : LayoutCall) (hs : s.state = .initializing) (h : s.FreshTasks) :
    (s.layoutCall c).FreshTasks := by
  have hassign (find : ProcessingUnit → ℤ → Option PortPtr)
      (assign : SystemPortRegistry → String → PortPtr → Option SystemPortRegistry)
      (kind name : String) (unit : UnitPtr) (id : ℤ) :
      (s.assignSystemPort find assign kind name unit id).1.timingController = s.timingController := by
    unfold assignSystemPort
    repeat' first | rfl | split
  cases c with
  | register unit constraints now =>
    refine h.of_eq ?_
    change (s.registerProcessingUnit unit constraints now).1.timingController = _
    unfold registerProcessingUnit
    split
    · rfl
    next unitId unitRegistry _ =>
      have hrun : ({ s with unitRegistry } : AxonVexSystem).isRunning = false := by
        rw [isRunning, show ({ s with unitRegistry } : AxonVexSystem).state = s.state from rfl, hs]
        rfl
      dsimp only
      rw [if_neg (by simp [hrun])]
      rfl
  | unregister id =>
    change (s.unregisterProcessingUnit id).1.FreshTasks
    unfold unregisterProcessingUnit
    split
    · exact h
    · intro c hc
      obtain ⟨c', hc', rfl⟩ := Option.map_eq_some_iff.mp hc
      rw [(h c' hc').remove]
      exact h c' hc'
  | assignInput name unit id => exact h.of_eq (hassign _ _ _ name unit id)
  | assignOutput name unit id => exact h.of_eq (hassign _ _ _ name unit id)
  | removeInput name =>
    refine h.of_eq ?_
    change (s.removeSystemInputPort name).1.timingController = _
    unfold removeSystemInputPort
    split <;> rfl
  | removeOutput name =>
    refine h.of_eq ?_
    change (s.removeSystemOutputPort name).1.timingController = _
    unfold removeSystemOutputPort
    split <;> rfl

/-- By induction on the calls of the layout. -/
theorem freshTasks_layout (calls : List LayoutCall) (hs : s.state = .initializing)
    (h : s.FreshTasks) : (calls.foldl layoutCall s).FreshTasks := by
  induction calls generalizing s with
  | nil => exact h
  | cons c calls ih =>
    exact ih ((sameControl_layoutCall c).state.trans hs) (freshTasks_layoutCall c hs h)

/-- **An initialization schedules no unit**, and leaves the system before its start. -/
theorem freshTasks_configureAndStart (env : InitializeEnv) (hs : s.state = .initializing)
    (h : s.FreshTasks) :
    (s.configureAndStart env).1.isActive = false ∧ (s.configureAndStart env).1.FreshTasks := by
  have hinactive {v : AxonVexSystem} {newState : SystemState} (hv : v.state = .initializing)
      (hn : newState = .error ∨ newState = .initialized) :
      (v.transitionState newState).1.isActive = false := by
    rw [isActive, transitionState_state, hv]
    rcases hn with rfl | rfl <;> rfl
  have hcatch {v : AxonVexSystem} (hv : v.state = .initializing) :
      v.catchInitialize.isActive = false ∧ v.catchInitialize.FreshTasks :=
    ⟨hinactive (v := v.cleanupComponents) hv (.inl rfl),
      freshTasks_of_none transitionState_timingController⟩
  have hwork {v : AxonVexSystem} (hv : v.state = .initializing) (hf : v.FreshTasks) :
      (v.startWorkers env).1.isActive = false ∧ (v.startWorkers env).1.FreshTasks := by
    obtain ⟨healthMonitor, hm⟩ := startMonitor_frame (s := v.clearShutdownLatch) env.monitorSpawned
    unfold startWorkers
    dsimp only
    rw [hm]
    split
    · exact hcatch hv
    · split
      · exact hcatch hv
      · split
        · exact ⟨hinactive (v := (startDispatch _ _).1) hv (.inr rfl),
            hf.of_eq transitionState_timingController⟩
        · exact ⟨hinactive (v := (startDispatch _ _).1) hv (.inr rfl), freshTasks_of_none rfl⟩
  have hinit {v : AxonVexSystem} (hv : v.state = .initializing) : v.isActive = false := by
    rw [isActive, hv]
    rfl
  unfold configureAndStart
  split
  · exact ⟨hinit hs, h⟩
  · have hl := freshTasks_layout env.layout hs h
    have hstate := (sameControl_layout env.layout s).state.trans hs
    dsimp only
    split
    · exact hwork hstate hl
    · exact ⟨hinactive hstate (.inl rfl), freshTasks_of_none rfl⟩
    · exact hcatch hstate
    · exact ⟨hinit hstate, hl⟩

/-- The new timing controller is the last component made. -/
theorem initializeComponents_timingController {fault : Option ComponentFault}
    (h : (s.initializeComponents fault).2 = true) :
    (s.initializeComponents fault).1.unitRegistry = s.unitRegistry ∧
      ∃ id policy, (s.initializeComponents fault).1.timingController = some (.new id policy) := by
  unfold initializeComponents newConfiguration at h ⊢
  dsimp only at h ⊢
  split_ifs at h ⊢ <;> exact ⟨rfl, _, _, rfl⟩

theorem scheduleMove_initializeSystem {env : InitializeEnv} {res : CallResult}
    (h : s.initializeSystem caller env = .returned (t, res)) :
    ScheduleMove s (.call caller (.initializeSystem env)) t := by
  unfold initializeSystem at h
  split at h
  · obtain ⟨⟩ := h
    exact .same rfl rfl rfl
  · obtain ⟨u, hj, h⟩ := Outcome.andThen_eq_returned.mp h
    obtain ⟨hlc, htc⟩ := joinStaleWorkers_frame hj
    have hus : u.state = s.state := congrArg LifecycleController.currentState hlc
    have hur : u.unitRegistry = s.unitRegistry := (sameRegistries_joinStaleWorkers hj).1
    cases hok : (u.initializeComponents env.fault).2 with
    | false =>
      simp only [hok, Bool.not_false, if_true] at h
      obtain ⟨⟩ := h
      obtain ⟨hstate, hc⟩ := initializeComponents_of_fault hok
      exact .same (hstate.trans hus) ((sameRegistries_initializeComponents _).1.trans hur)
        (hc.trans htc)
    | true =>
      obtain ⟨hstate, -, -⟩ := initializeComponents_of_ok hok
      obtain ⟨hreg, id, policy, htimer⟩ := initializeComponents_timingController hok
      simp only [hok, Bool.not_true, Bool.false_eq_true, if_false, transitionState_snd] at h
      split at h
      next hv =>
        obtain ⟨rfl, rfl⟩ := Outcome.pair_inj h
        have hfresh : (transitionState (u.initializeComponents env.fault).1
            .initializing).1.FreshTasks := fun c hc => by
          rw [transitionState_timingController, htimer] at hc
          exact Option.some.inj hc ▸ TimingController.fresh_new id policy
        obtain ⟨hact, hf⟩ := freshTasks_configureAndStart env
          (transitionState_state.trans (if_pos hv)) hfresh
        exact .prepared hact hf
      next hv =>
        obtain ⟨⟩ := h
        rw [transitionState_of_not_valid (by simpa using hv)]
        exact .replaced (hstate.trans hus) (hreg.trans hur) htimer

/-! ## Start -/

/-- The units are scheduled on the timing controller that is there. -/
theorem foldl_scheduleUnit {c : TimingController} (units : List ProcessingUnit) (now : TimePoint)
    (hc : s.timingController = some c) :
    (units.foldl (fun s u => s.scheduleUnit u s.defaultConstraints now) s).timingController =
      some (c.scheduleAll units s.defaultConstraints now) := by
  induction units generalizing s c with
  | nil => exact hc
  | cons u units ih =>
    have hstep : (s.scheduleUnit u s.defaultConstraints now).timingController =
          some (c.scheduleProcessingUnit u.ptr u.name s.defaultConstraints now).1 ∧
        (s.scheduleUnit u s.defaultConstraints now).defaultConstraints = s.defaultConstraints := by
      unfold scheduleUnit
      rw [hc]
      exact ⟨rfl, rfl⟩
    rw [List.foldl_cons, ih hstep.1, hstep.2]
    rfl

theorem scheduleMove_start {env : StartEnv} {ok : Bool}
    (h : s.start caller env = .returned (t, ok)) :
    ScheduleMove s (.call caller (.start env)) t ∧ (ok = true → t.state = .running) := by
  have hreg := (sameRegistries_start h).1
  unfold start at h
  simp only [transitionState_snd] at h
  split at h
  next hv =>
    obtain ⟨⟨u, started⟩, hu, h⟩ := Outcome.andThen_eq_returned.mp h
    have hstate : (s.transitionState .starting).1.state = .starting := by
      rw [transitionState_state, if_pos hv]
    cases hc : s.timingController with
    | none =>
      simp only [startComponents, transitionState_timingController, hc] at hu
      split at hu
      next hempty =>
        obtain ⟨⟩ := hu
        rw [if_pos rfl, if_pos (by rw [hstate]; rfl)] at h
        obtain ⟨⟩ := h
        have hrun : ((s.transitionState .starting).1.transitionState .running).1.state =
            .running := by rw [transitionState_state, hstate]; rfl
        refine ⟨.startedNothing hv hc ?_ hrun hreg (by simpa using hc), fun _ => hrun⟩
        simpa using hempty
      · cases hu
    | some c =>
      have hcu : (s.transitionState .starting).1.timingController = some c :=
        transitionState_timingController.trans hc
      obtain ⟨-, hus, -⟩ := startComponents_of_some hcu hstate.ge hu
      rw [hstate] at hus
      rw [startComponents, hcu] at hu
      dsimp only at hu
      split at hu
      · obtain ⟨⟩ := hu
        obtain ⟨⟩ := h
        exact ⟨.startFailed hc hv (by rw [transitionState_state, hus]; rfl) hreg
          transitionState_timingController, by simp⟩
      · obtain ⟨⟩ := hu
        rw [if_pos rfl, if_pos (by rw [hus]; rfl)] at h
        obtain ⟨⟩ := h
        have hrun : (transitionState (List.foldl _ _ _) .running).1.state = .running :=
          transitionState_state.trans (if_pos (by rw [hus]; rfl))
        refine ⟨.started hc hv hrun hreg (transitionState_timingController.trans
          ((foldl_scheduleUnit _ env.now rfl).trans ?_)), fun _ => hrun⟩
        simp only [defaultConstraints, transitionState_systemConfig, transitionState_unitRegistry]
  next hv =>
    obtain ⟨⟩ := h
    rw [transitionState_of_not_valid (by simpa using hv)]
    exact ⟨.same rfl rfl rfl, by simp⟩

/-! ## The other calls -/

theorem scheduleMove_pause : ScheduleMove s (.call caller .pause) s.pause.1 := by
  have hreg := (sameRegistries_pause (s := s)).1
  unfold pause at hreg ⊢
  simp only [transitionState_snd] at hreg ⊢
  cases hv : validTransition s.state .pausing with
  | true =>
    rw [hv, if_pos rfl] at hreg
    have hstate : (s.transitionState .pausing).1.pauseComponents.state = .pausing :=
      transitionState_state.trans (if_pos hv)
    rw [if_pos rfl]
    exact .paused hv (by rw [transitionState_state, hstate]; rfl) hreg (by simp [pauseComponents])
  | false =>
    rw [transitionState_of_not_valid hv]
    exact .same rfl rfl rfl

theorem scheduleMove_resume : ScheduleMove s (.call caller .resume) s.resume.1 := by
  have hreg := (sameRegistries_resume (s := s)).1
  unfold resume at hreg ⊢
  simp only [transitionState_snd] at hreg ⊢
  cases hv : validTransition s.state .resuming with
  | true =>
    rw [hv, if_pos rfl] at hreg
    have hstate : (s.transitionState .resuming).1.resumeComponents.state = .resuming :=
      transitionState_state.trans (if_pos hv)
    rw [if_pos rfl]
    exact .resumed hv (by rw [transitionState_state, hstate]; rfl) hreg (by simp [resumeComponents])
  | false =>
    rw [transitionState_of_not_valid hv]
    exact .same rfl rfl rfl

theorem scheduleMove_stop : ScheduleMove s (.call caller .stop) (s.stop caller).1 := by
  unfold stop
  split
  · exact .same rfl rfl rfl
  · simp only [transitionState_snd]
    cases hv : validTransition s.state .stopping with
    | true =>
      have hstate : (s.transitionState .stopping).1.state = .stopping :=
        transitionState_state.trans (if_pos hv)
      rw [if_pos rfl]
      generalize hu : cleanupComponents _ = u
      have hus : u.state = .stopping := by rw [← hu]; exact hstate
      refine .prepared ?_ (freshTasks_of_none (transitionState_timingController.trans
        (by rw [← hu]; rfl)))
      rw [isActive, transitionState_state, hus]
      rfl
    | false =>
      rw [transitionState_of_not_valid hv]
      exact .same rfl rfl rfl

theorem scheduleMove_reset : ScheduleMove s (.call caller .reset) (s.reset caller) := by
  cases hw : s.isOnWorkerThread caller with
  | true =>
    rw [reset, if_pos hw]
    exact .same rfl rfl rfl
  | false =>
    have hm := @move_reset s caller
    generalize s.reset caller = t at hm ⊢
    cases hm with
    | quiet ha _ => exact absurd ha (by simp [Action.isQuiet])
    | recovered ha _ _ _ _ => exact absurd ha (by simp [recoversOn])
    | resetRefused hw' => exact absurd (hw.symm.trans hw') (by simp)
    | reset _ hs ht => exact .prepared (by rw [isActive, hs]; rfl) (freshTasks_of_none ht)

/-- An admitted unit is scheduled only while the system runs. -/
theorem registerProcessingUnit_of_add {unit : ProcessingUnit} {id : ℕ} {r : UnitRegistry}
    (constraints : TimingConstraints) (now : TimePoint)
    (hadd : s.unitRegistry.add unit = some (id, r)) :
    (s.registerProcessingUnit unit constraints now).1.unitRegistry = r ∧
      (s.registerProcessingUnit unit constraints now).1.timingController =
        if s.isRunning then s.timingController.map fun c =>
          (c.scheduleProcessingUnit unit.ptr unit.name (s.registeredConstraints constraints) now).1
        else s.timingController := by
  have hrun (r : UnitRegistry) : ({ s with unitRegistry := r } : AxonVexSystem).isRunning =
      s.isRunning := rfl
  unfold registerProcessingUnit
  simp only [hadd, hrun]
  cases s.isRunning with
  | true =>
    cases hc : s.timingController with
    | none => simp [scheduleUnit, hc]
    | some c =>
      simp [scheduleUnit, hc, registeredConstraints]
      rfl
  | false => exact ⟨rfl, rfl⟩

theorem scheduleMove_registerProcessingUnit (unit : ProcessingUnit)
    (constraints : TimingConstraints) (now : TimePoint) :
    ScheduleMove s (.call caller (.registerProcessingUnit unit constraints now))
      (s.registerProcessingUnit unit constraints now).1 := by
  cases hadd : s.unitRegistry.add unit with
  | none =>
    unfold registerProcessingUnit
    simp only [hadd]
    exact .same rfl rfl rfl
  | some p =>
    obtain ⟨id, r⟩ := p
    obtain ⟨hr, ht⟩ := registerProcessingUnit_of_add constraints now hadd
    exact .registered (show s.unitRegistry.add unit = some (id, _) by rw [hr, hadd]) (sameControl_registerProcessingUnit unit constraints now).state ht

theorem scheduleMove_unregisterProcessingUnit {a : Action} (id : ℕ) :
    ScheduleMove s a (s.unregisterProcessingUnit id).1 := by
  unfold unregisterProcessingUnit
  split
  · exact .same rfl rfl rfl
  next unit unitRegistry hrem => exact .unregistered hrem rfl rfl

theorem scheduleMove_assignSystemPort {a : Action} (find : ProcessingUnit → ℤ → Option PortPtr)
    (assign : SystemPortRegistry → String → PortPtr → Option SystemPortRegistry)
    (kind name : String) (unit : UnitPtr) (id : ℤ) :
    ScheduleMove s a (s.assignSystemPort find assign kind name unit id).1 := by
  unfold assignSystemPort
  repeat' first | exact .same rfl rfl rfl | split

/-- A health check leaves the timing controller, or restarts it; the monitor's own position does not
matter. -/
theorem scheduleMove_finishHealthCheck {a : Action} {health : SystemHealth}
    {callbacks : List (Option SystemHealth)} {spawned : Bool}
    (hq : s.recoveryFires health callbacks = true → s.isQuiescent caller = true)
    (healthMonitor : HealthMonitor) :
    ScheduleMove s a
      { s.finishHealthCheck caller health callbacks spawned with healthMonitor } := by
  have hreg := (@sameRegistries_finishHealthCheck s caller health callbacks spawned).1
  cases hf : s.recoveryFires health callbacks with
  | true =>
    obtain ⟨c, hc, -, hs, ht⟩ := finishHealthCheck_of_fires caller spawned hf
    refine .restarted hc ?_ hs hreg ht
    have hquiet := hq hf
    rw [isQuiescent, Bool.and_eq_true, Bool.or_eq_true] at hquiet
    refine hquiet.1.imp id fun hpc => ?_
    simp only [scheduler?, hc, Option.map_some, Option.all_some] at hpc
    rw [claimed?, Option.bind_eq_none_iff]
    intro pc hw
    rw [hw, Option.all_some] at hpc
    cases pc <;> first | rfl | exact absurd hpc (by simp [LoopPc.betweenTurns])
  | false =>
    obtain ⟨hsame, ht⟩ := finishHealthCheck_of_quiet caller spawned hf
    exact .same hsame.state hreg ht

end AxonVexSystem

namespace SystemRun

open AxonVexSystem RealTimeScheduler

variable {r t : SystemRun} {caller : Thread} {c : Call} {a : Action}

/-- A call that joins workers is taken while they are quiescent. -/
theorem isQuiescent_of_step (h : r.step (.call caller c) = some t)
    (hj : r.system.joinsWorkers caller c = true) : r.system.isQuiescent caller = true := by
  obtain ⟨nextPtr, hn, h⟩ := Option.bind_eq_some_iff.mp h
  obtain ⟨_, hres, -⟩ := Option.map_eq_some_iff.mp h
  unfold callResult at hres
  split at hres
  next hp => simpa [hj] using (Bool.and_eq_true_iff.mp hp).2
  · exact absurd hres (by simp)

theorem scheduleMove_of_call (h : r.step (.call caller c) = some t) :
    ScheduleMove r.system (.call caller c) t.system := by
  have hquiet := isQuiescent_of_step h
  obtain ⟨u, m, res, rfl, -, hi, -⟩ := invoke_of_step h
  cases c with
  | initializeSystem env => exact scheduleMove_initializeSystem hi
  | start env =>
    obtain ⟨⟨v, b⟩, hv, ⟨⟩⟩ := Outcome.andThen_eq_returned.mp hi
    exact (scheduleMove_start hv).1
  | pause =>
    obtain ⟨⟩ := hi
    exact scheduleMove_pause
  | resume =>
    obtain ⟨⟩ := hi
    exact scheduleMove_resume
  | stop =>
    obtain ⟨⟩ := hi
    exact scheduleMove_stop
  | emergencyShutdown =>
    obtain ⟨⟩ := hi
    exact .emergencyShutdown emergencyShutdown_state emergencyShutdown_timingController
  | reset =>
    obtain ⟨⟩ := hi
    exact scheduleMove_reset
  | registerProcessingUnit unit constraints now =>
    obtain ⟨rfl, -⟩ := Outcome.pair_inj hi
    exact scheduleMove_registerProcessingUnit unit constraints now
  | unregisterProcessingUnit id =>
    obtain ⟨rfl, -⟩ := Outcome.pair_inj hi
    exact scheduleMove_unregisterProcessingUnit id
  | assignSystemInputPort name unit id =>
    obtain ⟨rfl, -⟩ := Outcome.pair_inj hi
    exact scheduleMove_assignSystemPort _ _ _ name unit id
  | assignSystemOutputPort name unit id =>
    obtain ⟨rfl, -⟩ := Outcome.pair_inj hi
    exact scheduleMove_assignSystemPort _ _ _ name unit id
  | removeSystemInputPort name =>
    obtain ⟨rfl, -⟩ := Outcome.pair_inj hi
    unfold removeSystemInputPort
    split <;> exact .same rfl rfl rfl
  | removeSystemOutputPort name =>
    obtain ⟨rfl, -⟩ := Outcome.pair_inj hi
    unfold removeSystemOutputPort
    split <;> exact .same rfl rfl rfl
  | performHealthCheck callbacks spawned =>
    obtain ⟨rfl, -⟩ := Outcome.pair_inj hi
    exact scheduleMove_finishHealthCheck hquiet _

theorem scheduleMove_of_workerStep {s u : AxonVexSystem} (h : s.workerStep a = some u) :
    ScheduleMove s a u := by
  cases a with
  | call caller c => exact absurd h (by simp [workerStep])
  | schedulerStep st =>
    obtain ⟨tc, hc, h⟩ := Option.bind_eq_some_iff.mp h
    obtain ⟨sch, hl, rfl⟩ := Option.map_eq_some_iff.mp h
    exact .loop hc hl rfl rfl rfl
  | dispatchStep st =>
    obtain ⟨bus, -, rfl⟩ := Option.map_eq_some_iff.mp h
    exact .same rfl rfl rfl
  | beginCheck =>
    change s.beginCheck = some u at h
    unfold beginCheck at h
    split at h
    · exact Option.some.inj h ▸ .same rfl rfl rfl
    · cases h
  | finishCheck callbacks spawned =>
    change s.finishCheck callbacks spawned = some u at h
    unfold finishCheck at h
    split at h
    next health hpc =>
      split at h
      · cases h
      next hq =>
        obtain ⟨⟩ := h
        exact scheduleMove_finishHealthCheck (fun hf => by simpa [hf] using hq) _
    · cases h
  | refreshStatistics =>
    change s.refreshStatistics = some u at h
    unfold refreshStatistics at h
    split at h
    · obtain ⟨⟩ := h
      unfold updateStatistics
      split <;> exact .same rfl rfl rfl
    · cases h
  | exitMonitor =>
    change s.exitMonitor = some u at h
    unfold exitMonitor at h
    split at h
    · exact Option.some.inj h ▸ .same rfl rfl rfl
    · cases h

/-- **Every action is one of the moves.** -/
theorem scheduleMove_of_step (h : r.step a = some t) : ScheduleMove r.system a t.system := by
  cases a with
  | call caller c => exact scheduleMove_of_call h
  | _ =>
    obtain ⟨u, hu, rfl⟩ := Option.map_eq_some_iff.mp h
    exact scheduleMove_of_workerStep hu

/-! ## The property and the condition -/

/-- **Each registered unit has exactly one task in the scheduler**, and scheduling it has given an
id. -/
def EachScheduled (r : SystemRun) : Prop :=
  ∀ u ∈ r.system.unitRegistry.all, ∃ c, r.system.timingController = some c ∧
    (∃! id, c.HasTask u.ptr id) ∧ (c.unitToTaskId.lookup u.ptr).isSome = true

/-- The action is a `start()`, or a registration while the system runs, that reports success. -/
def Reports (r : SystemRun) (a : Action) : Prop :=
  r.returned a = some (.returned true) ∧
    ((∃ caller env, a = .call caller (.start env)) ∨
      r.system.state = .running ∧ ∃ caller unit constraints now,
        a = .call caller (.registerProcessingUnit unit constraints now))

/-- **The condition**: the units fit in the task pool whenever they are to be scheduled. -/
structure UnitsFit (r : SystemRun) (a : Action) : Prop where
  /-- a start that the table accepts finds no more units than there are task blocks -/
  starts : ∀ caller env, a = .call caller (.start env) →
    validTransition r.system.state .starting = true → r.system.unitRegistry.count ≤ 128
  /-- a unit is admitted in `RUNNING` only with a free block and an unused id for its task -/
  admits : ∀ caller unit constraints now,
    a = .call caller (.registerProcessingUnit unit constraints now) →
    (r.system.unitRegistry.add unit).isSome = true → r.system.state = .running →
    ∃ c, r.system.timingController = some c ∧
      c.scheduler.taskPool.blocks.keys.length < c.scheduler.taskPool.capacity ∧
      c.scheduler.nextTaskId.toNat ∉ c.scheduler.tasks ∧ c.scheduler.nextTaskId ≠ 0
  /-- and none in `PAUSED` -/
  pauses : ∀ caller unit constraints now,
    a = .call caller (.registerProcessingUnit unit constraints now) →
    (r.system.unitRegistry.add unit).isSome = true → r.system.state ≠ .paused
  /-- `ERROR` is not left through `pause()` or `resume()` with units registered -/
  resumes : ∀ caller, a = .call caller .pause ∨ a = .call caller .resume →
    r.system.state = .error → r.system.unitRegistry.units = ∅
  /-- and the timing controller is not replaced under the units -/
  replaces : ∀ caller env, a = .call caller (.initializeSystem env) → r.system.isActive = true →
    r.system.unitRegistry.units = ∅

/-- What every run under the condition keeps. -/
structure UnitsScheduled (r : SystemRun) : Prop where
  registries : r.RegistriesValid
  /-- before the start nothing is scheduled -/
  idle : r.system.isActive = false → r.system.state ≠ .fatalError → r.system.FreshTasks
  empty : r.system.isActive = true → r.system.timingController = none →
    r.system.unitRegistry.units = ∅
  /-- and from then on exactly the registered units are -/
  tracks : r.system.isActive = true → ∀ c, r.system.timingController = some c → c.Tracks ∧
    ∀ ptr, r.system.unitRegistry.Owns ptr ↔ (c.constraintsOf ptr).isSome = true

theorem not_owns_of_empty {r : UnitRegistry} (h : r.units = ∅) (ptr : UnitPtr) : ¬ r.Owns ptr := by
  rintro ⟨id, u, hu, -⟩
  exact absurd hu (by simp [h])

/-- A controller without tasks and a registry without units. -/
theorem tracks_of_fresh {c : TimingController} {r : UnitRegistry} (hc : c.Fresh) (hr : r.units = ∅) :
    c.Tracks ∧ ∀ ptr, r.Owns ptr ↔ (c.constraintsOf ptr).isSome = true :=
  ⟨hc.tracks, fun ptr => iff_of_false (not_owns_of_empty hr ptr) (by simp [hc.constraintsOf])⟩

/-- A system that may start schedules nothing yet. -/
theorem inactive_of_starting {s : AxonVexSystem} (hv : validTransition s.state .starting = true) :
    s.isActive = false ∧ s.state ≠ .fatalError := by
  rw [isActive]
  cases hs : s.state <;> rw [hs] at hv <;> first | exact absurd hv (by decide) | simp

/-- `pause()` and `resume()` are taken while the units are scheduled, or out of `ERROR`. -/
theorem active_or_error {s : AxonVexSystem} (hv : validTransition s.state .pausing = true ∨
    validTransition s.state .resuming = true) : s.isActive = true ∨ s.state = .error := by
  rw [isActive]
  cases hs : s.state <;> rw [hs] at hv <;> first | exact absurd hv (by decide) | simp

/-- A unit that is registered is new. -/
theorem le_of_register {unit : ProcessingUnit} {constraints : TimingConstraints} {now : TimePoint}
    (h : r.step (.call caller (.registerProcessingUnit unit constraints now)) = some t) :
    r.nextPtr ≤ unit.ptr := by
  obtain ⟨u, m, res, rfl, hn, -⟩ := invoke_of_step h
  simp only [newUnits, claimPtrs] at hn
  split at hn
  · assumption
  · exact absurd hn (by simp)

/-- An active system whose state, units and controller's tasks stay as they are. -/
theorem UnitsScheduled.of_tasks (hI : UnitsScheduled r) (hreg : t.RegistriesValid)
    (hs : t.system.state = r.system.state) (hr : t.system.unitRegistry = r.system.unitRegistry)
    (hnone : r.system.timingController = none → t.system.timingController = none)
    (hsome : ∀ c, r.system.timingController = some c → ∃ c', t.system.timingController = some c' ∧
      (c.Fresh → c'.Fresh) ∧ (c.Tracks → c'.Tracks ∧ ∀ v, c'.constraintsOf v = c.constraintsOf v)) :
    UnitsScheduled t := by
  have hactive : t.system.isActive = r.system.isActive := by rw [isActive, isActive, hs]
  have hback {c' : TimingController} (hc' : t.system.timingController = some c') :
      ∃ c, r.system.timingController = some c ∧ (c.Fresh → c'.Fresh) ∧
        (c.Tracks → c'.Tracks ∧ ∀ v, c'.constraintsOf v = c.constraintsOf v) := by
    cases hc : r.system.timingController with
    | none => exact absurd (hc'.symm.trans (hnone hc)) (by simp)
    | some c =>
      obtain ⟨c'', hc'', h⟩ := hsome c hc
      obtain rfl := Option.some.inj (hc'.symm.trans hc'')
      exact ⟨c, rfl, h⟩
  refine ⟨hreg, fun ha hf c' hc' => ?_, fun ha hc' => ?_, fun ha c' hc' => ?_⟩
  · obtain ⟨c, hc, hfresh, -⟩ := hback hc'
    exact hfresh (hI.idle (hactive ▸ ha) (hs ▸ hf) c hc)
  · rw [hr]
    refine hI.empty (hactive ▸ ha) ?_
    rw [← Option.not_isSome_iff_eq_none, Option.isSome_iff_exists]
    rintro ⟨c, hc⟩
    obtain ⟨c'', hc'', -⟩ := hsome c hc
    exact absurd (hc'.symm.trans hc'') (by simp)
  · obtain ⟨c, hc, -, htracks⟩ := hback hc'
    obtain ⟨hct, hown⟩ := hI.tracks (hactive ▸ ha) c hc
    obtain ⟨ht, hk⟩ := htracks hct
    exact ⟨ht, fun ptr => by rw [hr, hown, hk]⟩

/-- `pause()` and `resume()`: `f` sets a flag of the controller. -/
theorem UnitsScheduled.flagged (hI : UnitsScheduled r) (hG : UnitsFit r a)
    (ha : ∃ caller, a = .call caller .pause ∨ a = .call caller .resume) (hreg : t.RegistriesValid)
    (hv : r.system.isActive = true ∨ r.system.state = .error) (hs : t.system.isActive = true)
    (hr : t.system.unitRegistry = r.system.unitRegistry) {f : TimingController → TimingController}
    (hf : ∀ c : TimingController, ∃ s, f c = { c with scheduler := s } ∧
      s.tasks = c.scheduler.tasks ∧ s.taskPool = c.scheduler.taskPool ∧
      s.nextTaskId = c.scheduler.nextTaskId ∧ s.claimed? = c.scheduler.claimed?)
    (ht : t.system.timingController = r.system.timingController.map f) : UnitsScheduled t := by
  obtain ⟨caller, ha⟩ := ha
  refine ⟨hreg, fun hn => absurd (hs.symm.trans hn) (by simp), fun _ hc' => ?_, fun _ c' hc' => ?_⟩
  · rw [hr]
    rcases hv with hact | herr
    · exact hI.empty hact (by simpa [ht] using hc')
    · exact hG.resumes caller ha herr
  · obtain ⟨c, hc, rfl⟩ := Option.map_eq_some_iff.mp (ht.symm.trans hc')
    obtain ⟨s, hs', htasks, hpool, hnext, hclaimed⟩ := hf c
    rw [hs', hr]
    rcases hv with hact | herr
    · obtain ⟨hct, hown⟩ := hI.tracks hact c hc
      obtain ⟨ht', hk⟩ := hct.of_tasks htasks hpool hclaimed
      exact ⟨ht', fun ptr => by rw [hown, hk]⟩
    · have hfresh := hI.idle (by rw [isActive, herr]; rfl) (by rw [herr]; decide) c hc
      exact tracks_of_fresh (hfresh.of_tasks htasks hpool hnext hclaimed) (hG.resumes caller ha herr)

/-- **A start that finds no more units than task blocks schedules them all.** -/
theorem UnitsScheduled.scheduleAll (hI : UnitsScheduled r) {c : TimingController}
    (hv : validTransition r.system.state .starting = true)
    (hc : r.system.timingController = some c) (hcount : r.system.unitRegistry.count ≤ 128)
    (onThread spawned : Bool) (now : TimePoint) :
    ((c.start onThread spawned).1.scheduleAll r.system.unitRegistry.all r.system.defaultConstraints
        now).Tracks ∧
      ∀ ptr, ((c.start onThread spawned).1.scheduleAll r.system.unitRegistry.all
          r.system.defaultConstraints now).constraintsOf ptr =
        if ptr ∈ r.system.unitRegistry.all.map (·.ptr) then
          some (c.finalConstraints r.system.defaultConstraints)
        else none := by
  obtain ⟨hn, hf⟩ := inactive_of_starting hv
  have hfresh := (hI.idle hn hf c hc).start onThread spawned
  have hroom : r.system.unitRegistry.all.length ≤ 128 := by
    simpa [UnitRegistry.all, UnitRegistry.count, AList.values, AList.keys, List.keys] using hcount
  obtain ⟨hct, hk⟩ := hfresh.tracks.scheduleAll hfresh.idsFresh hI.registries.registry.nodup_ptrs
    (fun u _ => hfresh.constraintsOf u.ptr)
    (by rw [hfresh.blocks, hfresh.capacity]; exact (Nat.zero_add _).trans_le hroom)
    r.system.defaultConstraints now
  refine ⟨hct, fun ptr => (hk ptr).trans ?_⟩
  rw [hfresh.constraintsOf]
  rfl

/-- **Every action the condition allows keeps the units scheduled.** -/
theorem UnitsScheduled.step (hI : UnitsScheduled r) (hG : UnitsFit r a) (h : r.step a = some t) :
    UnitsScheduled t := by
  have hreg := hI.registries.step h
  have hvalid : r.system.unitRegistry.Valid := hI.registries.registry
  have hinactive (ha : t.system.isActive = false) (hf : t.system.FreshTasks) : UnitsScheduled t :=
    ⟨hreg, fun _ _ => hf, fun hn => absurd (ha.symm.trans hn) (by simp),
      fun hn => absurd (ha.symm.trans hn) (by simp)⟩
  cases hmove : scheduleMove_of_step h with
  | same hs hr ht =>
    exact hI.of_tasks hreg hs hr (fun hc => ht.trans hc) fun c hc =>
      ⟨c, ht.trans hc, id, fun hct => ⟨hct, fun _ => rfl⟩⟩
  | @loop a step t' c scheduler hc hl hs hr ht =>
    refine hI.of_tasks hreg hs hr (fun hn => absurd (hc.symm.trans hn) (by simp)) fun c' hc' => ?_
    obtain rfl := Option.some.inj (hc.symm.trans hc')
    exact ⟨_, ht, fun hf => hf.loopStep hl, fun hct => hct.loopStep hl⟩
  | @restarted a t' c onThread spawned hc hq hs hr ht =>
    refine hI.of_tasks hreg hs hr (fun hn => absurd (hc.symm.trans hn) (by simp)) fun c' hc' => ?_
    obtain rfl := Option.some.inj (hc.symm.trans hc')
    obtain ⟨s, hs', htasks, hpool, hnext, hclaimed⟩ :=
      TimingController.restart_tasks (c := c) spawned hq
    rw [hs'] at ht
    exact ⟨_, ht, fun hf => hf.of_tasks htasks hpool hnext hclaimed,
      fun hct => hct.of_tasks htasks hpool hclaimed⟩
  | @registered caller unit constraints now id t' hadd hs ht =>
    have hadmitted : (r.system.unitRegistry.add unit).isSome = true := by rw [hadd]; rfl
    have howns (ptr : UnitPtr) : t.system.unitRegistry.Owns ptr ↔
        r.system.unitRegistry.Owns ptr ∨ ptr = unit.ptr := UnitRegistry.owns_add hadd hvalid
    have hactive : t.system.isActive = r.system.isActive := by rw [isActive, isActive, hs]
    cases hrun : r.system.isRunning with
    | false =>
      -- neither does the system run, nor is it paused
      rw [hrun, if_neg (by simp)] at ht
      have hn : r.system.isActive = false := by
        rw [isActive, show (r.system.state == .running) = false from hrun, Bool.false_or, beq_eq_false_iff_ne]
        exact hG.pauses caller unit constraints now rfl hadmitted
      refine ⟨hreg, fun _ hf => (hI.idle hn (hs ▸ hf)).of_eq ht, fun ha => ?_, fun ha => ?_⟩ <;>
        exact absurd (hactive.symm.trans ha) (by simp [hn])
    | true =>
      have hstate : r.system.state = .running := by simpa [isRunning] using hrun
      have hact : r.system.isActive = true := by rw [isActive, hstate]; rfl
      obtain ⟨c, hc, hroom, hid, hpos⟩ := hG.admits caller unit constraints now rfl hadmitted hstate
      obtain ⟨hct, hown⟩ := hI.tracks hact c hc
      rw [hrun, if_pos rfl, hc, Option.map_some] at ht
      have hnew : ¬ r.system.unitRegistry.Owns unit.ptr :=
        fun ho => absurd (hI.registries.below _ ho) (not_lt.mpr (le_of_register h))
      obtain ⟨hct', hk⟩ := hct.schedule unit.name (r.system.registeredConstraints constraints) now
        hroom hid hpos (hct.lookup_eq_none.mpr (by
          rw [← Option.not_isSome_iff_eq_none, ← hown]
          exact hnew))
      refine ⟨hreg, fun hn => absurd ((hactive.symm.trans hn).symm.trans hact) (by simp),
        fun _ hn => absurd (ht.symm.trans hn) (by simp), fun _ c' hc' => ?_⟩
      obtain rfl := Option.some.inj (ht.symm.trans hc')
      refine ⟨hct', fun ptr => ?_⟩
      rw [howns, hown, hk]
      by_cases hp : ptr = unit.ptr <;> simp [hp]
  | @unregistered a id unit t' hrem hs ht =>
    have howns (ptr : UnitPtr) : t.system.unitRegistry.Owns ptr ↔
        r.system.unitRegistry.Owns ptr ∧ ptr ≠ unit.ptr := UnitRegistry.owns_remove hvalid hrem
    have hactive : t.system.isActive = r.system.isActive := by rw [isActive, isActive, hs]
    refine ⟨hreg, fun hn hf c' hc' => ?_, fun ha hc' => ?_, fun ha c' hc' => ?_⟩
    · obtain ⟨c, hc, rfl⟩ := Option.map_eq_some_iff.mp (ht.symm.trans hc')
      have hfresh := hI.idle (hactive ▸ hn) (hs ▸ hf) c hc
      rwa [hfresh.remove]
    · have hunits := hI.empty (hactive ▸ ha) (by simpa [ht] using hc')
      exact absurd (UnitRegistry.lookup_remove hrem).1 (by simp [hunits])
    · obtain ⟨c, hc, rfl⟩ := Option.map_eq_some_iff.mp (ht.symm.trans hc')
      obtain ⟨hct, hown⟩ := hI.tracks (hactive ▸ ha) c hc
      obtain ⟨hct', hmap, hk⟩ := hct.remove unit.ptr
      refine ⟨hct', fun ptr => ?_⟩
      rw [howns, hown]
      by_cases hp : ptr = unit.ptr
      · subst hp
        rw [hct'.isSome_constraintsOf, hmap]
        simp
      · simp [hk ptr hp, hp]
  | paused hv hs hr ht =>
    exact hI.flagged hG ⟨_, .inl rfl⟩ hreg (active_or_error (.inl hv)) (by rw [isActive, hs]; rfl) hr
      (fun c => ⟨c.scheduler.pause, rfl, rfl, rfl, rfl, rfl⟩) ht
  | resumed hv hs hr ht =>
    exact hI.flagged hG ⟨_, .inr rfl⟩ hreg (active_or_error (.inr hv)) (by rw [isActive, hs]; rfl) hr
      (fun c => ⟨c.scheduler.resume, rfl, rfl, rfl, rfl, rfl⟩) ht
  | startedNothing hv hc hu hs hr ht =>
    have hempty : t.system.unitRegistry.units = ∅ := by
      rw [hr]
      exact AList.ext (List.map_eq_nil_iff.mp hu)
    exact ⟨hreg, fun hn => absurd hn (by rw [isActive, hs]; decide), fun _ _ => hempty,
      fun _ c hc' => absurd (ht.symm.trans hc') (by simp)⟩
  | startFailed hc hv hs hr ht =>
    obtain ⟨hn, hf⟩ := inactive_of_starting hv
    refine hinactive (by rw [isActive, hs]; rfl) fun c' hc' => ?_
    obtain rfl := Option.some.inj (ht.symm.trans hc')
    exact (hI.idle hn hf _ hc).start _ _
  | @started caller env t' c hc hv hs hr ht =>
    obtain ⟨hct, hk⟩ := hI.scheduleAll hv hc (hG.starts caller env rfl hv)
      (caller == Thread.scheduler) env.spawned env.now
    refine ⟨hreg, fun hn => absurd hn (by rw [isActive, hs]; decide),
      fun _ hn => absurd (ht.symm.trans hn) (by simp), fun _ c' hc' => ?_⟩
    obtain rfl := Option.some.inj (ht.symm.trans hc')
    refine ⟨hct, fun ptr => ?_⟩
    rw [hr, hk, UnitRegistry.owns_iff_mem_all]
    by_cases hp : ptr ∈ r.system.unitRegistry.all.map (·.ptr)
    · rw [if_pos hp]
      exact iff_of_true (List.mem_map.mp hp) rfl
    · rw [if_neg hp]
      exact iff_of_false (fun he => hp (List.mem_map.mpr he)) (by simp)
  | emergencyShutdown hs _ =>
    exact ⟨hreg, fun _ hf => absurd hs hf, fun ha => absurd ha (by rw [isActive, hs]; decide),
      fun ha => absurd ha (by rw [isActive, hs]; decide)⟩
  | @replaced caller env t' id policy hs hr ht =>
    have hfresh := TimingController.fresh_new id policy
    have hactive : t.system.isActive = r.system.isActive := by rw [isActive, isActive, hs]
    refine ⟨hreg, fun _ _ c hc => Option.some.inj (ht.symm.trans hc) ▸ hfresh,
      fun _ hn => absurd (ht.symm.trans hn) (by simp), fun ha c hc => ?_⟩
    obtain rfl := Option.some.inj (ht.symm.trans hc)
    exact tracks_of_fresh hfresh (hr ▸ hG.replaces caller env rfl (hactive ▸ ha))
  | prepared hs ht => exact hinactive hs ht

theorem unitsScheduled_fresh (config : SystemConfiguration) (objectSize : ℕ) :
    UnitsScheduled (fresh config objectSize) where
  registries := registriesValid_fresh config objectSize
  idle _ _ := freshTasks_of_none rfl
  empty ha := absurd (show false = true from ha) (by decide)
  tracks ha := absurd (show false = true from ha) (by decide)

/-- **In every run under the condition, the scheduled units are the registered ones.** -/
theorem unitsScheduled (h : machine.ReachableUnder UnitsFit r) : UnitsScheduled r := by
  refine h.invariant ⟨fun r hr => ?_, fun _ _ _ hI hG ht => hI.step hG ht⟩
  obtain ⟨config, objectSize, -, rfl⟩ := hr
  exact unitsScheduled_fresh config objectSize

theorem UnitsScheduled.eachScheduled (hI : UnitsScheduled r) (ha : r.system.isActive = true) :
    r.EachScheduled := by
  intro u hu
  cases hc : r.system.timingController with
  | none =>
    obtain ⟨id, hid⟩ := AList.mem_values.mp hu
    exact absurd hid (by simp [hI.empty ha hc])
  | some c =>
    obtain ⟨hct, hown⟩ := hI.tracks ha c hc
    have hmapped : (c.unitToTaskId.lookup u.ptr).isSome = true := by
      rw [← hct.isSome_constraintsOf, ← hown]
      exact UnitRegistry.owns_iff_mem_all.mpr ⟨u, hu, rfl⟩
    exact ⟨c, rfl, hct.existsUnique hmapped, hmapped⟩

/-- A report leaves the system running. -/
theorem running_of_reports (h : r.step a = some t) (hrep : r.Reports a) :
    t.system.state = .running := by
  obtain ⟨hres, ⟨caller, env, rfl⟩ | ⟨hrun, caller, unit, constraints, now, rfl⟩⟩ := hrep
  · obtain ⟨u, m, res, rfl, -, hi, hret⟩ := invoke_of_step h
    obtain rfl := Option.some.inj (hret.symm.trans hres)
    obtain ⟨⟨v, b⟩, hv, hi⟩ := Outcome.andThen_eq_returned.mp hi
    obtain ⟨rfl, hb⟩ := Outcome.pair_inj hi
    exact (scheduleMove_start hv).2 (CallResult.returned.inj hb)
  · obtain ⟨u, m, res, rfl, -, hi, -⟩ := invoke_of_step h
    obtain ⟨rfl, -⟩ := Outcome.pair_inj hi
    exact (sameControl_registerProcessingUnit unit constraints now).state.trans hrun

/-- **Success is reported only with every registered unit scheduled once.** -/
theorem reported_scheduled (h : machine.ReachableUnder UnitsFit r) (hG : UnitsFit r a)
    (hstep : r.step a = some t) (hrep : r.Reports a) : t.EachScheduled :=
  ((unitsScheduled h).step hG hstep).eachScheduled
    (by rw [isActive, running_of_reports hstep hrep]; rfl)

/-! ## More units than task blocks -/

/-- The pool of the timing controller has 128 blocks. -/
def PoolOf128 (s : AxonVexSystem) : Prop :=
  ∀ c, s.timingController = some c → c.scheduler.taskPool.capacity = 128

theorem capacity_scheduleProcessingUnit (c : TimingController) (unit : UnitPtr) (name : String)
    (constraints : TimingConstraints) (now : TimePoint) :
    (c.scheduleProcessingUnit unit name constraints now).1.scheduler.taskPool.capacity =
      c.scheduler.taskPool.capacity := by
  unfold TimingController.scheduleProcessingUnit addTask
  dsimp only
  split
  · rfl
  next halloc =>
    dsimp only
    split_ifs <;> exact (MemoryPool.allocateObject_spec halloc).2.2

theorem capacity_scheduleAll (c : TimingController) (units : List ProcessingUnit)
    (constraints : TimingConstraints) (now : TimePoint) :
    (c.scheduleAll units constraints now).scheduler.taskPool.capacity =
      c.scheduler.taskPool.capacity := by
  induction units generalizing c with
  | nil => rfl
  | cons u units ih => exact (ih _).trans (capacity_scheduleProcessingUnit c _ _ _ _)

theorem capacity_removeProcessingUnit (c : TimingController) (unit : UnitPtr) :
    (c.removeProcessingUnit unit).1.scheduler.taskPool.capacity = c.scheduler.taskPool.capacity := by
  unfold TimingController.removeProcessingUnit
  split
  · rfl
  next taskId _ => exact (c.scheduler.removeTask_frame taskId).2.2.2

/-- No action changes the size of the pool. -/
theorem PoolOf128.step {s u : AxonVexSystem} (hs : PoolOf128 s) (h : ScheduleMove s a u) :
    PoolOf128 u := by
  have hmap {f : TimingController → TimingController}
      (hf : ∀ c : TimingController, (f c).scheduler.taskPool.capacity = c.scheduler.taskPool.capacity)
      (hu : u.timingController = s.timingController.map f) : PoolOf128 u := by
    intro c' hc'
    obtain ⟨c, hc, rfl⟩ := Option.map_eq_some_iff.mp (hu.symm.trans hc')
    exact (hf c).trans (hs c hc)
  have hsome {c c' : TimingController} (hc : s.timingController = some c)
      (hf : c'.scheduler.taskPool.capacity = c.scheduler.taskPool.capacity)
      (hu : u.timingController = some c') : PoolOf128 u := by
    intro d hd
    obtain rfl := Option.some.inj (hu.symm.trans hd)
    exact hf.trans (hs c hc)
  have hstart (c : TimingController) (onThread spawned : Bool) :
      (c.start onThread spawned).1.scheduler.taskPool = c.scheduler.taskPool := by
    obtain ⟨v, hv, -, hpool, -⟩ := TimingController.start_tasks (c := c) onThread spawned
    rw [hv, ← hpool]
  cases h with
  | same _ _ ht => exact fun c hc => hs c (ht ▸ hc)
  | loop hc hl _ _ ht =>
    exact hsome hc (TimingController.loopMove_frame (loopMove_of_loopStep hl)).2 ht
  | @restarted _ _ c onThread spawned hc _ _ _ ht =>
    refine hsome hc ?_ ht
    rw [hstart]
    cases onThread <;> rfl
  | registered _ _ ht =>
    split at ht
    · exact hmap (fun c => capacity_scheduleProcessingUnit c _ _ _ _) ht
    · exact fun c hc => hs c (ht ▸ hc)
  | unregistered _ _ ht => exact hmap (fun c => capacity_removeProcessingUnit c _) ht
  | paused _ _ _ ht => exact hmap (f := TimingController.pause) (fun _ => rfl) ht
  | resumed _ _ _ ht => exact hmap (f := TimingController.resume) (fun _ => rfl) ht
  | startedNothing _ _ _ _ _ ht => exact fun c hc => absurd (ht.symm.trans hc) (by simp)
  | startFailed hc _ _ _ ht => exact hsome hc (by rw [hstart]) ht
  | started hc _ _ _ ht =>
    exact hsome hc ((capacity_scheduleAll _ _ _ _).trans (by rw [hstart])) ht
  | @emergencyShutdown _ onThread _ _ ht => exact hmap (fun c => by cases onThread <;> rfl) ht
  | replaced _ _ ht => exact fun c hc => Option.some.inj (ht.symm.trans hc) ▸ rfl
  | prepared _ ht => exact fun c hc => (ht c hc).capacity

theorem poolOf128 (h : machine.Reachable r) : PoolOf128 r.system := by
  refine h.invariant (I := fun r => PoolOf128 r.system) ⟨fun r hr => ?_, fun _ _ _ hs _ ht =>
    hs.step (scheduleMove_of_step ht)⟩
  obtain ⟨config, objectSize, -, rfl⟩ := hr
  exact fun c hc => absurd hc (by simp [fresh, AxonVexSystem.new])

/-- **With more than 128 units, not every one is scheduled**, whatever has been reported. -/
theorem not_eachScheduled (h : machine.Reachable r) (hcount : 128 < r.system.unitRegistry.count) :
    ¬ r.EachScheduled := by
  intro hall
  have hnd : (r.system.unitRegistry.all.map (·.ptr)).Nodup :=
    (registriesValid_of_reachable h).registry.nodup_ptrs
  have hlen : r.system.unitRegistry.all.length = r.system.unitRegistry.count := by
    simp [UnitRegistry.all, UnitRegistry.count, AList.values, AList.keys, List.keys]
  cases hc : r.system.timingController with
  | none =>
    have hne : r.system.unitRegistry.all ≠ [] := by
      rw [← List.length_pos_iff]
      omega
    obtain ⟨u, hu⟩ := List.exists_mem_of_ne_nil _ hne
    obtain ⟨c, hc', -⟩ := hall u hu
    exact absurd (hc.symm.trans hc') (by simp)
  | some c =>
    -- each unit is that of some block
    have hsub : r.system.unitRegistry.all.map (·.ptr) ⊆
        c.scheduler.taskPool.blocks.values.map (·.unit) := by
      intro ptr hptr
      obtain ⟨u, hu, rfl⟩ := List.mem_map.mp hptr
      obtain ⟨c', hc', ⟨id, ⟨task, ht, hunit⟩, -⟩, -⟩ := hall u hu
      obtain rfl := Option.some.inj (hc.symm.trans hc')
      obtain ⟨b, -, hb⟩ := Option.bind_eq_some_iff.mp ht
      exact List.mem_map.mpr ⟨task, AList.mem_values.mpr ⟨b, hb⟩, hunit⟩
    have hle := (List.subperm_of_subset hnd hsub).length_le
    have hblocks := c.scheduler.taskPool.length_blocks
    have hfresh := c.scheduler.taskPool.fresh_le
    have hcap := poolOf128 h c hc
    simp only [List.length_map, AList.values, AList.keys, List.keys] at hle hlen hblocks
    simp only [UnitRegistry.all, UnitRegistry.count, AList.values, AList.keys, List.keys,
      List.length_map] at hle hlen hcount
    omega

/-! ## A run that registers units before its start -/

/-- An initialized system with `n` units, of the thousand it admits. -/
structure Holds (n : ℕ) (r : SystemRun) : Prop where
  reachable : machine.ReachableUnder UnitsFit r
  state : r.system.state = .initialized
  timingController : r.system.timingController.isSome = true
  count : r.system.unitRegistry.count = n
  maxUnits : r.system.unitRegistry.maxUnits = 1000

/-- The condition is about the start, about units admitted while the system runs, and about
initializations. -/
theorem unitsFit_of_inactive (hs : r.system.isActive = false) (he : r.system.state ≠ .error)
    (ha : ∀ caller env, a ≠ .call caller (.start env)) : UnitsFit r a where
  starts caller env h := absurd h (ha caller env)
  admits _ _ _ _ _ _ hr := absurd hs (by rw [isActive, hr]; decide)
  pauses _ _ _ _ _ _ hr := absurd hs (by rw [isActive, hr]; decide)
  resumes _ _ h := absurd h he
  replaces _ _ _ h := absurd h (by simp [hs])

theorem holds_zero : ∃ r, Holds 0 r := by
  have hrun : (machine.step (fresh {} 0) (.call (.external 0) (.initializeSystem {}))).any (fun r =>
      r.system.state == .initialized && r.system.timingController.isSome &&
        r.system.unitRegistry.count == 0 && r.system.unitRegistry.maxUnits == 1000) = true := by
    decide
  obtain ⟨r, hr, hs⟩ := (Option.any_eq_true _ _).mp hrun
  simp only [Bool.and_eq_true, beq_iff_eq] at hs
  obtain ⟨⟨⟨hstate, htimer⟩, hcount⟩, hmax⟩ := hs
  refine ⟨r, .step _ (.init ⟨{}, 0, by decide, rfl⟩) ?_ hr, hstate, htimer, hcount, hmax⟩
  exact unitsFit_of_inactive rfl (by decide) (by simp)

/-- One unit more. -/
theorem Holds.succ {n : ℕ} (hr : Holds n r) (hn : n < 1000) : ∃ t, Holds (n + 1) t := by
  set unit := ProcessingUnit.new r.nextPtr "unit" with hunit
  have hinactive : r.system.isActive = false := by rw [isActive, hr.state]; rfl
  have hstep : machine.step r (.call (.external 0) (.registerProcessingUnit unit {} 0)) =
      some ⟨(r.system.registerProcessingUnit unit {} 0).1, r.nextPtr + 1⟩ := by
    simp [machine, step, newUnits, claimPtrs, callResult, isPresent, joinsWorkers, invoke, hunit,
      ProcessingUnit.new]
  have hreach := hr.reachable.step _ (unitsFit_of_inactive hinactive (by rw [hr.state]; decide)
    (by simp)) hstep
  have hvalid := (unitsScheduled hr.reachable).registries.registry
  cases hadd : r.system.unitRegistry.add unit with
  | none =>
    unfold UnitRegistry.add at hadd
    split at hadd
    next hle =>
      have := hr.count
      have := hr.maxUnits
      rw [UnitRegistry.count] at *
      omega
    · exact absurd hadd (by simp)
  | some p =>
    obtain ⟨id, registry⟩ := p
    obtain ⟨hreg, htimer⟩ := registerProcessingUnit_of_add (s := r.system) {} 0 hadd
    obtain ⟨hcount, -, hmax⟩ := UnitRegistry.count_add hadd hvalid.fresh
    refine ⟨_, hreach, (sameControl_registerProcessingUnit unit {} 0).state.trans hr.state, ?_, ?_, ?_⟩
    · rw [show _ = _ from htimer, if_neg (by simp [isRunning, hr.state])]
      exact hr.timingController
    · rw [show _ = _ from hreg, hcount, hr.count]
    · rw [show _ = _ from hreg, hmax, hr.maxUnits]

theorem exists_holds (n : ℕ) (hn : n ≤ 1000) : ∃ r, Holds n r := by
  induction n with
  | zero => exact holds_zero
  | succ n ih =>
    obtain ⟨r, hr⟩ := ih (by omega)
    exact hr.succ (by omega)

/-- It is started, and reports success. -/
theorem Holds.start {n : ℕ} (hr : Holds n r) : ∃ t,
    machine.step r (.call (.external 0) (.start {})) = some t ∧
      r.Reports (.call (.external 0) (.start {})) ∧ t.system.unitRegistry.count = n := by
  obtain ⟨c, hc⟩ := Option.isSome_iff_exists.mp hr.timingController
  have hspawned : (c.start false true).2 = false := by
    change (c.scheduler.start false true).2 = false
    unfold RealTimeScheduler.start
    split
    · rfl
    · rfl
  have hstarting : (r.system.transitionState .starting).1.state = .starting := by
    rw [transitionState_state, hr.state]
    rfl
  obtain ⟨v, hv⟩ : ∃ v, (r.system.transitionState .starting).1.startComponents (.external 0) true 0 =
      .returned (v, true) := by
    rw [startComponents, transitionState_timingController, hc]
    dsimp only
    rw [show (Thread.external 0 == Thread.scheduler) = false from rfl, hspawned]
    exact ⟨_, rfl⟩
  have hvstate : v.state = .starting := by
    obtain ⟨-, hs, -⟩ := startComponents_of_some (transitionState_timingController.trans hc)
      hstarting.ge hv
    exact hs.trans hstarting
  have hstart : r.system.start (.external 0) {} =
      .returned ((v.transitionState .running).1, true) := by
    unfold AxonVexSystem.start
    simp only [transitionState_snd]
    rw [if_pos (by rw [hr.state]; rfl), hv, Outcome.returned_andThen]
    dsimp only
    rw [if_pos rfl, if_pos (by rw [hvstate]; rfl)]
  have hstep : machine.step r (.call (.external 0) (.start {})) =
      some ⟨(v.transitionState .running).1, r.nextPtr⟩ := by
    simp [machine, step, newUnits, claimPtrs, callResult, isPresent, joinsWorkers, invoke, hstart,
      Outcome.toOption]
  refine ⟨_, hstep, ⟨?_, .inl ⟨_, _, rfl⟩⟩, ?_⟩
  · simp [returned, callResult, isPresent, joinsWorkers, invoke, hstart, Outcome.toOption]
  · exact (congrArg UnitRegistry.count (sameRegistries_start hstart).1).trans hr.count

/-- **With 129 units `start()` reports success, and not every unit has a task.** -/
theorem start_overfull : ¬ ∀ r a t, machine.Reachable r → r.step a = some t → r.Reports a →
    t.EachScheduled := by
  intro hall
  obtain ⟨r, hr⟩ := exists_holds 129 (by omega)
  obtain ⟨t, hstep, hrep, hcount⟩ := hr.start
  have hreach : machine.Reachable r := hr.reachable.mono fun _ _ _ => trivial
  exact not_eachScheduled (hreach.step _ trivial hstep) (by omega) (hall r (.call (.external 0) (.start {})) t hreach hstep hrep)

/-- With 128 units each has its task. -/
theorem reported_scheduled_full : ∃ r, Holds 128 r ∧ ∃ t,
    r.step (.call (.external 0) (.start {})) = some t ∧ t.EachScheduled := by
  obtain ⟨r, hr⟩ := exists_holds 128 (by omega)
  obtain ⟨t, hstep, hrep, -⟩ := hr.start
  have hG : UnitsFit r (.call (.external 0) (.start {})) := by
    refine ⟨fun _ _ _ _ => hr.count.le, ?_, ?_, ?_, ?_⟩ <;> simp
  exact ⟨r, hr, t, hstep, reported_scheduled hr.reachable hG hstep hrep⟩

end SystemRun

end AxonVex
