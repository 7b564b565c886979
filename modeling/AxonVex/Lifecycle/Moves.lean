import AxonVex.Core.Effects

/-!
# Lifecycle/Moves — what each action does to the lifecycle and the scheduler loop

Most actions leave the lifecycle, the components and the scheduler loop alone.  A `ControlMove` says
what the others do, one constructor for each way an operation can end, and `controlMove_of_step`
that there is no further one.  No later proof unfolds an operation.

Three facts decide the shape of the moves: a refused call changes nothing, with the exception of
`initialize`, which replaces components before it asks the table; recovery restarts the loop whatever
the state is; and an initialization that blocks is no move at all (`joinStaleWorkers`).
-/

namespace AxonVex

open Machinery

/-- The action leaves lifecycle, components and loops alone, unless a health check of it calls for
recovery. -/
def Action.isQuiet : Action → Bool
  | .call _ (.initializeSystem _) => false
  | .call _ (.start _) => false
  | .call _ .pause => false
  | .call _ .resume => false
  | .call _ .stop => false
  | .call _ .emergencyShutdown => false
  | .call _ .reset => false
  | .call _ _ => true
  | .schedulerStep _ => false
  | .dispatchStep _ => false
  | .beginCheck => true
  | .finishCheck _ _ => true
  | .refreshStatistics => true
  | .exitMonitor => true

namespace AxonVexSystem

open RealTimeScheduler

/-- The components exist and nothing is scheduled yet. -/
structure Ready (s : AxonVexSystem) : Prop where
  timingController : s.timingController.isSome = true
  logger : s.logger.isSome = true
  configuration : s.configuration.isSome = true
  noTask : s.HasNoTask

/-- The dispatch loop runs, and nothing asks it to end. -/
structure Dispatching (s : AxonVexSystem) : Prop where
  latch : s.lifecycle.isShuttingDown = false
  running : s.eventBus.running = true
  alive : s.eventBus.worker.alive = true

/-- There is no scheduler loop. -/
def NoLoop (s : AxonVexSystem) : Prop := ∀ r ∈ s.scheduler?, r.loopAlive = false

/-! ## The moves -/

/-- What an action that ends with `res` does. -/
inductive ControlMove (s : AxonVexSystem) : Action → Option CallResult → AxonVexSystem → Prop
  | quiet {a res t} (ha : a.isQuiet = true) (h : SameControl s t) : ControlMove s a res t
  | refused {caller c} : ControlMove s (.call caller c) (some (.returned false)) s
  | resetRefused {caller} (hw : s.isOnWorkerThread caller = true) :
      ControlMove s (.call caller .reset) (some (.returned true)) s
  /-- a health check restarts the timing controller -/
  | recovered {a res t c spawned thread} (ha : s.recoversOn a = some thread)
      (hc : s.timingController = some c) (hp : SameParts s t) (hs : t.state = s.state)
      (ht : t.timingController = some ((c.stop (thread == Thread.scheduler)).start
        (thread == Thread.scheduler) spawned).1) : ControlMove s a res t
  | loop {step t c scheduler} (hc : s.timingController = some c)
      (hm : LoopMove c.scheduler scheduler) (hp : SameParts s t) (hs : t.state = s.state)
      (ht : t.timingController = some { c with scheduler }) :
      ControlMove s (.schedulerStep step) none t
  | dispatch {step bus}
      (hb : s.eventBus.loopStep s.lifecycle.shutdownRequested step = some bus) :
      ControlMove s (.dispatchStep step) none { s with eventBus := bus }
  /-- `start()` without a timing controller, and without units to schedule -/
  | startedNothing {caller env t} (hv : validTransition s.state .starting = true)
      (hc : s.timingController = none) (hs : t.state = .running) (ht : t.timingController = none) :
      ControlMove s (.call caller (.start env)) (some (.returned true)) t
  | started {caller env ok t c c'} (hv : validTransition s.state .starting = true)
      (hc : s.timingController = some c)
      (hok : ok = !(c.scheduler.start (caller == Thread.scheduler) env.spawned).2)
      (hs : t.state = if ok then .running else .error) (ht : t.timingController = some c')
      (hl : SameLoop (c.scheduler.start (caller == Thread.scheduler) env.spawned).1 c'.scheduler) :
      ControlMove s (.call caller (.start env)) (some (.returned ok)) t
  | paused {caller t} (hv : validTransition s.state .pausing = true) (hs : t.state = .paused)
      (ht : t.timingController = s.timingController.map (·.pause)) :
      ControlMove s (.call caller .pause) (some (.returned true)) t
  | resumed {caller t} (hv : validTransition s.state .resuming = true) (hs : t.state = .running)
      (ht : t.timingController = s.timingController.map (·.resume)) :
      ControlMove s (.call caller .resume) (some (.returned true)) t
  | stopped {caller t} (hv : validTransition s.state .stopping = true) (hs : t.state = .stopped)
      (ht : t.timingController = none) :
      ControlMove s (.call caller .stop) (some (.returned true)) t
  | emergencyShutdown {caller t} (hs : t.state = .fatalError)
      (ht : t.timingController = s.timingController.map (·.stop (caller == Thread.scheduler))) :
      ControlMove s (.call caller .emergencyShutdown) (some (.returned true)) t
  | reset {caller t} (hw : s.isOnWorkerThread caller = false) (hs : t.state = .uninitialized)
      (ht : t.timingController = none) :
      ControlMove s (.call caller .reset) (some (.returned true)) t
  /-- `initialize` fails before it has made a timing controller -/
  | componentsFailed {caller env u t} (hj : s.joinStaleWorkers = .returned u)
      (hs : t.state = s.state) (ht : t.timingController = s.timingController) :
      ControlMove s (.call caller (.initializeSystem env)) (some (.returned false)) t
  /-- the table refuses `initialize` after the components have been replaced -/
  | componentsReplaced {caller env u t} (hj : s.joinStaleWorkers = .returned u)
      (hs : t.state = s.state) (ht : t.NoLoop) :
      ControlMove s (.call caller (.initializeSystem env)) (some (.returned false)) t
  | initializeAborted {caller env res t} (hres : res ≠ .returned true)
      (hs : t.state = .initializing ∨ t.state = .error) (ht : t.NoLoop) :
      ControlMove s (.call caller (.initializeSystem env)) (some res) t
  | initialized {caller env t} (hs : t.state = .initialized) (ht : t.NoLoop) (hr : t.Ready)
      (hd : t.Dispatching) :
      ControlMove s (.call caller (.initializeSystem env)) (some (.returned true)) t

variable {s t u : AxonVexSystem} {caller : Thread}

/-! ## Calls, case by case -/

/-- The start of the components that are there: the loop is started, then units are scheduled. -/
theorem startComponents_of_some {c : TimingController} {spawned ok : Bool} {now : TimePoint}
    (hc : s.timingController = some c) (hs : .starting ≤ s.state)
    (h : s.startComponents caller spawned now = .returned (t, ok)) :
    ok = !(c.scheduler.start (caller == Thread.scheduler) spawned).2 ∧ t.state = s.state ∧
      ∃ c', t.timingController = some c' ∧
        SameLoop (c.scheduler.start (caller == Thread.scheduler) spawned).1 c'.scheduler := by
  rw [startComponents, hc] at h
  dsimp only [TimingController.start] at h
  split at h
  next hthrow =>
    obtain ⟨⟩ := h
    exact ⟨by simp [hthrow], rfl, _, rfl, .refl _⟩
  next hthrow =>
    obtain ⟨⟩ := h
    have hfold := sameControl_foldl_scheduleUnit (s := { s with timingController := some { c with
      scheduler := (c.scheduler.start (caller == Thread.scheduler) spawned).1 } }) hs
      (·.defaultConstraints) now s.unitRegistry.all
    exact ⟨by simpa using hthrow, hfold.state, exists_sameLoop rfl hfold.loop⟩

/-- With a timing controller a start is defined. -/
theorem start_ne_undefinedBehaviour {env : StartEnv} (h : s.timingController.isSome = true) :
    s.start caller env ≠ .undefinedBehaviour := by
  obtain ⟨c, hc⟩ := Option.isSome_iff_exists.mp h
  have hcomponents : ∃ x, (s.transitionState .starting).1.startComponents caller env.spawned
      env.now = .returned x := by
    unfold startComponents
    rw [transitionState_timingController, hc]
    dsimp only
    split <;> exact ⟨_, rfl⟩
  obtain ⟨x, hx⟩ := hcomponents
  unfold start
  dsimp only
  rw [hx, Outcome.returned_andThen]
  split_ifs <;> simp

theorem move_start {env : StartEnv} {ok : Bool} (h : s.start caller env = .returned (t, ok)) :
    ControlMove s (.call caller (.start env)) (some (.returned ok)) t := by
  unfold start at h
  simp only [transitionState_snd] at h
  split at h
  next hv =>
    obtain ⟨⟨u, started⟩, hu, h⟩ := Outcome.andThen_eq_returned.mp h
    have hstate : (s.transitionState .starting).1.state = .starting := by
      rw [transitionState_state, if_pos hv]
    cases hc : s.timingController with
    | none =>
      simp only [startComponents, transitionState_timingController, hc] at hu
      split at hu
      · obtain ⟨⟩ := hu
        rw [if_pos rfl, if_pos (by rw [hstate]; rfl)] at h
        obtain ⟨⟩ := h
        exact .startedNothing hv hc (by rw [transitionState_state, hstate]; rfl) (by simpa using hc)
      · cases hu
    | some c =>
      obtain ⟨hok, hus, c', hc', hl⟩ := startComponents_of_some
        (transitionState_timingController.trans hc) hstate.ge hu
      rw [hstate] at hus
      cases started with
      | true =>
        rw [if_pos rfl, if_pos (by rw [hus]; rfl)] at h
        obtain ⟨⟩ := h
        exact .started hv hc hok (by rw [transitionState_state, hus]; rfl) (by simpa using hc') hl
      | false =>
        obtain ⟨⟩ := h
        exact .started hv hc hok (by rw [transitionState_state, hus]; rfl) (by simpa using hc') hl
  next hv =>
    obtain ⟨⟩ := h
    rw [transitionState_of_not_valid (by simpa using hv)]
    exact .refused

theorem move_pause : ControlMove s (.call caller .pause) (some (.returned s.pause.2)) s.pause.1 := by
  unfold pause
  simp only [transitionState_snd]
  cases hv : validTransition s.state .pausing with
  | true =>
    have hstate : (s.transitionState .pausing).1.pauseComponents.state = .pausing :=
      transitionState_state.trans (if_pos hv)
    rw [if_pos rfl, transitionState_snd, hstate]
    refine .paused hv (by rw [transitionState_state, hstate]; rfl) ?_
    simp [pauseComponents]
  | false =>
    rw [transitionState_of_not_valid hv]
    exact .refused

theorem move_resume :
    ControlMove s (.call caller .resume) (some (.returned s.resume.2)) s.resume.1 := by
  unfold resume
  simp only [transitionState_snd]
  cases hv : validTransition s.state .resuming with
  | true =>
    have hstate : (s.transitionState .resuming).1.resumeComponents.state = .resuming :=
      transitionState_state.trans (if_pos hv)
    rw [if_pos rfl, transitionState_snd, hstate]
    refine .resumed hv (by rw [transitionState_state, hstate]; rfl) ?_
    simp [resumeComponents]
  | false =>
    rw [transitionState_of_not_valid hv]
    exact .refused

theorem move_stop :
    ControlMove s (.call caller .stop) (some (.returned (s.stop caller).2)) (s.stop caller).1 := by
  unfold stop
  split
  · exact .refused
  · simp only [transitionState_snd]
    cases hv : validTransition s.state .stopping with
    | true =>
      have hstate : (s.transitionState .stopping).1.state = .stopping :=
        transitionState_state.trans (if_pos hv)
      rw [if_pos rfl]
      -- past the transition only the last transition moves the state
      generalize hu : cleanupComponents _ = u
      have hus : u.state = .stopping := by rw [← hu]; exact hstate
      have hval : validTransition u.state .stopped = true := by rw [hus]; rfl
      rw [transitionState_snd, hval]
      exact .stopped hv (transitionState_state.trans (if_pos hval))
        (transitionState_timingController.trans (by rw [← hu]; rfl))
    | false =>
      rw [transitionState_of_not_valid hv]
      exact .refused

/-- An emergency shutdown halts or joins the loop, and leaves the timing controller. -/
theorem emergencyShutdown_state : (s.emergencyShutdown caller).state = .fatalError :=
  transitionState_state.trans (if_pos rfl)

theorem emergencyShutdown_timingController :
    (s.emergencyShutdown caller).timingController =
      s.timingController.map (·.stop (caller == Thread.scheduler)) := by
  simp [emergencyShutdown, requestWorkerStops, stopComponents]

theorem move_reset : ControlMove s (.call caller .reset) (some (.returned true)) (s.reset caller) := by
  cases hw : s.isOnWorkerThread caller with
  | true =>
    rw [reset, if_pos hw]
    exact .resetRefused hw
  | false =>
    refine .reset hw ?_ ?_
    · rw [reset, if_neg (by simp [hw])]
      have hv : validTransition (s.emergencyShutdown caller).state .uninitialized = true := by
        rw [emergencyShutdown_state]; rfl
      exact transitionState_state.trans (if_pos hv)
    · rw [reset, if_neg (by simp [hw])]

/-! ## Initialization -/

theorem noLoop_iff : s.NoLoop ↔ ∀ v ∈ s.loopView, v.2.2.alive = false := by
  cases hc : s.scheduler? <;> simp [NoLoop, loopView, hc, loopAlive]

theorem noLoop_of_none (h : s.timingController = none) : s.NoLoop := by
  simp [NoLoop, scheduler?, h]

theorem noLoop_of_some {c : TimingController} (h : s.timingController = some c)
    (hc : c.scheduler.loopAlive = false) : s.NoLoop := by
  simp [NoLoop, scheduler?, h, hc]

theorem NoLoop.loopAlive {c : TimingController} (h : s.NoLoop) (hc : s.timingController = some c) :
    c.scheduler.loopAlive = false := h _ (by simp [scheduler?, hc])

/-- An operation that leaves every loop alone makes none. -/
theorem NoLoop.map {f : TimingController → TimingController} (h : s.NoLoop)
    (ht : t.timingController = s.timingController.map f)
    (hf : ∀ c, (f c).scheduler.worker = c.scheduler.worker) : t.NoLoop := by
  cases hc : s.timingController with
  | none => exact noLoop_of_none (by rw [ht, hc]; rfl)
  | some c =>
    refine noLoop_of_some (by rw [ht, hc]; rfl) ?_
    rw [RealTimeScheduler.loopAlive, hf]
    exact h.loopAlive hc

theorem SameControl.noLoop (h : SameControl s t) (hs : s.NoLoop) : t.NoLoop := by
  rw [noLoop_iff, h.loop]
  exact noLoop_iff.mp hs

theorem SameControl.ready (h : SameControl s t) (hstate : s.state < .starting) (hs : s.Ready) :
    t.Ready where
  timingController := by
    obtain ⟨c, hc⟩ := Option.isSome_iff_exists.mp hs.timingController
    obtain ⟨c', hc', -⟩ := exists_sameLoop hc h.loop
    rw [hc', Option.isSome_some]
  logger := h.logger ▸ hs.logger
  configuration := h.configuration ▸ hs.configuration
  noTask := h.noTask hstate hs.noTask

/-- The joins leave the lifecycle and the timing controller alone. -/
theorem joinStaleWorkers_frame (h : s.joinStaleWorkers = .returned u) :
    u.lifecycle = s.lifecycle ∧ u.timingController = s.timingController := by
  unfold joinStaleWorkers at h
  split at h
  · cases h
  · dsimp only at h
    split at h
    · cases h
    · obtain rfl := Outcome.returned.inj h
      exact ⟨rfl, rfl⟩

/-- **The joins block on a dispatch loop that runs**, unless the lifecycle state ends it. -/
theorem not_dispatching_of_joinStaleWorkers (h : s.joinStaleWorkers = .returned u)
    (hs : s.state < .stopping) : ¬ s.Dispatching := by
  intro hd
  have hreq : s.lifecycle.shutdownRequested = false := by
    rw [LifecycleController.shutdownRequested, hd.latch, Bool.false_or, decide_eq_false_iff_not]
    exact hs.not_ge
  unfold joinStaleWorkers at h
  split at h
  · cases h
  · dsimp only at h
    rw [if_pos (by simp [EventBus.loopCondition, hd.alive, hd.running, hreq])] at h
    cases h

/-- **The timing controller is the last component made**: an exception leaves the old one. -/
theorem initializeComponents_of_fault {fault : Option ComponentFault}
    (h : (s.initializeComponents fault).2 = false) :
    (s.initializeComponents fault).1.state = s.state ∧
      (s.initializeComponents fault).1.timingController = s.timingController := by
  unfold initializeComponents newConfiguration at h ⊢
  dsimp only at h ⊢
  split_ifs at h ⊢ <;> exact ⟨rfl, rfl⟩

/-- Without an exception every component is there, and the timing controller is new. -/
theorem initializeComponents_of_ok {fault : Option ComponentFault}
    (h : (s.initializeComponents fault).2 = true) :
    (s.initializeComponents fault).1.state = s.state ∧
      (s.initializeComponents fault).1.Ready ∧ (s.initializeComponents fault).1.NoLoop := by
  have hconf (v : AxonVexSystem) : v.newConfiguration.configuration.isSome = true := by
    unfold newConfiguration
    split
    · assumption
    · rfl
  have hstate (v : AxonVexSystem) : v.newConfiguration.state = v.state := by
    unfold newConfiguration
    split <;> rfl
  have hlogger (v : AxonVexSystem) : v.newConfiguration.logger = v.logger := by
    unfold newConfiguration
    split <;> rfl
  unfold initializeComponents at h ⊢
  dsimp only at h ⊢
  split_ifs at h ⊢
  refine ⟨hstate _, ⟨rfl, ?_, hconf _, ?_⟩, ?_⟩
  · exact (congrArg Option.isSome (hlogger _)).trans rfl
  · simp [HasNoTask, scheduler?, newTimingController, TimingController.new, RealTimeScheduler.new]
  · simp [NoLoop, scheduler?, newTimingController, TimingController.new, RealTimeScheduler.new,
      loopAlive]

/-- What a transition does not reach keeps the components ready. -/
theorem ready_transitionState {newState : SystemState} (h : s.Ready) :
    (s.transitionState newState).1.Ready where
  timingController := by rw [transitionState_timingController, h.timingController]
  logger := by rw [transitionState_logger, h.logger]
  configuration := by rw [transitionState_configuration, h.configuration]
  noTask := by
    rw [HasNoTask, scheduler?, transitionState_timingController]
    exact h.noTask

theorem noLoop_transitionState {newState : SystemState} (h : s.NoLoop) :
    (s.transitionState newState).1.NoLoop := by
  rw [NoLoop, scheduler?, transitionState_timingController]
  exact h

section Initializing

variable {s₀ : AxonVexSystem} {env env' : InitializeEnv}

/-- From `INITIALIZING`, both failure exits lead to `ERROR` without components. -/
theorem move_failInitialize (hs : s.state = .initializing) :
    ControlMove s₀ (.call caller (.initializeSystem env)) (some (.returned false))
      s.failInitialize :=
  .initializeAborted (by simp) (.inr (transitionState_state.trans (if_pos (by rw [hs]; rfl))))
    (noLoop_of_none rfl)

theorem move_catchInitialize (hs : s.state = .initializing) :
    ControlMove s₀ (.call caller (.initializeSystem env)) (some (.returned false))
      s.catchInitialize :=
  .initializeAborted (by simp) (.inr (transitionState_state.trans
    (if_pos (by rw [show s.cleanupComponents.state = s.state from rfl, hs]; rfl))))
    (noLoop_of_none transitionState_timingController)

theorem startMonitor_frame (spawned : Bool) :
    ∃ healthMonitor, (s.startMonitor spawned).1 = { s with healthMonitor } := by
  unfold startMonitor
  split
  · exact ⟨_, rfl⟩
  · exact ⟨s.healthMonitor, rfl⟩

/-- A dispatch loop that could be started runs, the latch being clear. -/
theorem dispatching_startDispatch {spawned : Bool} (hl : s.lifecycle.isShuttingDown = false)
    (h : (s.startDispatch spawned).2 = false) : (s.startDispatch spawned).1.Dispatching := by
  cases spawned with
  | true => exact ⟨hl, rfl, rfl⟩
  | false => exact absurd h.symm Bool.false_ne_true

theorem dispatching_transitionState {newState : SystemState} (h : s.Dispatching) :
    (s.transitionState newState).1.Dispatching where
  latch := transitionState_isShuttingDown.trans h.latch
  running := transitionState_bus_running.trans h.running
  alive := by rw [transitionState_bus_worker, h.alive]

theorem move_startWorkers (hs : s.state = .initializing) (hr : s.Ready) (hn : s.NoLoop) :
    ControlMove s₀ (.call caller (.initializeSystem env)) (some (s.startWorkers env').2)
      (s.startWorkers env').1 := by
  obtain ⟨healthMonitor, hm⟩ := startMonitor_frame (s := s.clearShutdownLatch) env'.monitorSpawned
  unfold startWorkers
  dsimp only
  rw [hm]
  split
  · exact move_catchInitialize hs
  · split
    · exact move_catchInitialize hs
    next hthrow =>
      have hd := dispatching_startDispatch (s := { s.clearShutdownLatch with healthMonitor }) rfl
        (by simpa using hthrow)
      set u := ({ s.clearShutdownLatch with healthMonitor } : AxonVexSystem).startDispatch
        env'.dispatchSpawned
      have hv : validTransition u.1.state .initialized = true := by
        rw [show u.1.state = s.state from rfl, hs]; rfl
      rw [transitionState_snd, if_pos hv]
      exact .initialized (transitionState_state.trans (if_pos hv))
        (noLoop_transitionState (show u.1.NoLoop from hn))
        (ready_transitionState ⟨hr.timingController, hr.logger, hr.configuration, hr.noTask⟩)
        (dispatching_transitionState hd)

theorem move_configureAndStart (hs : s.state = .initializing) (hr : s.Ready) (hn : s.NoLoop) :
    ControlMove s₀ (.call caller (.initializeSystem env)) (some (s.configureAndStart env').2)
      (s.configureAndStart env').1 := by
  unfold configureAndStart
  split
  · exact .initializeAborted (by simp) (.inl hs) hn
  · have hl := sameControl_layout env'.layout s
    have hstate := hl.state.trans hs
    dsimp only
    split
    · exact move_startWorkers hstate (hl.ready (by rw [hs]; decide) hr) (hl.noLoop hn)
    · exact move_failInitialize hstate
    · exact move_catchInitialize hstate
    · exact .initializeAborted (by simp) (.inl hstate) (hl.noLoop hn)

end Initializing

theorem move_initializeSystem {env : InitializeEnv} {res : CallResult}
    (h : s.initializeSystem caller env = .returned (t, res)) :
    ControlMove s (.call caller (.initializeSystem env)) (some res) t := by
  unfold initializeSystem at h
  split at h
  · obtain ⟨⟩ := h
    exact .refused
  · obtain ⟨u, hj, h⟩ := Outcome.andThen_eq_returned.mp h
    obtain ⟨hlc, htc⟩ := joinStaleWorkers_frame hj
    have hus : u.state = s.state := congrArg LifecycleController.currentState hlc
    cases hok : (u.initializeComponents env.fault).2 with
    | false =>
      simp only [hok, Bool.not_false, if_true] at h
      obtain ⟨⟩ := h
      obtain ⟨hstate, hc⟩ := initializeComponents_of_fault hok
      exact .componentsFailed hj (hstate.trans hus) (hc.trans htc)
    | true =>
      obtain ⟨hstate, hr, hn⟩ := initializeComponents_of_ok hok
      simp only [hok, Bool.not_true, Bool.false_eq_true, if_false, transitionState_snd] at h
      split at h
      next hv =>
        obtain ⟨rfl, rfl⟩ := Outcome.pair_inj h
        exact move_configureAndStart (transitionState_state.trans (if_pos hv))
          (ready_transitionState hr) (noLoop_transitionState hn)
      next hv =>
        obtain ⟨⟩ := h
        rw [transitionState_of_not_valid (by simpa using hv)]
        exact .componentsReplaced hj (hstate.trans hus) hn

/-! ## Health checks and worker steps -/

/-- Recovery restarts the timing controller that is there, whatever the state is. -/
theorem attemptRecovery_of_some {c : TimingController} {spawned : Bool}
    (ha : s.systemConfig.enableAutoRecovery = true)
    (hn : s.currentRecoveryAttempts < s.systemConfig.maxRecoveryAttempts)
    (hc : s.timingController = some c) :
    SameParts s (s.attemptRecovery caller spawned) ∧
      (s.attemptRecovery caller spawned).state = s.state ∧
      (s.attemptRecovery caller spawned).timingController =
        some ((c.stop (caller == Thread.scheduler)).start (caller == Thread.scheduler) spawned).1 := by
  rw [attemptRecovery, if_neg (by simp [ha]), if_neg hn.not_ge]
  dsimp only
  rw [hc]
  dsimp only
  split <;> exact ⟨⟨rfl, rfl, rfl, rfl, rfl, rfl⟩, rfl, rfl⟩

/-- Recovery that is off, used up, or has nothing to restart. -/
theorem sameControl_attemptRecovery {spawned : Bool}
    (h : s.systemConfig.enableAutoRecovery = true →
      s.currentRecoveryAttempts < s.systemConfig.maxRecoveryAttempts → s.timingController = none) :
    SameControl s (s.attemptRecovery caller spawned) ∧
      (s.attemptRecovery caller spawned).timingController = s.timingController := by
  unfold attemptRecovery
  split
  · exact ⟨.refl s, rfl⟩
  next ha =>
    split
    · exact ⟨.refl s, rfl⟩
    next hn =>
      have hc := h (by simpa using ha) (not_le.mp hn)
      dsimp only
      rw [hc]
      exact ⟨.of_timingController ⟨rfl, rfl, rfl, rfl, rfl, rfl⟩ rfl hc.symm, rfl⟩

/-- The report of a health check. -/
theorem publish_healthCheck {e : SystemEvent} : SameControl s (s.publish e) ∧
    (s.publish e).currentRecoveryAttempts = s.currentRecoveryAttempts ∧
    (s.publish e).timingController = s.timingController :=
  ⟨(SameControl.refl s).publish, rfl, rfl⟩

/-- A health check that calls for recovery restarts the timing controller. -/
theorem finishHealthCheck_of_fires {health : SystemHealth} {callbacks : List (Option SystemHealth)}
    (caller : Thread) (spawned : Bool) (hf : s.recoveryFires health callbacks = true) :
    ∃ c, s.timingController = some c ∧
      SameParts s (s.finishHealthCheck caller health callbacks spawned) ∧
      (s.finishHealthCheck caller health callbacks spawned).state = s.state ∧
      (s.finishHealthCheck caller health callbacks spawned).timingController =
        some ((c.stop (caller == Thread.scheduler)).start (caller == Thread.scheduler) spawned).1 := by
  unfold finishHealthCheck
  dsimp only
  obtain ⟨hsu, hatt, htc⟩ := publish_healthCheck (s := s) (e := s.event .healthCheck _ _)
  generalize s.publish (s.event .healthCheck _ _) = u at hsu hatt htc ⊢
  rw [hsu.systemConfig]
  simp only [recoveryFires, Bool.and_eq_true, decide_eq_true_eq, Option.isSome_iff_exists] at hf
  obtain ⟨⟨⟨hcall, hauto⟩, hn⟩, c, hc⟩ := hf
  obtain ⟨hp, hs, ht⟩ := @attemptRecovery_of_some u caller c spawned
    (by rw [hsu.systemConfig, hauto]) (by rw [hatt, hsu.systemConfig]; exact hn) (htc.trans hc)
  rw [if_pos (by simp [hcall, hauto])]
  exact ⟨c, hc, hsu.toSameParts.trans hp, hs.trans hsu.state, ht⟩

/-- Any other leaves all of it alone. -/
theorem finishHealthCheck_of_quiet {health : SystemHealth} {callbacks : List (Option SystemHealth)}
    (caller : Thread) (spawned : Bool) (hf : s.recoveryFires health callbacks = false) :
    SameControl s (s.finishHealthCheck caller health callbacks spawned) ∧
      (s.finishHealthCheck caller health callbacks spawned).timingController =
        s.timingController := by
  unfold finishHealthCheck
  dsimp only
  obtain ⟨hsu, hatt, htc⟩ := publish_healthCheck (s := s) (e := s.event .healthCheck _ _)
  generalize s.publish (s.event .healthCheck _ _) = u at hsu hatt htc ⊢
  rw [hsu.systemConfig]
  split
  next hcall =>
    obtain ⟨hq, ht⟩ := @sameControl_attemptRecovery u caller spawned
      fun hauto hn => by
        rw [hatt, hsu.systemConfig] at hn
        rw [htc, ← Option.not_isSome_iff_eq_none]
        intro hc
        rw [Bool.and_eq_true] at hcall
        simp [recoveryFires, hcall, hn, hc] at hf
    exact ⟨hsu.trans hq, ht.trans htc⟩
  · exact ⟨hsu, htc⟩

/-- **A health check restarts the timing controller, or leaves all of it alone.** -/
theorem finishHealthCheck_cases (health : SystemHealth) (callbacks : List (Option SystemHealth))
    (spawned : Bool) :
    (s.recoveryFires health callbacks = true ∧ ∃ c, s.timingController = some c ∧
        SameParts s (s.finishHealthCheck caller health callbacks spawned) ∧
        (s.finishHealthCheck caller health callbacks spawned).state = s.state ∧
        (s.finishHealthCheck caller health callbacks spawned).timingController =
          some ((c.stop (caller == Thread.scheduler)).start (caller == Thread.scheduler)
            spawned).1) ∨
      SameControl s (s.finishHealthCheck caller health callbacks spawned) := by
  cases hf : s.recoveryFires health callbacks with
  | true => exact .inl ⟨rfl, finishHealthCheck_of_fires caller spawned hf⟩
  | false => exact .inr (finishHealthCheck_of_quiet caller spawned hf).1

/-- A step of a worker loop. -/
theorem move_of_workerStep {a : Action} (h : s.workerStep a = some t) : ControlMove s a none t := by
  cases a with
  | call caller c => exact absurd h (by simp [workerStep])
  | schedulerStep st =>
    obtain ⟨tc, hc, h⟩ := Option.bind_eq_some_iff.mp h
    obtain ⟨sch, hm, rfl⟩ := Option.map_eq_some_iff.mp h
    exact .loop hc (RealTimeScheduler.loopMove_of_loopStep hm) ⟨rfl, rfl, rfl, rfl, rfl, rfl⟩ rfl rfl
  | dispatchStep st =>
    obtain ⟨bus, hb, rfl⟩ := Option.map_eq_some_iff.mp h
    exact .dispatch hb
  | beginCheck =>
    change s.beginCheck = some t at h
    unfold beginCheck at h
    split at h
    · exact Option.some.inj h ▸ .quiet rfl
        (.of_timingController ⟨rfl, rfl, rfl, rfl, rfl, rfl⟩ rfl rfl)
    · cases h
  | finishCheck callbacks spawned =>
    change s.finishCheck callbacks spawned = some t at h
    unfold finishCheck at h
    split at h
    next health hpc =>
      split at h
      · cases h
      · obtain ⟨⟩ := h
        rcases @finishHealthCheck_cases s .monitor health callbacks spawned with
          ⟨hf, tc, hc, hp, hs, ht⟩ | hq
        · exact .recovered (by simp only [recoversOn, hpc, hf, if_true]) hc
            (hp.trans ⟨rfl, rfl, rfl, rfl, rfl, rfl⟩) hs ht
        · exact .quiet rfl (hq.trans (.of_timingController ⟨rfl, rfl, rfl, rfl, rfl, rfl⟩ rfl rfl))
    · cases h
  | refreshStatistics =>
    change s.refreshStatistics = some t at h
    unfold refreshStatistics at h
    split at h
    · exact Option.some.inj h ▸ .quiet rfl sameControl_updateStatistics
    · cases h
  | exitMonitor =>
    change s.exitMonitor = some t at h
    unfold exitMonitor at h
    split at h
    · exact Option.some.inj h ▸ .quiet rfl
        (.of_timingController ⟨rfl, rfl, rfl, rfl, rfl, rfl⟩ rfl rfl)
    · cases h

/-- No worker loop moves the lifecycle state. -/
theorem workerStep_state {a : Action} (h : s.workerStep a = some t) : t.state = s.state := by
  cases a with
  | call caller c => exact absurd h (by simp [workerStep])
  | _ => cases move_of_workerStep h <;> first | assumption | rfl | exact SameControl.state ‹_›

end AxonVexSystem

namespace SystemRun

open AxonVexSystem

variable {r t : SystemRun} {caller : Thread} {c : Call} {a : Action}

theorem move_of_call (h : r.step (.call caller c) = some t) :
    ControlMove r.system (.call caller c) (r.returned (.call caller c)) t.system := by
  obtain ⟨u, m, res, rfl, -, hi, hres⟩ := invoke_of_step h
  rw [hres]
  cases c with
  | initializeSystem env => exact move_initializeSystem hi
  | start env =>
    obtain ⟨⟨v, b⟩, hv, ⟨⟩⟩ := Outcome.andThen_eq_returned.mp hi
    exact move_start hv
  | pause =>
    obtain ⟨⟩ := hi
    exact move_pause
  | resume =>
    obtain ⟨⟩ := hi
    exact move_resume
  | stop =>
    obtain ⟨⟩ := hi
    exact move_stop
  | emergencyShutdown =>
    obtain ⟨⟩ := hi
    exact .emergencyShutdown emergencyShutdown_state emergencyShutdown_timingController
  | reset =>
    obtain ⟨⟩ := hi
    exact move_reset
  | registerProcessingUnit unit constraints now =>
    obtain ⟨rfl, -⟩ := Outcome.pair_inj hi
    exact .quiet rfl (sameControl_registerProcessingUnit unit constraints now)
  | unregisterProcessingUnit id =>
    obtain ⟨rfl, -⟩ := Outcome.pair_inj hi
    exact .quiet rfl (sameControl_unregisterProcessingUnit id)
  | assignSystemInputPort name unit id =>
    obtain ⟨rfl, -⟩ := Outcome.pair_inj hi
    exact .quiet rfl (sameControl_assignSystemPort _ _ _ name unit id)
  | assignSystemOutputPort name unit id =>
    obtain ⟨rfl, -⟩ := Outcome.pair_inj hi
    exact .quiet rfl (sameControl_assignSystemPort _ _ _ name unit id)
  | removeSystemInputPort name =>
    obtain ⟨rfl, -⟩ := Outcome.pair_inj hi
    exact .quiet rfl (sameControl_removeSystemInputPort name)
  | removeSystemOutputPort name =>
    obtain ⟨rfl, -⟩ := Outcome.pair_inj hi
    exact .quiet rfl (sameControl_removeSystemOutputPort name)
  | performHealthCheck callbacks spawned =>
    obtain ⟨rfl, -⟩ := Outcome.pair_inj hi
    rcases @finishHealthCheck_cases r.system caller r.system.getHealth callbacks
      spawned with ⟨hf, tc, hc, hp, hs, ht⟩ | hq
    · exact .recovered (by rw [recoversOn, if_pos hf]) hc hp hs ht
    · exact .quiet rfl hq

/-- **Every action is one of the moves.** -/
theorem controlMove_of_step (h : r.step a = some t) :
    ControlMove r.system a (r.returned a) t.system := by
  cases a with
  | call caller c => exact move_of_call h
  | _ =>
    obtain ⟨u, hu, rfl⟩ := Option.map_eq_some_iff.mp h
    exact move_of_workerStep hu

end SystemRun

end AxonVex
