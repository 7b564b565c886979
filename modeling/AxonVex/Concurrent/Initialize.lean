import AxonVex.Concurrent.Shutdown
import AxonVex.Lifecycle.Moves
import Mathlib.Logic.Function.Basic

/-!
# Concurrent/Initialize — an initialization interrupted by emergency shutdowns

One thread runs `initialize`, one step at a time; any other threads, the workers it has started among
them, call `emergencyShutdown()` meanwhile.  The initialization starts from any system whatever.

Run without interference, the steps are `AxonVexSystem.initializeSystem` (`initialize_alone`).

What decides every race is the table: `FATAL_ERROR` leads to `UNINITIALIZED` only, so none of the
three transitions of `initialize` is taken after the shutdown's.
-/

namespace AxonVex

open Machinery

/-- Where `initialize` stands: what it is about to do. -/
inductive InitializePc
  /-- the check of the caller -/
  | checkCaller
  | joinMonitor
  | joinBus
  | makeComponents
  /-- the transition to `INITIALIZING` -/
  | enter
  /-- the configuration file -/
  | load
  /-- the calls of `initializeBlocksLayout()` that are left -/
  | layout (calls : List AxonVexSystem.LayoutCall)
  | clearLatch
  | startMonitor
  | startBus
  /-- the transition to `INITIALIZED` -/
  | finish
  /-- the transition to `ERROR` after a layout that returned false -/
  | fail
  | cleanup
  /-- `catch`: the components go -/
  | catchCleanup
  /-- `catch`: the transition to `ERROR` -/
  | catchError
  /-- all is done but the return; `entered` is whether the first transition was taken -/
  | leave (entered : Bool) (res : AxonVexSystem.CallResult)
  | done (entered : Bool) (res : AxonVexSystem.CallResult)

/-- `initialize` has taken its first transition. -/
def InitializePc.entered : InitializePc → Bool
  | checkCaller => false
  | joinMonitor => false
  | joinBus => false
  | makeComponents => false
  | enter => false
  | leave entered _ => entered
  | done entered _ => entered
  | _ => true

/-- A call of `initialize` among emergency shutdowns. -/
structure Initialization where
  shared : Shared
  caller : Thread
  env : AxonVexSystem.InitializeEnv
  pc : InitializePc := .checkCaller
  /-- the calls of `emergencyShutdown()` in progress -/
  shutdowns : Thread → Option ShutdownPc := fun _ => none

namespace Initialization

variable (p : Initialization)

/-- The system. -/
abbrev system : AxonVexSystem := p.shared.system

/-- `initialize` at its next position, with the system it leaves. -/
def goto (system : AxonVexSystem) (pc : InitializePc) : Initialization :=
  { p with shared := p.shared.put system, pc }

/-- The step of `initialize` from a position; `none` while it waits. -/
def stepAt : InitializePc → Option Initialization
  | .checkCaller =>
    if p.system.isOnWorkerThread p.caller then some (p.goto p.system (.leave false (.returned false)))
    else some (p.goto p.system .joinMonitor)
  | .joinMonitor =>
    if p.system.healthMonitor.worker.alive then none
    else some (p.goto
      { p.system with healthMonitor := p.system.healthMonitor.join false } .joinBus)
  | .joinBus =>
    if p.system.eventBus.worker.alive then none
    else some (p.goto { p.system with eventBus := (p.system.eventBus.join false).1 } .makeComponents)
  | .makeComponents =>
    let (system, ok) := p.system.initializeComponents p.env.fault
    some (p.goto system (if ok then .enter else .leave false (.returned false)))
  | .enter =>
    let (system, valid) := p.system.transitionState .initializing
    some (p.goto system (if valid then .load else .leave false (.returned false)))
  | .load =>
    if p.env.configPath ≠ "" ∧ !(p.system.configuration.isSome && p.env.configLoads) then
      some (p.goto p.system (.leave true (.returned false)))
    else some (p.goto p.system (.layout p.env.layout))
  | .layout (call :: calls) => some (p.goto (p.system.layoutCall call) (.layout calls))
  | .layout [] =>
    some (p.goto p.system <| match p.env.layoutResult with
      | .returnsTrue => .clearLatch
      | .returnsFalse => .fail
      | .throwsStdException => .catchCleanup
      | .throwsOther => .leave true .escaped)
  | .clearLatch => some (p.goto p.system.clearShutdownLatch .startMonitor)
  | .startMonitor =>
    let (system, threw) := p.system.startMonitor p.env.monitorSpawned
    some (p.goto system (if threw then .catchCleanup else .startBus))
  | .startBus =>
    let (system, threw) := p.system.startDispatch p.env.dispatchSpawned
    some (p.goto system (if threw then .catchCleanup else .finish))
  | .finish =>
    let (system, valid) := p.system.transitionState .initialized
    some (p.goto system (if valid then .leave true (.returned true) else .cleanup))
  | .fail => some (p.goto (p.system.transitionState .error).1 .cleanup)
  | .cleanup => some (p.goto p.system.cleanupComponents (.leave true (.returned false)))
  | .catchCleanup => some (p.goto p.system.cleanupComponents .catchError)
  | .catchError =>
    some (p.goto (p.system.transitionState .error).1 (.leave true (.returned false)))
  | .leave entered res => some (p.goto p.system (.done entered res))
  | .done _ _ => none

/-- The next step of `initialize`. -/
def initializeStep : Option Initialization := p.stepAt p.pc

/-- What the threads do. -/
inductive Move
  /-- a step of `initialize` -/
  | advance
  /-- a thread calls `emergencyShutdown()`, or takes the next step of its call -/
  | shutdown (thread : Thread)
  /-- a step of a worker loop -/
  | worker (step : Action)

/-- One step.  A worker whose user code is in a shutdown goes on when the shutdown returns. -/
def step : Move → Option Initialization
  | .advance => p.initializeStep
  | .shutdown thread =>
    match p.shutdowns thread with
    | some pc => (p.shared.shutdownStep thread pc).map fun (shared, pc) =>
      { p with
        shared
        shutdowns := Function.update p.shutdowns thread (match pc with
          | .done => none
          | pc => some pc) }
    | none =>
      if thread ≠ p.caller ∧ p.system.isPresent thread = true then
        some { p with shutdowns := Function.update p.shutdowns thread (some .transition) }
      else none
  | .worker a =>
    if a.workerThread.all fun thread => (p.shutdowns thread).isNone then
      (p.system.workerStep a).map fun system => { p with shared := p.shared.put system }
    else none

/-- **The runs of an initialization**: of any system, and any number of shutdowns. -/
def machine : Machine Initialization Move where
  init p := p.pc = .checkCaller ∧ ∀ thread, p.shutdowns thread = none
  step := step

variable {p} {q : Initialization} {a : Move}

/-! ## The steps that go one way or another -/

open AxonVexSystem

section goto

variable {system : AxonVexSystem} {pc : InitializePc}

@[simp] theorem goto_system : (p.goto system pc).system = system := rfl

@[simp] theorem goto_pc : (p.goto system pc).pc = pc := rfl

@[simp] theorem goto_env : (p.goto system pc).env = p.env := rfl

end goto

theorem stepAt_makeComponents : p.stepAt .makeComponents =
    some (p.goto (p.system.initializeComponents p.env.fault).1
      (if (p.system.initializeComponents p.env.fault).2 then .enter
        else .leave false (.returned false))) := rfl

theorem stepAt_enter : p.stepAt .enter =
    some (p.goto (p.system.transitionState .initializing).1
      (if (p.system.transitionState .initializing).2 then .load
        else .leave false (.returned false))) := rfl

theorem stepAt_startMonitor : p.stepAt .startMonitor =
    some (p.goto (p.system.startMonitor p.env.monitorSpawned).1
      (if (p.system.startMonitor p.env.monitorSpawned).2 then .catchCleanup else .startBus)) := rfl

theorem stepAt_startBus : p.stepAt .startBus =
    some (p.goto (p.system.startDispatch p.env.dispatchSpawned).1
      (if (p.system.startDispatch p.env.dispatchSpawned).2 then .catchCleanup else .finish)) := rfl

theorem stepAt_finish : p.stepAt .finish =
    some (p.goto (p.system.transitionState .initialized).1
      (if (p.system.transitionState .initialized).2 then .leave true (.returned true)
        else .cleanup)) := rfl

/-! ## Without interference -/

/-- A step of `initialize`. -/
def Advances (p q : Initialization) : Prop := p.initializeStep = some q

/-- Some steps of `initialize` lead to its end. -/
def Ends (p : Initialization) (system : AxonVexSystem) (res : AxonVexSystem.CallResult) : Prop :=
  ∃ q entered, Relation.ReflTransGen Advances p q ∧ q.system = system ∧ q.pc = .done entered res

theorem Ends.of_step {pc : InitializePc} {t : AxonVexSystem} {res : AxonVexSystem.CallResult}
    (hpc : p.pc = pc) (h : p.stepAt pc = some q) (hq : q.Ends t res) : p.Ends t res := by
  obtain ⟨r, entered, hr, hs, hres⟩ := hq
  exact ⟨r, entered, .head (by rw [Advances, initializeStep, hpc, h]) hr, hs, hres⟩

theorem ends_leave {entered : Bool} {res : AxonVexSystem.CallResult}
    (hpc : p.pc = .leave entered res) : p.Ends p.system res :=
  .of_step hpc rfl ⟨_, entered, .refl, rfl, rfl⟩

/-- The calls of the layout are made one by one. -/
theorem ends_layout {calls : List AxonVexSystem.LayoutCall} {t : AxonVexSystem}
    {res : AxonVexSystem.CallResult} (hpc : p.pc = .layout calls)
    (h : (p.goto (calls.foldl AxonVexSystem.layoutCall p.system) (.layout [])).Ends t res) :
    p.Ends t res := by
  induction calls generalizing p with
  | nil =>
    obtain ⟨shared, caller, env, pc, shutdowns⟩ := p
    obtain rfl : pc = .layout [] := hpc
    exact h
  | cons c calls ih => exact .of_step hpc rfl (ih rfl h)

theorem ends_cleanup (hpc : p.pc = .cleanup) : p.Ends p.system.cleanupComponents (.returned false) :=
  .of_step hpc rfl (ends_leave rfl)

theorem ends_fail (hpc : p.pc = .fail) : p.Ends p.system.failInitialize (.returned false) :=
  .of_step hpc rfl (ends_cleanup rfl)

theorem ends_catch (hpc : p.pc = .catchCleanup) :
    p.Ends p.system.catchInitialize (.returned false) :=
  .of_step hpc rfl (.of_step rfl rfl (ends_leave rfl))

theorem ends_startWorkers (hpc : p.pc = .clearLatch) :
    p.Ends (p.system.startWorkers p.env).1 (p.system.startWorkers p.env).2 := by
  refine .of_step hpc rfl (.of_step rfl stepAt_startMonitor ?_)
  rw [startWorkers, goto_system, goto_env]
  dsimp only
  split
  next hm =>
    exact ends_catch rfl
  next hm =>
    refine .of_step rfl stepAt_startBus ?_
    rw [goto_system, goto_env, goto_env]
    split
    next hd =>
      exact ends_catch rfl
    next hd =>
      refine .of_step rfl stepAt_finish ?_
      rw [goto_system]
      split
      next hv =>
        exact ends_leave rfl
      next hv =>
        exact ends_cleanup rfl

theorem ends_configureAndStart (hpc : p.pc = .load) :
    p.Ends (p.system.configureAndStart p.env).1 (p.system.configureAndStart p.env).2 := by
  unfold configureAndStart
  split
  next hc => exact .of_step hpc (if_pos hc) (ends_leave rfl)
  next hc =>
    refine .of_step hpc (if_neg hc) (ends_layout rfl (.of_step rfl rfl ?_))
    dsimp only
    cases hr : p.env.layoutResult with
    | returnsTrue => exact ends_startWorkers (by simp only [goto, hr])
    | returnsFalse => exact ends_fail (by simp only [goto, hr])
    | throwsStdException => exact ends_catch (by simp only [goto, hr])
    | throwsOther => exact @ends_leave _ true _ (by simp only [goto, hr])

/-- **Alone, the steps are `initialize`**, when no loop is left to wait for. -/
theorem initialize_alone {t : AxonVexSystem} {res : CallResult} (hpc : p.pc = .checkCaller)
    (hm : p.system.healthMonitor.worker.alive = false)
    (hb : p.system.eventBus.worker.alive = false)
    (h : p.system.initializeSystem p.caller p.env = .returned (t, res)) : p.Ends t res := by
  unfold initializeSystem at h
  split at h
  next hw =>
    obtain ⟨⟩ := h
    exact .of_step hpc (if_pos hw) (ends_leave rfl)
  next hw =>
    have hj : p.system.joinStaleWorkers = .returned { p.system with
        healthMonitor := p.system.healthMonitor.join false
        eventBus := (p.system.eventBus.join false).1 } := by
      simp [joinStaleWorkers, hm, hb]
    rw [hj, Outcome.returned_andThen] at h
    refine .of_step hpc (if_neg hw) (.of_step rfl (if_neg (by simpa using hm)) ?_)
    refine .of_step rfl (if_neg (by simpa using hb)) (.of_step rfl stepAt_makeComponents ?_)
    dsimp only at h
    split at h
    next hok =>
      obtain ⟨⟩ := h
      exact @ends_leave _ false _ (if_neg (by simpa using hok))
    next hok =>
      refine .of_step (by exact if_pos (by simpa using hok)) stepAt_enter ?_
      split at h
      next hv =>
        obtain ⟨rfl, rfl⟩ := Outcome.pair_inj h
        exact ends_configureAndStart (by exact if_pos hv)
      next hv =>
        obtain ⟨⟩ := h
        exact @ends_leave _ false _ (by exact if_neg hv)

theorem initialize_alone_new : ∃ t, Ends
    { shared := { system := .new {} 0 }, caller := .external 0, env := {} } t (.returned true) :=
  ⟨_, initialize_alone rfl rfl rfl rfl⟩

/-! ## What a step does to the state -/

/-- The step is the transition of a shutdown to `FATAL_ERROR`. -/
def isEmergency (p : Initialization) : Move → Bool
  | .shutdown thread => match p.shutdowns thread with
    | some .transition => true
    | _ => false
  | _ => false

/-- **A step**: of `initialize`, or of another thread, which leaves `initialize` where it is and
the state as it is, unless it is an emergency transition. -/
theorem step_cases (h : p.step a = some q) :
    a = .advance ∧ p.stepAt p.pc = some q ∨
      a ≠ .advance ∧ q.pc = p.pc ∧ q.env = p.env ∧
        (p.isEmergency a = true ∧ q.system.state = .fatalError ∨
          p.isEmergency a = false ∧ q.system.state = p.system.state) := by
  cases a with
  | advance => exact .inl ⟨rfl, h⟩
  | shutdown thread =>
    right
    simp only [step] at h
    split at h
    next pc hpc =>
      obtain ⟨⟨shared, pc'⟩, hs, rfl⟩ := Option.map_eq_some_iff.mp h
      refine ⟨by simp, rfl, rfl, ?_⟩
      rcases Shared.shutdownStep_state hs with ⟨hf, rfl⟩ | ⟨hf, hne⟩
      · exact .inl ⟨by simp [isEmergency, hpc], hf⟩
      · exact .inr ⟨by cases pc <;> simp_all [isEmergency], hf⟩
    next hpc =>
      split at h
      · obtain ⟨⟩ := h
        exact ⟨by simp, rfl, rfl, .inr ⟨by simp [isEmergency, hpc], rfl⟩⟩
      · cases h
  | worker step =>
    right
    simp only [Initialization.step] at h
    split at h
    · obtain ⟨system, hs, rfl⟩ := Option.map_eq_some_iff.mp h
      exact ⟨by simp, rfl, rfl, .inr ⟨rfl, workerStep_state hs⟩⟩
    · cases h

/-- The configuration file is asked for, and not loaded. -/
def LoadFails (p : Initialization) : Prop :=
  p.env.configPath ≠ "" ∧ !(p.system.configuration.isSome && p.env.configLoads)

/-- The state after an attempted transition to `ERROR`. -/
def afterError (state : SystemState) : SystemState :=
  if validTransition state .error then .error else state

/-- **The steps of `initialize`**, one constructor for each: where it stands, where it goes, and the
state it leaves. -/
inductive Advance (p : Initialization) : InitializePc → InitializePc → SystemState → Prop
  /-- up to the first transition, and on the way out without it -/
  | before {pc pc'} (h : pc.entered = false) (h' : pc'.entered = false) :
      Advance p pc pc' p.system.state
  | enter (hv : validTransition p.system.state .initializing = true) :
      Advance p .enter .load .initializing
  | loadFails (h : p.LoadFails) : Advance p .load (.leave true (.returned false)) p.system.state
  | loaded (h : ¬ p.LoadFails) : Advance p .load (.layout p.env.layout) p.system.state
  | layoutCall (call calls) : Advance p (.layout (call :: calls)) (.layout calls) p.system.state
  | layoutReturnsTrue (h : p.env.layoutResult = .returnsTrue) :
      Advance p (.layout []) .clearLatch p.system.state
  | layoutReturnsFalse (h : p.env.layoutResult = .returnsFalse) :
      Advance p (.layout []) .fail p.system.state
  | layoutThrows (h : p.env.layoutResult = .throwsStdException) :
      Advance p (.layout []) .catchCleanup p.system.state
  | layoutEscapes (h : p.env.layoutResult = .throwsOther) :
      Advance p (.layout []) (.leave true .escaped) p.system.state
  | clearLatch : Advance p .clearLatch .startMonitor p.system.state
  | monitorStarted : Advance p .startMonitor .startBus p.system.state
  | busStarted : Advance p .startBus .finish p.system.state
  | startThrows {pc} (h : pc = .startMonitor ∨ pc = .startBus) :
      Advance p pc .catchCleanup p.system.state
  | finish (hv : validTransition p.system.state .initialized = true) :
      Advance p .finish (.leave true (.returned true)) .initialized
  | finishRefused (hv : validTransition p.system.state .initialized = false) :
      Advance p .finish .cleanup p.system.state
  | fail : Advance p .fail .cleanup (afterError p.system.state)
  | cleanup : Advance p .cleanup (.leave true (.returned false)) p.system.state
  | catchCleanup : Advance p .catchCleanup .catchError p.system.state
  | catchError : Advance p .catchError (.leave true (.returned false)) (afterError p.system.state)
  | leave (res) : Advance p (.leave true res) (.done true res) p.system.state

/-- **Every step of `initialize` is one of these.** -/
theorem advance_of_stepAt {pc : InitializePc} (h : p.stepAt pc = some q) :
    q.env = p.env ∧ Advance p pc q.pc q.system.state := by
  cases pc with
  | checkCaller =>
    simp only [stepAt] at h
    split at h <;> obtain rfl := Option.some.inj h <;> exact ⟨rfl, .before rfl rfl⟩
  | joinMonitor =>
    simp only [stepAt] at h
    split at h
    · cases h
    · obtain ⟨⟩ := h
      exact ⟨rfl, .before rfl rfl⟩
  | joinBus =>
    simp only [stepAt] at h
    split at h
    · cases h
    · obtain ⟨⟩ := h
      exact ⟨rfl, .before rfl rfl⟩
  | makeComponents =>
    have hstate : (p.system.initializeComponents p.env.fault).1.state = p.system.state := by
      cases hok : (p.system.initializeComponents p.env.fault).2 with
      | true => exact (initializeComponents_of_ok hok).1
      | false => exact (initializeComponents_of_fault hok).1
    obtain rfl := Option.some.inj (stepAt_makeComponents.symm.trans h)
    refine ⟨rfl, ?_⟩
    rw [goto_system, goto_pc, hstate]
    exact .before rfl (by split <;> rfl)
  | enter =>
    obtain rfl := Option.some.inj (stepAt_enter.symm.trans h)
    refine ⟨rfl, ?_⟩
    rw [goto_system, goto_pc, transitionState_state, transitionState_snd]
    cases hv : validTransition p.system.state .initializing with
    | true => exact .enter hv
    | false => exact .before rfl rfl
  | load =>
    simp only [stepAt] at h
    split at h <;> obtain rfl := Option.some.inj h
    next hc => exact ⟨rfl, .loadFails hc⟩
    next hc => exact ⟨rfl, .loaded hc⟩
  | layout calls =>
    cases calls with
    | cons call calls =>
      obtain ⟨⟩ := h
      refine ⟨rfl, ?_⟩
      rw [goto_system, (sameControl_layoutCall call).state]
      exact .layoutCall call calls
    | nil =>
      obtain ⟨⟩ := h
      refine ⟨rfl, ?_⟩
      rw [goto_system, goto_pc]
      cases hr : p.env.layoutResult with
      | returnsTrue => exact .layoutReturnsTrue hr
      | returnsFalse => exact .layoutReturnsFalse hr
      | throwsStdException => exact .layoutThrows hr
      | throwsOther => exact .layoutEscapes hr
  | clearLatch =>
    obtain ⟨⟩ := h
    exact ⟨rfl, .clearLatch⟩
  | startMonitor =>
    obtain rfl := Option.some.inj (stepAt_startMonitor.symm.trans h)
    refine ⟨rfl, ?_⟩
    have hstate : (p.system.startMonitor p.env.monitorSpawned).1.state = p.system.state := by
      obtain ⟨monitor, hm⟩ := startMonitor_frame (s := p.system) p.env.monitorSpawned
      rw [hm]
      rfl
    rw [goto_system, goto_pc, hstate]
    split
    · exact .startThrows (.inl rfl)
    · exact .monitorStarted
  | startBus =>
    obtain rfl := Option.some.inj (stepAt_startBus.symm.trans h)
    refine ⟨rfl, ?_⟩
    rw [goto_system, goto_pc]
    split
    · exact .startThrows (.inr rfl)
    · exact .busStarted
  | finish =>
    obtain rfl := Option.some.inj (stepAt_finish.symm.trans h)
    refine ⟨rfl, ?_⟩
    rw [goto_system, goto_pc, transitionState_state, transitionState_snd]
    cases hv : validTransition p.system.state .initialized with
    | true => exact .finish hv
    | false => exact .finishRefused hv
  | fail =>
    obtain ⟨⟩ := h
    refine ⟨rfl, ?_⟩
    rw [goto_system, transitionState_state]
    exact .fail
  | cleanup =>
    obtain ⟨⟩ := h
    exact ⟨rfl, .cleanup⟩
  | catchCleanup =>
    obtain ⟨⟩ := h
    exact ⟨rfl, .catchCleanup⟩
  | catchError =>
    obtain ⟨⟩ := h
    refine ⟨rfl, ?_⟩
    rw [goto_system, transitionState_state]
    exact .catchError
  | leave entered res =>
    obtain ⟨⟩ := h
    refine ⟨rfl, ?_⟩
    cases entered with
    | true => exact .leave res
    | false => exact .before rfl rfl
  | done entered res => exact absurd h (by simp [stepAt])

variable {pc pc' : InitializePc} {state : SystemState}

/-- None of its transitions leaves `FATAL_ERROR`. -/
theorem Advance.fatalError (h : Advance p pc pc' state) (hp : p.system.state = .fatalError) :
    state = .fatalError := by
  cases h with
  | enter hv => exact absurd (hp ▸ hv) (by decide)
  | finish hv => exact absurd (hp ▸ hv) (by decide)
  | fail => rw [hp]; rfl
  | catchError => rw [hp]; rfl
  | _ => exact hp

/-- What the environment contributes is fixed by the call. -/
theorem step_env (h : p.step a = some q) : q.env = p.env := by
  rcases step_cases h with ⟨-, hs⟩ | ⟨-, -, he, -⟩
  · exact (advance_of_stepAt hs).1
  · exact he

end Initialization

end AxonVex
