import AxonVex.Lifecycle.Moves
import AxonVex.Machinery.Machine

/-!
# Lifecycle/Components — the components a start finds

The lifecycle table says when `start()` is accepted: from `INITIALIZED`, from `STOPPED` and from
`ERROR`.  The components are made by `initialize` and destroyed by `stop`, `reset` and by an
initialization that fails, all of which leave other states behind them.  Only in `INITIALIZED` do
the two agree: while the system stays there its dispatch loop runs, and that blocks any further
`initialize` before it touches a component (`not_dispatching_of_joinStaleWorkers`).

* `start_sound` — in any run, a `start()` accepted neither from `STOPPED` nor from `ERROR`, and not
  over a `running_` flag whose loop is gone, finds every component, and if it returns true the loop
  runs and a successful initialization was the last to change the components.
* `start_after_stop_undefined` — a `stop()` and a `start()` with a unit registered: the timing
  controller is null.
-/

namespace AxonVex

open Machinery

/-- The calls that may change components, as they change them. -/
inductive ComponentChange
  | initialized
  | initializeFailed
  | stopped
  | reset
  deriving DecidableEq, Repr

namespace AxonVexSystem

variable (s : AxonVexSystem)

/-- The identities of the components. -/
def components : Option ℕ × Option ℕ × Option ℕ :=
  (s.timingController.map (·.objectId), s.logger.map (·.objectId), s.configuration.map (·.objectId))

/-- The components are there, the scheduler idles, and the dispatch loop runs. -/
structure Prepared : Prop where
  ready : s.Ready
  dispatching : s.Dispatching
  idle : ∀ r ∈ s.scheduler?, r.Idle

variable {s} {t : AxonVexSystem}

theorem SameControl.prepared (h : SameControl s t) (hs : s.state = .initialized)
    (hp : s.Prepared) : t.Prepared where
  ready := h.ready (by rw [hs]; decide) hp.ready
  dispatching :=
    ⟨h.isShuttingDown.trans hp.dispatching.latch, h.bus_running.trans hp.dispatching.running,
      by rw [h.bus_worker, hp.dispatching.alive]⟩
  idle r hr := by
    refine ⟨h.noTask (by rw [hs]; decide) hp.ready.noTask r hr, ?_⟩
    obtain ⟨c, hc⟩ := Option.isSome_iff_exists.mp hp.ready.timingController
    obtain ⟨c', hc', hl⟩ := exists_sameLoop hc h.loop
    obtain rfl : c'.scheduler = r := by simpa [scheduler?, hc'] using hr
    rw [hl.worker]
    exact (hp.idle _ (by simp [scheduler?, hc])).notExecuting

/-- Another scheduler that idles changes nothing of it. -/
theorem Prepared.of_timingController {c : TimingController} (hp : s.Prepared) (h : SameParts s t)
    (ht : t.timingController = some c) (hc : c.scheduler.Idle) : t.Prepared where
  ready :=
    { timingController := by rw [ht, Option.isSome_some]
      logger := by rw [h.logger, hp.ready.logger]
      configuration := by rw [h.configuration, hp.ready.configuration]
      noTask := by simp [HasNoTask, scheduler?, ht, hc.noTask] }
  dispatching :=
    ⟨h.isShuttingDown.trans hp.dispatching.latch, h.bus_running.trans hp.dispatching.running,
      by rw [h.bus_worker, hp.dispatching.alive]⟩
  idle := by simpa [scheduler?, ht] using hc

/-- **While the system is initialized its dispatch loop does not end.** -/
theorem Prepared.of_dispatch {step : EventBus.Step} {bus : EventBus} (hp : s.Prepared)
    (hs : s.state = .initialized)
    (hb : s.eventBus.loopStep s.lifecycle.shutdownRequested step = some bus) :
    Prepared { s with eventBus := bus } := by
  have hreq : s.lifecycle.shutdownRequested = false := by
    rw [LifecycleController.shutdownRequested, hp.dispatching.latch,
      show s.lifecycle.currentState = .initialized from hs]
    decide
  have hcond : s.eventBus.loopCondition s.lifecycle.shutdownRequested = true := by
    simp [EventBus.loopCondition, hp.dispatching.running, hreq]
  obtain ⟨hrun, halive⟩ := EventBus.loopStep_of_loopCondition hcond hb
  exact ⟨⟨hp.ready.timingController, hp.ready.logger, hp.ready.configuration, hp.ready.noTask⟩,
    ⟨hp.dispatching.latch, hrun.trans hp.dispatching.running, halive⟩, hp.idle⟩

/-- A system whose components are new has an idle scheduler. -/
theorem idle_of_ready (hr : s.Ready) (hn : s.NoLoop) : ∀ r ∈ s.scheduler?, r.Idle := by
  intro r h
  refine ⟨hr.noTask r h, ?_⟩
  rcases (WorkerThread.not_alive_iff _).mp (hn r h) with hw | hw <;> rw [hw] <;> rfl

end AxonVexSystem

namespace SystemRun

/-- The last change of the components.  A successful initialization makes all of them; any other
call counts if it left other components behind. -/
def lastChange (r : SystemRun) (a : Action) (t : SystemRun) (last : Option ComponentChange) :
    Option ComponentChange :=
  match a, r.returned a with
  | .call _ (.initializeSystem _), some (.returned true) => some .initialized
  | .call _ (.initializeSystem _), _ =>
    if t.system.components = r.system.components then last else some .initializeFailed
  | .call _ .stop, _ => if t.system.components = r.system.components then last else some .stopped
  | .call _ .reset, _ => if t.system.components = r.system.components then last else some .reset
  | _, _ => last

/-- The runs of a system, with the last change of its components. -/
def componentMachine : Machine (SystemRun × Option ComponentChange) Action :=
  machine.withHistory none lastChange

variable {p q : SystemRun × Option ComponentChange} {a : Action}

/-- In `INITIALIZED` the system is prepared, by an initialization that succeeded. -/
def PreparedWhenInitialized (p : SystemRun × Option ComponentChange) : Prop :=
  p.1.system.state = .initialized → p.1.system.Prepared ∧ p.2 = some .initialized

/-- A call that leaves the components leaves their last change, unless it initialized them. -/
theorem lastChange_of_components {r t : SystemRun} {last : Option ComponentChange}
    (h : t.system.components = r.system.components)
    (ha : ∀ caller env, a = .call caller (.initializeSystem env) →
      r.returned a ≠ some (.returned true)) : lastChange r a t last = last := by
  unfold lastChange
  split
  next hres => exact absurd hres (ha _ _ rfl)
  all_goals simp [h]

theorem lastChange_of_isQuiet {r t : SystemRun} {last : Option ComponentChange}
    (h : a.isQuiet = true) : lastChange r a t last = last := by
  cases a with
  | call caller c => cases c <;> first | rfl | exact absurd h Bool.false_ne_true
  | _ => rfl

theorem isQuiet_of_recoversOn {s : AxonVexSystem} {thread : Thread}
    (h : s.recoversOn a = some thread) : a.isQuiet = true := by
  cases a with
  | call caller c => cases c <;> first | rfl | exact absurd h.symm (Option.some_ne_none _)
  | finishCheck callbacks spawned => rfl
  | _ => exact absurd h.symm (Option.some_ne_none _)

open AxonVexSystem RealTimeScheduler in
/-- **One step**, by the moves: `INITIALIZED` is entered by `initialize` alone. -/
theorem PreparedWhenInitialized.step (hI : PreparedWhenInitialized p)
    (h : componentMachine.step p a = some q) : PreparedWhenInitialized q := by
  obtain ⟨hstep, hq⟩ := Machine.withHistory_step.mp h
  intro hstate
  rw [← hq]
  have hmove := controlMove_of_step hstep
  generalize hres : p.1.returned a = res at hmove
  generalize ht : q.1.system = t at hmove hstate ⊢
  cases hmove with
  | quiet ha h =>
    obtain ⟨hp, hlast⟩ := hI (h.state.symm.trans hstate)
    exact ⟨h.prepared (h.state.symm.trans hstate) hp, (lastChange_of_isQuiet ha).trans hlast⟩
  | refused =>
    obtain ⟨hp, hlast⟩ := hI hstate
    exact ⟨hp, (lastChange_of_components (by rw [ht]) (by simp [hres])).trans hlast⟩
  | resetRefused hw =>
    obtain ⟨hp, hlast⟩ := hI hstate
    exact ⟨hp, (lastChange_of_components (by rw [ht]) (by simp)).trans hlast⟩
  | recovered ha hc hp hs htc =>
    obtain ⟨hprep, hlast⟩ := hI (hs.symm.trans hstate)
    exact ⟨hprep.of_timingController hp htc ((hprep.idle _ (by simp [scheduler?, hc])).restart _ _),
      (lastChange_of_isQuiet (isQuiet_of_recoversOn ha)).trans hlast⟩
  | loop hc hm hp hs htc =>
    obtain ⟨hprep, hlast⟩ := hI (hs.symm.trans hstate)
    exact ⟨hprep.of_timingController hp htc ((hprep.idle _ (by simp [scheduler?, hc])).of_loopMove hm),
      hlast⟩
  | dispatch hb =>
    obtain ⟨hp, hlast⟩ := hI hstate
    exact ⟨hp.of_dispatch hstate hb, hlast⟩
  | startedNothing hv hc hs _ => exact absurd (hstate.symm.trans hs) (by decide)
  | @started caller env ok t c c' hv hc hok hs _ hl =>
    cases ok <;> exact absurd (hstate.symm.trans hs) (by decide)
  | paused hv hs _ => exact absurd (hstate.symm.trans hs) (by decide)
  | resumed hv hs _ => exact absurd (hstate.symm.trans hs) (by decide)
  | stopped hv hs _ => exact absurd (hstate.symm.trans hs) (by decide)
  | emergencyShutdown hs _ => exact absurd (hstate.symm.trans hs) (by decide)
  | reset hw hs _ => exact absurd (hstate.symm.trans hs) (by decide)
  | componentsFailed hj hs _ =>
    have hs := hs.symm.trans hstate
    exact absurd (hI hs).1.dispatching
      (not_dispatching_of_joinStaleWorkers hj (by rw [hs]; decide))
  | componentsReplaced hj hs _ =>
    have hs := hs.symm.trans hstate
    exact absurd (hI hs).1.dispatching
      (not_dispatching_of_joinStaleWorkers hj (by rw [hs]; decide))
  | initializeAborted _ hs _ =>
    rcases hs with hs | hs <;> exact absurd (hstate.symm.trans hs) (by decide)
  | initialized hs hn hr hd => exact ⟨⟨hr, hd, idle_of_ready hr hn⟩, by simp [lastChange, hres]⟩

/-- In every run the system is prepared when it is initialized. -/
theorem preparedWhenInitialized (h : componentMachine.Reachable p) : PreparedWhenInitialized p := by
  have hI : componentMachine.Inductive (fun _ _ => True) PreparedWhenInitialized := by
    refine ⟨?_, fun _ _ _ hI _ h => hI.step h⟩
    rintro p ⟨⟨config, objectSize, -, hp⟩, -⟩ hstate
    rw [hp] at hstate
    exact absurd hstate (by simp [fresh, AxonVexSystem.new, AxonVexSystem.state])
  exact h.invariant hI

/-! ## What a start finds -/

/-- **The condition**: a `start()` that the table accepts is called neither in `STOPPED` nor in
`ERROR`, and `running_` is set only if the loop is there. -/
structure StartsClean (s : AxonVexSystem) : Prop where
  notStopped : s.state ≠ .stopped
  notError : s.state ≠ .error
  notStale : ∀ r ∈ s.scheduler?, r.running = true → r.loopAlive = true

/-- **A sound start**: it finds the components it starts, calls nothing through a null pointer, and
if it returns true, the scheduler runs and the components are those of a successful
initialization. -/
structure StartSound (p : SystemRun × Option ComponentChange) (caller : Thread)
    (env : AxonVexSystem.StartEnv) : Prop where
  components : validTransition p.1.system.state .starting = true →
    p.1.system.timingController.isSome = true ∧ p.1.system.logger.isSome = true ∧
      p.1.system.configuration.isSome = true
  defined : p.1.system.start caller env ≠ .undefinedBehaviour
  started : ∀ t, p.1.system.start caller env = .returned (t, true) →
    (∃ r ∈ t.scheduler?, r.loopActive = true) ∧ p.2 = some .initialized

/-- The table accepts a start from three states. -/
theorem eq_initialized_of_starting {s : AxonVexSystem}
    (hv : validTransition s.state .starting = true) (hc : StartsClean s) :
    s.state = .initialized := by
  have hstopped := hc.notStopped
  have herror := hc.notError
  generalize s.state = state at hv hstopped herror
  cases state <;> simp_all [validTransition]

open AxonVexSystem in
/-- A prepared system has no task body to call from. -/
theorem ne_scheduler_of_isPresent {s : AxonVexSystem} {caller : Thread} (hs : s.Prepared)
    (hp : s.isPresent caller = true) : (caller == Thread.scheduler) = false := by
  rw [beq_eq_false_iff_ne]
  rintro rfl
  obtain ⟨r, hr, hpc⟩ := (Option.any_eq_true _ _).mp hp
  obtain ⟨pc, hpc, hx⟩ := (Option.any_eq_true _ _).mp hpc
  have := (hs.idle r hr).notExecuting
  simp_all

open AxonVexSystem RealTimeScheduler in
/-- **Every start that the table accepts is sound**, in any run, if it starts clean. -/
theorem start_sound (h : componentMachine.Reachable p) {caller : Thread} {env : StartEnv}
    (hp : p.1.system.isPresent caller = true)
    (hc : validTransition p.1.system.state .starting = true → StartsClean p.1.system) :
    StartSound p caller env := by
  cases hv : validTransition p.1.system.state .starting with
  | false =>
    have hrefused : p.1.system.start caller env = .returned (p.1.system, false) := by
      rw [AxonVexSystem.start, transitionState_of_not_valid hv]
      rfl
    exact ⟨fun ht => absurd (hv.symm.trans ht) (by simp), by simp [hrefused], by simp [hrefused]⟩
  | true =>
    obtain ⟨hprep, hlast⟩ := preparedWhenInitialized h (eq_initialized_of_starting hv (hc hv))
    refine ⟨fun _ => ⟨hprep.ready.timingController, hprep.ready.logger, hprep.ready.configuration⟩,
      start_ne_undefinedBehaviour hprep.ready.timingController, fun t ht => ⟨?_, hlast⟩⟩
    have hcaller := ne_scheduler_of_isPresent hprep hp
    have hmove := move_start ht
    generalize hok : true = ok at hmove
    cases hmove with
    | quiet ha _ => exact absurd ha Bool.false_ne_true
    | refused => exact absurd hok.symm Bool.false_ne_true
    | recovered ha _ _ _ _ => exact absurd ha.symm (Option.some_ne_none _)
    | startedNothing _ hnone _ _ =>
      exact absurd hprep.ready.timingController (by simp [hnone])
    | @started _ _ _ _ c c' _ hcc hthrow _ htc hl =>
      subst hok
      rw [hcaller] at hthrow hl
      refine ⟨c'.scheduler, by simp [scheduler?, htc], ?_⟩
      rw [loopActive, hl.worker, hl.running]
      exact loopActive_start ((hc hv).notStale c.scheduler (by simp [scheduler?, hcc]))
        (by simpa using hthrow)

/-- The system as constructed begins a run without a change of its components. -/
theorem init_components : componentMachine.init (fresh {} 0, none) := ⟨⟨{}, 0, by decide, rfl⟩, rfl⟩

set_option maxRecDepth 4000 in
/-- A start after an initialization is sound. -/
theorem start_sound_initialized : ∃ p, componentMachine.Reachable p ∧
    validTransition p.1.system.state .starting = true ∧ StartSound p (.external 0) {} := by
  have hrun : (componentMachine.exec (fresh {} 0, none)
      [.call (.external 0) (.initializeSystem {})]).any (fun p =>
        p.1.system.state == .initialized && p.1.system.scheduler?.all (!·.running)) = true := by
    decide
  obtain ⟨p, hp, hs⟩ := (Option.any_eq_true _ _).mp hrun
  rw [Bool.and_eq_true, beq_iff_eq, Option.all_eq_true] at hs
  have hreach : componentMachine.Reachable p := .exec (.init init_components) (Option.mem_def.mp hp)
  refine ⟨p, hreach, by rw [hs.1]; rfl, start_sound hreach rfl fun _ => ⟨?_, ?_, fun r hr h => ?_⟩⟩
  · rw [hs.1]; decide
  · rw [hs.1]; decide
  · exact absurd (hs.2 r hr) (by simp [h])

/-- A unit, a start and a stop. -/
def cameraStopped : List Action :=
  [.call (.external 0) (.initializeSystem {}),
    .call (.external 0) (.registerProcessingUnit (.new 0 "camera") {} 0),
    .call (.external 0) (.start {}),
    .call (.external 0) .stop]

set_option maxRecDepth 4000 in
/-- **A start after a stop goes through a null timing controller.** -/
theorem start_after_stop_undefined : ¬ ∀ p caller env, componentMachine.Reachable p →
    p.1.system.isPresent caller = true → StartSound p caller env := by
  intro h
  have hrun : (componentMachine.exec (fresh {} 0, none) cameraStopped).any (fun p =>
      match p.1.system.start (.external 0) {} with
      | .undefinedBehaviour => true
      | _ => false) = true := by decide
  obtain ⟨p, hp, hs⟩ := (Option.any_eq_true _ _).mp hrun
  refine (h p (.external 0) {} (.exec (.init init_components) (Option.mem_def.mp hp)) rfl).defined ?_
  split at hs
  · assumption
  · exact absurd hs Bool.false_ne_true

end SystemRun

end AxonVex
