import AxonVex.Lifecycle.Moves
import AxonVex.Machinery.Machine

/-!
# Lifecycle/Shutdown — what runs between an emergency shutdown and the next start

An emergency shutdown destroys the units and leaves the timing controller with its tasks.  Until the
system has been initialized and started again, nothing may run them.  The lifecycle table sees to
that for every operation but one: **recovery** stops and starts the timing controller without asking
the table, and in `FATAL_ERROR` every health check calls for it (`HealthMonitor.check_of_error`).

* `atRest_until_restart` — where no health check restarts the timing controller, no task body calls
  for the shutdown itself, and `start()` is not accepted over a timing controller that a failed or
  refused `initialize()` left, there is no scheduler loop until the system is started again.
* `recovery_runs_freed_unit` — one health check after a shutdown: the loop runs the body of a unit
  that is gone.
-/

namespace AxonVex

open Machinery

/-- How far a system is from running again. -/
inductive Window
  /-- there was no shutdown, or the system has been started again since -/
  | closed
  /-- shut down, and not initialized since -/
  | shutDown
  /-- initialized since the shutdown, and not started since -/
  | reinitialized
  deriving DecidableEq, Repr

namespace SystemRun

/-- What an action does to the window. -/
def window (r : SystemRun) (a : Action) (_ : SystemRun) (w : Window) : Window :=
  if r.clearsUnits a then .shutDown
  else match a, r.returned a, w with
    | .call _ (.initializeSystem _), some (.returned true), .shutDown => .reinitialized
    | .call _ (.start _), some (.returned true), .reinitialized => .closed
    | _, _, w => w

/-- The runs of a system, with the window. -/
def windowMachine : Machine (SystemRun × Window) Action := machine.withHistory .closed window

/-- **The condition**: what no step may do. -/
structure LeavesShutDown (p : SystemRun × Window) (a : Action) : Prop where
  /-- a task body does not shut the system down -/
  notFromTask : a ≠ .call .scheduler .emergencyShutdown
  /-- while the window is open, no health check restarts the timing controller -/
  noRecovery : p.2 ≠ .closed → p.1.system.recoversOn a = none
  /-- between the shutdown and an initialization, `start()` is not accepted over a timing
  controller -/
  noStart : p.2 = .shutDown → ∀ caller env, a = .call caller (.start env) →
    validTransition p.1.system.state .starting = true → p.1.system.timingController = none

variable {r t : SystemRun} {p q : SystemRun × Window} {a : Action} {w : Window}

theorem clearsUnits_of_isQuiet (h : a.isQuiet = true) : r.clearsUnits a = false := by
  cases a with
  | call caller c => cases c <;> first | rfl | exact absurd h Bool.false_ne_true
  | _ => rfl

/-- A shutdown is never refused. -/
theorem clearsUnits_of_returned_false {caller : Thread} {c : Call}
    (h : r.returned (.call caller c) = some (.returned false)) :
    r.clearsUnits (.call caller c) = false := by
  cases c with
  | emergencyShutdown =>
    simp [returned, callResult, AxonVexSystem.invoke, Outcome.toOption] at h
  | reset => simp [returned, callResult, AxonVexSystem.invoke, Outcome.toOption] at h
  | _ => rfl

/-- Recovery is the matter of a health check. -/
theorem clearsUnits_of_recoversOn {s : AxonVexSystem} {thread : Thread}
    (h : s.recoversOn a = some thread) : r.clearsUnits a = false := by
  cases a with
  | call caller c => cases c <;> first | rfl | exact absurd h.symm (Option.some_ne_none _)
  | _ => rfl

/-- Only a shutdown opens the window. -/
theorem ne_closed_of_window (ha : r.clearsUnits a = false) (h : window r a t w ≠ .closed) :
    w ≠ .closed := by
  rintro rfl
  refine h ?_
  simp only [window, ha, Bool.false_eq_true, if_false]
  split <;> simp_all

/-- A successful start closes a window that an initialization has moved on. -/
theorem eq_shutDown_of_window_start {caller : Thread} {env : AxonVexSystem.StartEnv}
    (hres : r.returned (.call caller (.start env)) = some (.returned true))
    (h : window r (.call caller (.start env)) t w ≠ .closed) : w = .shutDown := by
  cases w <;> simp_all [window, clearsUnits]

/-- The window is open only while there is no loop. -/
def QuietWindow (p : SystemRun × Window) : Prop := p.2 ≠ .closed → p.1.system.NoLoop

open AxonVexSystem RealTimeScheduler in
/-- **One step**, by the moves. -/
theorem QuietWindow.step (hI : QuietWindow p) (hG : LeavesShutDown p a)
    (h : windowMachine.step p a = some q) : QuietWindow q := by
  obtain ⟨hstep, hq⟩ := Machine.withHistory_step.mp h
  intro hw
  rw [← hq] at hw
  have hmove := controlMove_of_step hstep
  generalize hres : p.1.returned a = res at hmove
  generalize q.1.system = t at hmove ⊢
  -- outside a shutdown the window was open before, so there was no loop
  have hopen (ha : p.1.clearsUnits a = false) : p.2 ≠ .closed := ne_closed_of_window ha hw
  cases hmove with
  | quiet ha h => exact h.noLoop (hI (hopen (clearsUnits_of_isQuiet ha)))
  | @refused caller c => exact hI (hopen (clearsUnits_of_returned_false hres))
  | resetRefused hr => exact hI (hopen (by simp [clearsUnits, hr]))
  | recovered ha hc hp hs ht =>
    have hw' := hopen (clearsUnits_of_recoversOn ha)
    exact absurd (ha.symm.trans (hG.noRecovery hw')) (by simp)
  | loop hc hm hp hs ht =>
    exact absurd hm.alive (by simp [(hI (hopen rfl)).loopAlive hc])
  | dispatch hb => exact hI (hopen rfl)
  | startedNothing hv hc hs ht => exact noLoop_of_none ht
  | @started caller env ok t c c' hv hc hok hs ht hl =>
    cases ok with
    | true =>
      have := hG.noStart (eq_shutDown_of_window_start hres hw) caller env rfl hv
      exact absurd (hc.symm.trans this) (Option.some_ne_none _)
    | false =>
      refine noLoop_of_some ht ?_
      rw [loopAlive, hl.worker]
      exact start_threw (by simpa using hok.symm)
  | paused hv hs ht => exact (hI (hopen rfl)).map ht fun _ => rfl
  | resumed hv hs ht => exact (hI (hopen rfl)).map ht fun _ => rfl
  | stopped hv hs ht => exact noLoop_of_none ht
  | @emergencyShutdown caller t hs ht =>
    have hcaller : (caller == Thread.scheduler) = false :=
      beq_eq_false_iff_ne.mpr fun hc => hG.notFromTask (hc ▸ rfl)
    cases hc : p.1.system.timingController with
    | none => exact noLoop_of_none (by rw [ht, hc]; rfl)
    | some c =>
      refine noLoop_of_some (by rw [ht, hc]; rfl) ?_
      simp [hcaller, TimingController.stop, loopAlive]
  | reset hw hs ht => exact noLoop_of_none ht
  | componentsFailed hj hs ht => exact (hI (hopen rfl)).map (ht.trans Option.map_id'.symm) fun _ => rfl
  | componentsReplaced hj hs ht => exact ht
  | initializeAborted hr hs ht => exact ht
  | initialized hs ht hr hd => exact ht

/-- **Nothing runs**: there is no scheduler loop, no step of one, and no code of a unit that is
gone. -/
structure AtRest (r : SystemRun) : Prop where
  noLoop : r.system.NoLoop
  noStep : ∀ st, r.step (.schedulerStep st) = none
  noFreedUnit : ∀ s ∈ r.system.scheduler?, ∀ unit, s.executingUnit? = some unit →
    r.system.unitRegistry.Owns unit

open RealTimeScheduler in
/-- Without a loop nothing runs. -/
theorem atRest_of_noLoop (h : r.system.NoLoop) : r.AtRest where
  noLoop := h
  noStep st := by
    cases hs : r.step (.schedulerStep st) with
    | none => rfl
    | some t =>
      obtain ⟨u, hu, -⟩ := Option.map_eq_some_iff.mp hs
      obtain ⟨c, hc, hu⟩ := Option.bind_eq_some_iff.mp hu
      obtain ⟨s, hm, -⟩ := Option.map_eq_some_iff.mp hu
      exact absurd (loopMove_of_loopStep hm).alive (by simp [h.loopAlive hc])
  noFreedUnit s hs unit hunit := by
    have hs := h s hs
    rw [loopAlive, WorkerThread.not_alive_iff] at hs
    rcases hs with hs | hs <;> simp [executingUnit?, hs] at hunit

/-- **Between a shutdown and the next start nothing runs**, in every run whose steps leave the
system shut down. -/
theorem atRest_until_restart (h : windowMachine.ReachableUnder LeavesShutDown p)
    (hw : p.2 ≠ .closed) : p.1.AtRest := by
  have hI : windowMachine.Inductive LeavesShutDown QuietWindow :=
    ⟨fun p hp hw => absurd hp.2 hw, fun _ _ _ hI hG h => hI.step hG h⟩
  exact atRest_of_noLoop (h.invariant hI hw)

/-- While the window is closed only the shutdown itself is restricted. -/
theorem LeavesShutDown.of_closed (hp : p.2 = .closed)
    (ha : a ≠ .call .scheduler .emergencyShutdown) : LeavesShutDown p a where
  notFromTask := ha
  noRecovery hw := absurd hp hw
  noStart hw := absurd (hw.symm.trans hp) (by decide)

/-- A run without shutdowns, and then a shutdown from outside. -/
theorem allowed_of_closed {as : List Action} (has : ∀ a ∈ as, ∀ r, clearsUnits r a = false)
    (hp : p.2 = .closed) (n : ℕ) :
    windowMachine.Allowed LeavesShutDown p (as ++ [.call (.external n) .emergencyShutdown]) := by
  induction as generalizing p with
  | nil => exact fun _ _ => ⟨.of_closed hp (by simp), trivial⟩
  | cons a as ih =>
    intro q hq
    have ha := has a List.mem_cons_self
    refine ⟨.of_closed hp ?_, ih (fun b hb => has b (List.mem_cons_of_mem a hb)) ?_⟩
    · rintro rfl
      exact absurd (ha p.1) (by simp [clearsUnits])
    · by_contra hw
      rw [← (Machine.withHistory_step.mp hq).2] at hw
      exact ne_closed_of_window (ha p.1) hw hp

/-- A unit and a start. -/
def cameraStarted : List Action :=
  [.call (.external 0) (.initializeSystem {}),
    .call (.external 0) (.registerProcessingUnit (.new 0 "camera") {} 0),
    .call (.external 0) (.start {})]

/-- The system as constructed begins a run with the window closed. -/
theorem init_window : windowMachine.init (fresh {} 0, .closed) := ⟨⟨{}, 0, by decide, rfl⟩, rfl⟩

set_option maxRecDepth 4000 in
/-- A shutdown of a running system leaves it at rest. -/
theorem atRest_after_cameraStarted : ∃ p, windowMachine.ReachableUnder LeavesShutDown p ∧
    p.1.system.state = .fatalError ∧ p.1.AtRest := by
  have hrun : (windowMachine.exec (fresh {} 0, .closed)
      (cameraStarted ++ [.call (.external 0) .emergencyShutdown])).any
        (fun p => p.2 == .shutDown && p.1.system.state == .fatalError) = true := by decide
  obtain ⟨p, hp, hw⟩ := (Option.any_eq_true _ _).mp hrun
  rw [Bool.and_eq_true, beq_iff_eq, beq_iff_eq] at hw
  have hreach : windowMachine.ReachableUnder LeavesShutDown p :=
    .exec (.init init_window) (allowed_of_closed (by simp [cameraStarted, clearsUnits]) rfl 0) hp
  exact ⟨p, hreach, hw.2, atRest_until_restart hreach (by simp [hw.1])⟩

/-- A health check after the shutdown, and the loop it starts up to the body of a task. -/
def recoverAndRun : List Action :=
  [.call (.external 0) (.performHealthCheck [] true),
    .schedulerStep .advance, .schedulerStep .advance, .schedulerStep (.select 100 [1]),
    .schedulerStep .advance, .schedulerStep .advance]

set_option maxRecDepth 4000 in
/-- **A health check after a shutdown runs a unit that is gone.** -/
theorem recovery_runs_freed_unit :
    ¬ ∀ p, windowMachine.Reachable p → p.2 ≠ .closed → p.1.AtRest := by
  intro h
  have hrun : (windowMachine.exec (fresh {} 0, .closed)
      (cameraStarted ++ .call (.external 0) .emergencyShutdown :: recoverAndRun)).any
        (fun p => p.2 == .shutDown && p.1.system.unitRegistry.all.isEmpty &&
          p.1.system.scheduler?.any (·.executingUnit? == some 0)) = true := by decide +kernel
  obtain ⟨p, hp, hw⟩ := (Option.any_eq_true _ _).mp hrun
  simp only [Bool.and_eq_true, beq_iff_eq, List.isEmpty_iff, Option.any_eq_true] at hw
  obtain ⟨⟨hwindow, hunits⟩, s, hs, hunit⟩ := hw
  have hrest := h p (Machine.Reachable.exec (.init init_window) (Option.mem_def.mp hp))
    (by simp [hwindow])
  obtain ⟨u, hu, -⟩ := UnitRegistry.owns_iff_mem_all.mp
    (hrest.noFreedUnit s hs 0 (by simpa using hunit))
  exact absurd (hunits ▸ hu) List.not_mem_nil

end SystemRun

end AxonVex
