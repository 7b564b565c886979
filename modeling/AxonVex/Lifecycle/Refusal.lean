import AxonVex.Lifecycle.Moves

/-!
# Lifecycle/Refusal — what a refused call leaves behind

`start`, `pause`, `resume` and `stop` ask the table before they touch anything, so a refused call
leaves the system as it was.  `initialize` asks last: it joins the
worker threads and replaces the components first.

* `initializeSystem_refused_iff` — a refused `initialize` leaves the system as it was exactly when
  it is called on a worker thread, or when there is no handle to join and the logger's constructor
  throws.
* `refused_initialize_blocks` — the second `initialize` of two: the join waits for a dispatch loop
  that nothing ends.
-/

namespace AxonVex

open Machinery

namespace AxonVexSystem

variable {s t u : AxonVexSystem} {caller : Thread}

/-! ## Operations that ask the table first -/

/-! ## `initialize` -/

/-- The parts `initializeComponents` does not reach. -/
theorem initializeComponents_frame (fault : Option ComponentFault) :
    (s.initializeComponents fault).1.state = s.state ∧
      (s.initializeComponents fault).1.healthMonitor = s.healthMonitor ∧
      (s.initializeComponents fault).1.eventBus.worker = s.eventBus.worker := by
  unfold initializeComponents newConfiguration
  dsimp only
  split_ifs <;> exact ⟨rfl, rfl, rfl⟩

/-- **Past the logger's constructor there is a new object**, whatever throws after it. -/
theorem lt_nextObject_initializeComponents {fault : Option ComponentFault}
    (h : fault ≠ some .logger) :
    s.nextObject < (s.initializeComponents fault).1.nextObject := by
  unfold initializeComponents newConfiguration
  dsimp only
  rw [if_neg h]
  split_ifs <;>
    simp only [newLogger, startLogger, newEventPool, newEventQueue, newTimingController] <;> omega

/-- The joins leave no handle, and no other trace. -/
theorem joinStaleWorkers_eq (h : s.joinStaleWorkers = .returned u) :
    u.healthMonitor.worker = .empty ∧ u.eventBus.worker = .empty ∧ u.state = s.state ∧
      u.nextObject = s.nextObject := by
  unfold joinStaleWorkers at h
  split at h
  · cases h
  · dsimp only at h
    split at h
    · cases h
    · obtain rfl := Outcome.returned.inj h
      exact ⟨rfl, rfl, rfl, rfl⟩

/-- Without handles there is nothing to join. -/
theorem joinStaleWorkers_of_empty (hm : s.healthMonitor.worker = .empty)
    (hb : s.eventBus.worker = .empty) : s.joinStaleWorkers = .returned s := by
  unfold joinStaleWorkers
  dsimp only
  rw [EventBus.join_of_empty hb, HealthMonitor.join_of_empty hm]
  simp [hm, hb]

/-- Away from the workers, a call that the table refuses ends where the components leave it. -/
theorem eq_initializeComponents_of_refused {env : InitializeEnv} {res : CallResult}
    (hv : validTransition s.state .initializing = false)
    (hw : s.isOnWorkerThread caller = false)
    (h : s.initializeSystem caller env = .returned (t, res)) :
    ∃ u, s.joinStaleWorkers = .returned u ∧ t = (u.initializeComponents env.fault).1 := by
  rw [initializeSystem, if_neg (by simp [hw])] at h
  obtain ⟨u, hu, h⟩ := Outcome.andThen_eq_returned.mp h
  have hstate := (initializeComponents_frame (s := u) env.fault).1.trans
    (joinStaleWorkers_eq hu).2.2.1
  have hrefused := @transitionState_of_not_valid (u.initializeComponents env.fault).1
    .initializing (by rw [hstate, hv])
  refine ⟨u, hu, ?_⟩
  dsimp only at h
  rw [hrefused] at h
  split at h <;> exact ((Outcome.pair_inj h).1).symm

/-- **A refused `initialize` leaves the system as it was** exactly when it is called on a worker
thread, or when there is no worker handle to join and the logger's constructor throws. -/
theorem initializeSystem_refused_iff {env : InitializeEnv}
    (hv : validTransition s.state .initializing = false) :
    s.initializeSystem caller env = .returned (s, .returned false) ↔
      s.isOnWorkerThread caller = true ∨
        s.healthMonitor.worker = .empty ∧ s.eventBus.worker = .empty ∧
          env.fault = some .logger := by
  cases hw : s.isOnWorkerThread caller with
  | true => simp [initializeSystem, hw]
  | false =>
    rw [or_iff_right Bool.false_ne_true]
    constructor
    · intro h
      obtain ⟨u, hu, hs⟩ := eq_initializeComponents_of_refused hv hw h
      obtain ⟨hm, hb, -, hnext⟩ := joinStaleWorkers_eq hu
      obtain ⟨-, hm', hb'⟩ := initializeComponents_frame (s := u) env.fault
      rw [← hs] at hm' hb'
      refine ⟨by rw [hm', hm], by rw [hb', hb], ?_⟩
      by_contra hf
      have hlt := lt_nextObject_initializeComponents (s := u) hf
      rw [← hs, hnext] at hlt
      exact lt_irrefl _ hlt
    · rintro ⟨hm, hb, hf⟩
      rw [initializeSystem, if_neg (by simp [hw]), joinStaleWorkers_of_empty hm hb]
      simp [initializeComponents, hf]

/-- A system that runs, and has nothing else. -/
def bareRunning : AxonVexSystem := { new {} 0 with lifecycle := { currentState := .running } }

/-- Its dispatch thread is refused without a trace; an external thread leaves new components. -/
theorem initializeSystem_refused_bareRunning :
    bareRunning.initializeSystem .dispatch {} = .returned (bareRunning, .returned false) ∧
      bareRunning.initializeSystem (.external 0) {} ≠ .returned (bareRunning, .returned false) :=
  ⟨(initializeSystem_refused_iff rfl).mpr (.inl rfl),
    fun h => by simpa [bareRunning, isOnWorkerThread] using (initializeSystem_refused_iff rfl).mp h⟩

end AxonVexSystem

namespace SystemRun

open AxonVexSystem

set_option maxRecDepth 4000 in
/-- **The second `initialize` of two never returns**: it joins a dispatch loop that nothing ends. -/
theorem refused_initialize_blocks : ¬ ∀ r, machine.Reachable r → ∀ caller env,
    validTransition r.system.state .initializing = false →
      r.system.initializeSystem caller env = .returned (r.system, .returned false) := by
  intro h
  have hrun : (machine.exec (fresh {} 0) [.call (.external 0) (.initializeSystem {})]).any
      (fun r => !validTransition r.system.state .initializing &&
        match r.system.initializeSystem (.external 0) {} with
        | .blocked => true
        | _ => false) = true := by decide
  obtain ⟨r, hr, hs⟩ := (Option.any_eq_true _ _).mp hrun
  rw [Bool.and_eq_true, Bool.not_eq_true'] at hs
  have hret := h r (reachable_fresh.exec (Option.mem_def.mp hr)) (.external 0) {} hs.1
  rw [hret] at hs
  exact absurd hs.2 Bool.false_ne_true

end SystemRun

end AxonVex
