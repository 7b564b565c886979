import AxonVex.Lifecycle.Moves
import AxonVex.Machinery.Machine

/-!
# Lifecycle/Pause — what starts while a system is paused

`pause()` sets `paused_` and returns; the loop reads the flag at the top of its turn only, so what it
has begun to select goes on.  The loop is **parked** when it gets back to that test without claiming
a task: it waits there, or its cycle has no turn left, or `running_` is clear.

* `no_new_execution` — where `pause()` is accepted with the loop parked, and no health check restarts
  it while the system is paused, no task execution begins in `PAUSED`.
* `execution_begins_paused` — a pause in the first turn of a cycle of two: the second task starts.
-/

namespace AxonVex

open Machinery

/-! ## The parked loop -/

/-- From here the loop gets back to its test of `paused_` without claiming a task. -/
def LoopPc.parks (running : Bool) : LoopPc → Bool
  | top => true
  | armed => !running
  | selecting => !running
  | cycle plan => plan.done || !running
  | picked _ _ => false
  | processAsync _ plan => plan.done || !running
  | processSync _ plan => plan.done || !running
  | finalizing _ _ plan => plan.done || !running
  | reporting _ _ plan => plan.done || !running

namespace RealTimeScheduler

variable {s t : RealTimeScheduler}

/-- The loop, if there is one, is on its way back to the test of `paused_`. -/
def Parks (s : RealTimeScheduler) : Prop := ∀ pc ∈ s.worker.pc?, pc.parks s.running = true

instance (s : RealTimeScheduler) : Decidable s.Parks :=
  decidable_of_iff (s.worker.pc?.all (LoopPc.parks s.running) = true) <| by
    simp [Parks, Option.all_eq_true]

/-- The loop, if there is one, is parked. -/
def Parked (s : RealTimeScheduler) : Prop := s.worker.alive = true → s.paused = true ∧ s.Parks

/-- The block of the task being executed. -/
def executing? (s : RealTimeScheduler) : Option ℕ := s.worker.pc?.bind LoopPc.executing?

/-- A loop that is not there is parked. -/
theorem Parked.of_not_alive (h : s.worker.alive = false) : s.Parked := by
  simp [Parked, h]

/-- A loop is parked at a position that parks. -/
theorem Parked.of_running {pc : LoopPc} (hpc : s.worker = .running pc) (hp : s.paused = true)
    (h : pc.parks s.running = true) : s.Parked := by
  refine fun _ => ⟨hp, fun pc' hpc' => ?_⟩
  obtain rfl : pc = pc' := by simpa [hpc] using hpc'
  exact h

/-- What a parked loop's position says. -/
theorem Parks.at {pc : LoopPc} (h : s.Parks) (hpc : s.worker = .running pc) :
    pc.parks s.running = true := h pc (by simp [hpc])

/-- **A parked loop stays parked and claims nothing.** -/
theorem Parked.of_loopMove (hs : s.Parked) (h : LoopMove s t) :
    t.Parked ∧ ∀ b ∈ t.executing?, b ∈ s.executing? := by
  obtain ⟨hp, hk⟩ := hs h.alive
  have hnone (u : RealTimeScheduler) (hu : u.executing? = none) :
      ∀ b ∈ u.executing?, b ∈ s.executing? := by simp [hu]
  cases h with
  | exit _ _ => exact ⟨.of_not_alive rfl, hnone _ rfl⟩
  | arm _ _ hp' => exact absurd (hp.symm.trans hp') (by simp)
  | wake hpc hr => exact absurd (hk.at hpc) (by simp [LoopPc.parks, hr])
  | select now plan last hpc =>
    have hr : s.running = false := by simpa [LoopPc.parks] using hk.at hpc
    exact ⟨.of_running rfl hp (by simp [LoopPc.parks, reactivateAll, hr]), hnone _ rfl⟩
  | endCycle plan hpc => exact ⟨.of_running rfl hp rfl, hnone _ rfl⟩
  | pick id plan plan' hpc hdone hr => exact absurd (hk.at hpc) (by simp [LoopPc.parks, hdone, hr])
  | claim id plan hpc => exact absurd (hk.at hpc) (by simp [LoopPc.parks])
  | asyncDone block plan hpc =>
    have hk := hk.at hpc
    -- the task whose first half is over is still the one being executed
    have hexec : (s.goto (.processSync block plan)).executing? = s.executing? := by
      rw [executing?, executing?, hpc]
      rfl
    exact ⟨.of_running rfl hp hk, fun b hb => hexec ▸ hb⟩
  | bodyDone block success plan hpc =>
    have hk : plan.done || !s.running := by rcases hpc with hpc | hpc <;> exact hk.at hpc
    exact ⟨.of_running rfl hp hk, hnone _ rfl⟩
  | finalize block plan result now hpc =>
    have hk := hk.at hpc
    unfold finalizeTaskExecution
    split
    · exact ⟨.of_running rfl hp hk, hnone _ rfl⟩
    · cases result.success <;> exact ⟨.of_running rfl hp hk, hnone _ rfl⟩
  | report unit times plan hpc =>
    have hk := hk.at hpc
    exact ⟨.of_running rfl hp hk, hnone _ rfl⟩

/-- Flags and loop decide whether a loop is parked, and what it executes. -/
theorem Parked.of_sameLoop (hs : s.Parked) (h : SameLoop s t) : t.Parked := by
  unfold Parked Parks at hs ⊢
  rw [h.worker, h.paused, h.running]
  exact hs

/-- Where a halted loop stands it parks, unless it has picked a task. -/
theorem parks_false {running : Bool} {pc : LoopPc} (h : pc.parks running = true) :
    pc.parks false = true := by
  cases pc <;> simp_all [LoopPc.parks]

/-- Recovery from a task body only halts the loop. -/
theorem Parked.restart_onThread (hs : s.Parked) (spawned : Bool) :
    ((s.stop true).start true spawned).1.Parked := fun halive =>
  ⟨(hs halive).1, fun pc hpc => parks_false ((hs halive).2 pc hpc)⟩

theorem executing?_of_not_alive (h : s.loopAlive = false) : s.executing? = none := by
  rcases (WorkerThread.not_alive_iff _).mp h with hw | hw <;> simp [executing?, hw]

end RealTimeScheduler

namespace AxonVexSystem

open RealTimeScheduler

variable {s t : AxonVexSystem}

/-- The block of the task being executed. -/
def executing? (s : AxonVexSystem) : Option ℕ := s.scheduler?.bind (·.executing?)

/-- The scheduler loop, if there is one, is parked. -/
def IsParked (s : AxonVexSystem) : Prop := ∀ r ∈ s.scheduler?, r.Parked

theorem isParked_of_some {c : TimingController} (h : s.timingController = some c)
    (hc : c.scheduler.Parked) : s.IsParked := by
  simpa [IsParked, scheduler?, h] using hc

theorem IsParked.parked {c : TimingController} (h : s.IsParked)
    (hc : s.timingController = some c) : c.scheduler.Parked := h _ (by simp [scheduler?, hc])

theorem NoLoop.isParked (h : s.NoLoop) : s.IsParked := fun r hr => .of_not_alive (h r hr)

theorem executing?_of_some {c : TimingController} (h : s.timingController = some c) :
    s.executing? = c.scheduler.executing? := by
  simp [executing?, scheduler?, h]

theorem executing?_of_noLoop (h : s.NoLoop) : s.executing? = none := by
  cases hc : s.timingController with
  | none => simp [executing?, scheduler?, hc]
  | some c => rw [executing?_of_some hc, RealTimeScheduler.executing?_of_not_alive (h.loopAlive hc)]

/-- What leaves the loop alone leaves it parked, and what it executes. -/
theorem SameControl.isParked (h : SameControl s t) (hs : s.IsParked) : t.IsParked := by
  cases hc : s.timingController with
  | none => exact (h.noLoop (noLoop_of_none hc)).isParked
  | some c =>
    obtain ⟨c', hc', hl⟩ := exists_sameLoop hc h.loop
    exact isParked_of_some hc' ((hs.parked hc).of_sameLoop hl)

theorem SameControl.executing? (h : SameControl s t) : t.executing? = s.executing? := by
  cases hc : s.timingController with
  | none =>
    rw [executing?_of_noLoop (noLoop_of_none hc), executing?_of_noLoop (h.noLoop (noLoop_of_none hc))]
  | some c =>
    obtain ⟨c', hc', hl⟩ := exists_sameLoop hc h.loop
    rw [executing?_of_some hc', executing?_of_some hc, RealTimeScheduler.executing?, hl.worker]
    rfl

end AxonVexSystem

namespace SystemRun

variable {r t : SystemRun} {a : Action}

/-- **The condition**: what no step may do. -/
structure PausesParked (r : SystemRun) (a : Action) : Prop where
  /-- `pause()` is accepted only when the loop is on its way back to its test of `paused_` -/
  parks : ∀ caller, a = .call caller .pause → validTransition r.system.state .pausing = true →
    ∀ s ∈ r.system.scheduler?, s.Parks
  /-- while the system is paused, only a task body's health check may restart the loop -/
  noRecovery : r.system.state = .paused →
    ∀ thread, r.system.recoversOn a = some thread → thread = .scheduler

/-- In `PAUSED` the loop is parked. -/
def ParkedWhenPaused (r : SystemRun) : Prop := r.system.state = .paused → r.system.IsParked

open AxonVexSystem RealTimeScheduler in
/-- **One step**, by the moves: `PAUSED` is entered by `pause` alone. -/
theorem ParkedWhenPaused.step (hI : ParkedWhenPaused r) (hG : PausesParked r a)
    (h : r.step a = some t) : ParkedWhenPaused t := by
  intro hstate
  have hmove := controlMove_of_step h
  generalize r.returned a = res at hmove
  generalize t.system = u at hmove hstate ⊢
  cases hmove with
  | quiet ha h => exact h.isParked (hI (h.state.symm.trans hstate))
  | refused => exact hI hstate
  | resetRefused hw => exact hI hstate
  | @recovered _ _ _ c spawned thread ha hc hp hs ht =>
    have hs := hs.symm.trans hstate
    obtain rfl := hG.noRecovery hs _ ha
    exact isParked_of_some ht (((hI hs).parked hc).restart_onThread spawned)
  | loop hc hm hp hs ht =>
    exact isParked_of_some ht (((hI (hs.symm.trans hstate)).parked hc).of_loopMove hm).1
  | dispatch hb => exact hI hstate
  | startedNothing hv hc hs _ => exact absurd (hstate.symm.trans hs) (by decide)
  | @started caller env ok t c c' hv hc hok hs _ hl =>
    cases ok <;> exact absurd (hstate.symm.trans hs) (by decide)
  | @paused caller t hv hs ht =>
    cases hc : r.system.timingController with
    | none => exact (noLoop_of_none (by rw [ht, hc]; rfl)).isParked
    | some c =>
      have hparks := hG.parks caller rfl hv c.scheduler (by simp [scheduler?, hc])
      exact isParked_of_some (c := c.pause) (by rw [ht, hc]; rfl) fun _ => ⟨rfl, hparks⟩
  | resumed hv hs _ => exact absurd (hstate.symm.trans hs) (by decide)
  | stopped hv hs _ => exact absurd (hstate.symm.trans hs) (by decide)
  | emergencyShutdown hs _ => exact absurd (hstate.symm.trans hs) (by decide)
  | reset hw hs _ => exact absurd (hstate.symm.trans hs) (by decide)
  | componentsFailed hj hs ht =>
    have hs := hI (hs.symm.trans hstate)
    rw [IsParked, scheduler?, ht]
    exact hs
  | componentsReplaced hj hs ht => exact ht.isParked
  | initializeAborted _ hs _ =>
    rcases hs with hs | hs <;> exact absurd (hstate.symm.trans hs) (by decide)
  | initialized hs hn hr hd => exact absurd (hstate.symm.trans hs) (by decide)

open AxonVexSystem RealTimeScheduler in
/-- **No step from `PAUSED` claims a task.** -/
theorem ParkedWhenPaused.executing (hI : ParkedWhenPaused r) (hG : PausesParked r a)
    (hstate : r.system.state = .paused) (h : r.step a = some t) :
    ∀ b ∈ t.system.executing?, b ∈ r.system.executing? := by
  have hmove := controlMove_of_step h
  generalize r.returned a = res at hmove
  generalize t.system = u at hmove ⊢
  have hnone (h : u.NoLoop) : ∀ b ∈ u.executing?, b ∈ r.system.executing? := by
    simp [executing?_of_noLoop h]
  have hrefused {x : SystemState} (hv : validTransition r.system.state x = true)
      (hx : validTransition .paused x = false) : False := by
    rw [hstate, hx] at hv
    exact Bool.false_ne_true hv
  cases hmove with
  | quiet ha h => rw [h.executing?]; exact fun _ => id
  | refused => exact fun _ => id
  | resetRefused hw => exact fun _ => id
  | @recovered _ _ _ c spawned thread ha hc hp hs ht =>
    obtain rfl := hG.noRecovery hstate _ ha
    rw [executing?_of_some hc, executing?_of_some ht]
    exact fun _ => id
  | loop hc hm hp hs ht =>
    rw [executing?_of_some hc, executing?_of_some ht]
    exact (((hI hstate).parked hc).of_loopMove hm).2
  | dispatch hb => exact fun _ => id
  | startedNothing hv hc hs ht => exact (hrefused hv rfl).elim
  | started hv hc hok hs ht hl => exact (hrefused hv rfl).elim
  | paused hv hs ht => exact (hrefused hv rfl).elim
  | resumed hv hs ht =>
    cases hc : r.system.timingController with
    | none => exact hnone (noLoop_of_none (by rw [ht, hc]; rfl))
    | some c =>
      rw [executing?_of_some hc, executing?_of_some (c := c.resume) (by rw [ht, hc]; rfl)]
      exact fun _ => id
  | stopped hv hs ht => exact hnone (noLoop_of_none ht)
  | @emergencyShutdown caller t hs ht =>
    cases hc : r.system.timingController with
    | none => exact hnone (noLoop_of_none (by rw [ht, hc]; rfl))
    | some c =>
      cases hcaller : caller == Thread.scheduler with
      | true =>
        rw [executing?_of_some hc, executing?_of_some (c := c.stop true) (by rw [ht, hc, hcaller]; rfl)]
        exact fun _ => id
      | false =>
        exact hnone (noLoop_of_some (c := c.stop false) (by rw [ht, hc, hcaller]; rfl) rfl)
  | reset hw hs ht => exact hnone (noLoop_of_none ht)
  | componentsFailed hj hs ht =>
    rw [AxonVexSystem.executing?, AxonVexSystem.executing?, scheduler?, scheduler?, ht]
    exact fun _ => id
  | componentsReplaced hj hs ht => exact hnone ht
  | initializeAborted _ hs ht => exact hnone ht
  | initialized hs ht hr hd => exact hnone ht

/-- From `PAUSED` the action begins no task execution: what is executed after it was executed
before. -/
def BeginsNothing (r : SystemRun) (a : Action) : Prop := r.system.state = .paused →
  ∀ t, r.step a = some t → ∀ b ∈ t.system.executing?, b ∈ r.system.executing?

/-- **While the system is paused no task execution begins**, in every run whose pauses find the loop
parked. -/
theorem no_new_execution (h : machine.ReachableUnder PausesParked r) (hG : PausesParked r a) :
    r.BeginsNothing a := by
  have hI : machine.Inductive PausesParked ParkedWhenPaused := by
    refine ⟨?_, fun _ _ _ hI hG h => hI.step hG h⟩
    rintro r ⟨config, objectSize, -, rfl⟩ hstate
    exact absurd hstate (by simp [fresh, AxonVexSystem.new, AxonVexSystem.state])
  exact fun hstate t hst => (h.invariant hI).executing hG hstate hst

/-- Calls that neither pause the system nor check its health are not restricted. -/
theorem PausesParked.of_call {caller : Thread} {c : Call} (hp : c ≠ .pause)
    (hc : ∀ callbacks spawned, c ≠ .performHealthCheck callbacks spawned) :
    PausesParked r (.call caller c) where
  parks caller' ha := by
    obtain ⟨-, rfl⟩ := Action.call.inj ha
    exact absurd rfl hp
  noRecovery _ thread ha := by
    cases c with
    | performHealthCheck callbacks spawned => exact absurd rfl (hc callbacks spawned)
    | _ => exact absurd ha.symm (Option.some_ne_none _)

/-- Two units, and a start. -/
def twoStarted : List Action :=
  [.call (.external 0) (.initializeSystem {}),
    .call (.external 0) (.registerProcessingUnit (.new 0 "camera") {} 0),
    .call (.external 0) (.registerProcessingUnit (.new 1 "lidar") {} 0),
    .call (.external 0) (.start {})]

set_option maxRecDepth 4000 in
/-- A pause before the loop's first turn begins nothing. -/
theorem no_new_execution_twoStarted : ∃ r, machine.ReachableUnder PausesParked r ∧
    r.system.state = .paused ∧ r.BeginsNothing (.schedulerStep .advance) := by
  have hrun : (machine.exec (fresh {} 0) twoStarted).any (fun r =>
      r.system.scheduler?.all (fun s => decide s.Parks) &&
        (r.step (.call (.external 0) .pause)).any (·.system.state == .paused)) = true := by decide
  obtain ⟨r, hr, hs⟩ := (Option.any_eq_true _ _).mp hrun
  rw [Bool.and_eq_true, Option.all_eq_true] at hs
  obtain ⟨hparks, hpause⟩ := hs
  obtain ⟨t, ht, hstate⟩ := (Option.any_eq_true _ _).mp hpause
  have hreach : machine.ReachableUnder PausesParked r :=
    .exec (.init ⟨{}, 0, by decide, rfl⟩) (by
      refine fun _ _ => ⟨.of_call (by simp) (by simp), fun _ _ => ⟨.of_call (by simp) (by simp),
        fun _ _ => ⟨.of_call (by simp) (by simp), fun _ _ => ⟨.of_call (by simp) (by simp), trivial⟩⟩⟩⟩)
      (Option.mem_def.mp hr)
  have hreach' : machine.ReachableUnder PausesParked t :=
    .step (.call (.external 0) .pause) hreach
      ⟨fun _ _ _ s hs => by simpa using hparks s hs, fun _ _ ha => absurd ha.symm (Option.some_ne_none _)⟩
      (Option.mem_def.mp ht)
  exact ⟨t, hreach', by simpa using hstate, no_new_execution hreach'
    ⟨fun _ ha => by simp at ha, fun _ _ ha => absurd ha.symm (Option.some_ne_none _)⟩⟩

/-- The first task of a cycle of two, a pause in its body, and the way to the claim of the second. -/
def pauseInCycle : List Action :=
  [.schedulerStep .advance, .schedulerStep .advance, .schedulerStep (.select 100 [1, 2]),
    .schedulerStep .advance, .schedulerStep .advance,
    .call (.external 0) .pause,
    .schedulerStep .bodyReturns, .schedulerStep .bodyReturns, .schedulerStep (.finalize 100 110 120),
    .schedulerStep .advance]

set_option maxRecDepth 4000 in
/-- **A pause in the middle of a cycle lets the next task of the cycle start.** -/
theorem execution_begins_paused : ¬ ∀ r, machine.Reachable r → ∀ a, r.BeginsNothing a := by
  intro h
  have hrun : (machine.exec (fresh {} 0) (twoStarted ++ pauseInCycle)).any (fun r =>
      r.system.state == .paused && r.system.executing?.isNone &&
        (r.step (.schedulerStep .advance)).any (·.system.executing?.isSome)) = true := by decide
  obtain ⟨r, hr, hs⟩ := (Option.any_eq_true _ _).mp hrun
  rw [Bool.and_eq_true, Bool.and_eq_true, beq_iff_eq, Option.isNone_iff_eq_none] at hs
  obtain ⟨⟨hstate, hnone⟩, hstep⟩ := hs
  obtain ⟨t, ht, hsome⟩ := (Option.any_eq_true _ _).mp hstep
  obtain ⟨b, hb⟩ := Option.isSome_iff_exists.mp hsome
  have := h r (reachable_fresh.exec (Option.mem_def.mp hr)) _ hstate t (Option.mem_def.mp ht) b hb
  rw [hnone] at this
  exact absurd this (Option.not_mem_none b)

end SystemRun

end AxonVex
