import AxonVex.Core.Lifecycle
import AxonVex.Core.WorkerThread
import AxonVex.Machinery.Machine
import AxonVex.Machinery.Mutex
import AxonVex.Machinery.WaitFor

/-!
# Concurrent/ShutdownTraffic — `stop()` among emergency shutdowns, one mutex at a time

    emergencyShutdown:  FATAL_ERROR;  latch;  flags;  try the teardown mutex;
                        join dispatch;  drain;  join monitor;  stop the scheduler;  clear;  release
    stop:               STOPPING;  latch;  flags;  the teardown mutex;
                        join dispatch;  drain;  join monitor;  stop the scheduler;  clean up;  release;
                        STOPPED

Any number of threads make these calls, the three workers among them; each join takes the handle's
mutex, and the scheduler's `stop()` its lifecycle mutex before.  The monitor may be in a recovery,
which stops the scheduler and starts it again with no regard to the teardown mutex.

While the calls wait for nobody in vain, something goes on (`Inv.goes_on`).  What can go wrong: the
scheduler's thread has the teardown mutex and joins the monitor, which joins the scheduler
(`shutdownTraffic_sound_iff`).
-/

namespace AxonVex

open Machinery

namespace ShutdownTraffic

/-- The threads of a system. -/
inductive Worker
  | dispatch
  | monitor
  | scheduler
  deriving DecidableEq, Repr

def Worker.thread : Worker → Thread
  | dispatch => .dispatch
  | monitor => .monitor
  | scheduler => .scheduler

/-- The worker whose thread it is. -/
def worker? : Thread → Option Worker
  | .external _ => none
  | .dispatch => some .dispatch
  | .monitor => some .monitor
  | .scheduler => some .scheduler

inductive Mutex
  /-- `shutdownMutex_` -/
  | teardown
  /-- `lifecycleMutex_` of the scheduler -/
  | lifecycle
  /-- `handleMutex_` of a worker -/
  | handle (w : Worker)
  deriving DecidableEq, Repr

/-- `WorkerThread::join()`: what it is about to do. -/
inductive JoinPc
  /-- `isOnThisThread()` -/
  | check
  | lock
  /-- `handle_->join()`, and `handle_.reset()` -/
  | join
  | unlock (joined : Bool)
  deriving DecidableEq, Repr

/-- `RealTimeScheduler::stop()`. -/
inductive SchedulerStopPc
  | halt
  /-- `isOnSchedulerThread()` -/
  | check
  | lock
  | clearRunning
  | join (pc : JoinPc)
  | unlock
  deriving DecidableEq, Repr

/-- `RealTimeScheduler::start()`. -/
inductive SchedulerStartPc
  /-- `isOnSchedulerThread()` -/
  | check
  | lock
  | testRunning
  | lockHandle
  /-- a handle that is still joinable is joined -/
  | joinStale
  /-- `beforeSpawn` -/
  | setRunning
  | spawn
  | unlockHandle (spawned : Bool)
  /-- `withHandle` -/
  | lockTuning
  | unlockTuning
  | unlock
  deriving DecidableEq, Repr

/-- What the owner of the teardown mutex does. -/
inductive TeardownPc
  /-- the flag that `stopAndJoin` clears -/
  | requestStop
  | joinBus (pc : JoinPc)
  | drain
  | joinMonitor (pc : JoinPc)
  /-- is there a timing controller? -/
  | components
  | scheduler (pc : SchedulerStopPc)
  deriving DecidableEq, Repr

/-- `emergencyShutdown()`. -/
inductive ShutdownPc
  | transition
  | latch
  | stopBus
  | stopMonitor
  | tryTeardown
  | teardown (pc : TeardownPc)
  /-- `unitRegistry_.clear()` -/
  | clear
  | release
  deriving DecidableEq, Repr

/-- `stop()`. -/
inductive StopPc
  /-- `isOnWorkerThread()` -/
  | check
  | transition
  | latch
  | stopBus
  | stopMonitor
  | acquire
  | teardown (pc : TeardownPc)
  /-- `cleanupComponents()` -/
  | cleanup
  | release
  /-- the transition to `STOPPED` -/
  | finish
  /-- the components did not stop, or there was an exception: the mutex is released -/
  | abandon
  | shutdown (pc : ShutdownPc)
  deriving DecidableEq, Repr

/-- `attemptRecovery`, from a health check. -/
inductive RecoverPc
  | stop (pc : SchedulerStopPc)
  | start (pc : SchedulerStartPc)
  deriving DecidableEq, Repr

/-- A call. -/
inductive Call
  | shutdown (pc : ShutdownPc)
  | stop (pc : StopPc)
  | recover (pc : RecoverPc)
  deriving DecidableEq, Repr

/-- What a thread may call. -/
inductive Beginning
  | emergencyShutdown
  | stop
  | attemptRecovery
  deriving DecidableEq, Repr

def Beginning.call : Beginning → Call
  | emergencyShutdown => .shutdown .transition
  | stop => .stop .check
  | attemptRecovery => .recover (.stop .halt)

end ShutdownTraffic

/-- A system that is being shut down. -/
structure ShutdownTraffic where
  lifecycle : LifecycleController
  /-- the thread that has a mutex -/
  owner : ShutdownTraffic.Mutex → Option Thread := fun _ => none
  /-- `running_`, `enabled_` and `running_` -/
  flag : ShutdownTraffic.Worker → Bool
  handle : ShutdownTraffic.Worker → WorkerThread Unit
  /-- there is a timing controller -/
  timingController_ : Bool
  realTimeMode_ : Bool
  calls : Thread → Option ShutdownTraffic.Call := fun _ => none
  /-- an emergency shutdown has made its transition -/
  emergency : Bool := false
  /-- a `stop()` has made the transition to `STOPPING` -/
  accepted : Bool := false

namespace ShutdownTraffic

variable (s : ShutdownTraffic) (t : Thread)

def setCall (call : Option Call) : ShutdownTraffic :=
  { s with calls := Function.update s.calls t call }

def setOwner (x : Mutex) (thread : Option Thread) : ShutdownTraffic :=
  { s with owner := Function.update s.owner x thread }

def setFlag (w : Worker) (value : Bool) : ShutdownTraffic :=
  { s with flag := Function.update s.flag w value }

def setHandle (w : Worker) (handle : WorkerThread Unit) : ShutdownTraffic :=
  { s with handle := Function.update s.handle w handle }

/-- The mutex is taken, if it is free. -/
def lock (x : Mutex) : Option ShutdownTraffic :=
  if (s.owner x).isSome then none else some (s.setOwner x (some t))

/-- The condition of a worker's loop. -/
def loopCondition (w : Worker) : Bool :=
  match w with
  | .dispatch => s.flag .dispatch && !s.lifecycle.shutdownRequested
  | .monitor => s.flag .monitor && !s.lifecycle.shutdownRequested
  | .scheduler => s.flag .scheduler

/-- The next step of a join; `none` while it waits. -/
def joinStep (w : Worker) : JoinPc → Option (ShutdownTraffic × Option JoinPc)
  | .check => some (s, if t = w.thread then none else some .lock)
  | .lock => (s.lock t (.handle w)).map fun s => (s, some .join)
  | .join => match s.handle w with
    | .running _ => none
    | .exited => some (s.setHandle w .empty, some (.unlock true))
    | .empty => some (s, some (.unlock false))
  | .unlock _ => some (s.setOwner (.handle w) none, none)

def schedulerStopStep : SchedulerStopPc → Option (ShutdownTraffic × Option SchedulerStopPc)
  | .halt => some (s.setFlag .scheduler false, some .check)
  | .check => some (s, if t = .scheduler then none else some .lock)
  | .lock => (s.lock t .lifecycle).map fun s => (s, some .clearRunning)
  | .clearRunning => some (s.setFlag .scheduler false, some (.join .check))
  | .join pc => (s.joinStep t .scheduler pc).map fun r => (r.1, some (r.2.elim .unlock .join))
  | .unlock => some (s.setOwner .lifecycle none, none)

/-- The next step of a start, whose thread is created if it can be. -/
def schedulerStartStep (spawned : Bool) :
    SchedulerStartPc → Option (ShutdownTraffic × Option SchedulerStartPc)
  | .check => some (s, if t = .scheduler then none else some .lock)
  | .lock => (s.lock t .lifecycle).map fun s => (s, some .testRunning)
  | .testRunning => some (s, some (if s.flag .scheduler then .unlock else .lockHandle))
  | .lockHandle => (s.lock t (.handle .scheduler)).map fun s => (s, some .joinStale)
  | .joinStale => match s.handle .scheduler with
    | .running _ => none
    | .exited => some (s.setHandle .scheduler .empty, some .setRunning)
    | .empty => some (s, some .setRunning)
  | .setRunning => some (s.setFlag .scheduler true, some .spawn)
  | .spawn =>
    some (if spawned then s.setHandle .scheduler (.running ()) else s, some (.unlockHandle spawned))
  | .unlockHandle spawned => some (s.setOwner (.handle .scheduler) none,
      some (if spawned && s.realTimeMode_ then .lockTuning else .unlock))
  | .lockTuning => (s.lock t (.handle .scheduler)).map fun s => (s, some .unlockTuning)
  | .unlockTuning => some (s.setOwner (.handle .scheduler) none, some .unlock)
  | .unlock => some (s.setOwner .lifecycle none, none)

/-- The next step of a teardown.  An emergency shutdown drains the queue always, `stop()` if there
was a thread to join. -/
def teardownStep (drains : Bool) : TeardownPc → Option (ShutdownTraffic × Option TeardownPc)
  | .requestStop => some (s.setFlag .dispatch false, some (.joinBus .check))
  | .joinBus pc => (s.joinStep t .dispatch pc).map fun r => (r.1, some (r.2.elim
      (if drains || pc == .unlock true then .drain else .joinMonitor .check) .joinBus))
  | .drain => some (s, some (.joinMonitor .check))
  | .joinMonitor pc =>
    (s.joinStep t .monitor pc).map fun r => (r.1, some (r.2.elim .components .joinMonitor))
  | .components => some (s, if s.timingController_ then some (.scheduler .halt) else none)
  | .scheduler pc => (s.schedulerStopStep t pc).map fun r => (r.1, r.2.map .scheduler)

def shutdownStep : ShutdownPc → Option (ShutdownTraffic × Option ShutdownPc)
  | .transition => some
      ({ s with lifecycle := (s.lifecycle.transition .fatalError).1, emergency := true }, some .latch)
  | .latch => some ({ s with lifecycle := s.lifecycle.requestShutdown }, some .stopBus)
  | .stopBus => some (s.setFlag .dispatch false, some .stopMonitor)
  | .stopMonitor => some (s.setFlag .monitor false, some .tryTeardown)
  | .tryTeardown => match s.lock t .teardown with
    | none => some (s, none)
    | some s => some (s, some (.teardown .requestStop))
  | .teardown pc => (s.teardownStep t true pc).map fun r => (r.1, some (r.2.elim .clear .teardown))
  | .clear => some (s, some .release)
  | .release => some (s.setOwner .teardown none, none)

def stopStep : StopPc → Option (ShutdownTraffic × Option StopPc)
  | .check => some (s, if (worker? t).isSome then none else some .transition)
  | .transition =>
    let r := s.lifecycle.transition .stopping
    some ({ s with lifecycle := r.1, accepted := s.accepted || r.2 },
      if r.2 then some .latch else none)
  | .latch => some ({ s with lifecycle := s.lifecycle.requestShutdown }, some .stopBus)
  | .stopBus => some (s.setFlag .dispatch false, some .stopMonitor)
  | .stopMonitor => some (s.setFlag .monitor false, some .acquire)
  | .acquire => (s.lock t .teardown).map fun s => (s, some (.teardown .requestStop))
  | .teardown pc => (s.teardownStep t false pc).map fun r => (r.1, some (r.2.elim .cleanup .teardown))
  | .cleanup => some ({ s with timingController_ := false }, some .release)
  | .release => some (s.setOwner .teardown none, some .finish)
  | .finish => some ({ s with lifecycle := (s.lifecycle.transition .stopped).1 }, none)
  | .abandon => some (s.setOwner .teardown none, some (.shutdown .transition))
  | .shutdown pc => (s.shutdownStep t pc).map fun r => (r.1, r.2.map .shutdown)

def recoverStep (spawned : Bool) : RecoverPc → Option (ShutdownTraffic × Option RecoverPc)
  | .stop pc => (s.schedulerStopStep t pc).map fun r => (r.1, some (r.2.elim (.start .check) .stop))
  | .start pc => (s.schedulerStartStep t spawned pc).map fun r => (r.1, r.2.map .start)

def callStep (spawned : Bool) : Call → Option (ShutdownTraffic × Option Call)
  | .shutdown pc => (s.shutdownStep t pc).map fun r => (r.1, r.2.map .shutdown)
  | .stop pc => (s.stopStep t pc).map fun r => (r.1, r.2.map .stop)
  | .recover pc => (s.recoverStep t spawned pc).map fun r => (r.1, r.2.map .recover)

/-- Where an exception leads, or components that do not stop. -/
def thrown : Call → Option Call
  | .stop (.teardown .requestStop) => some (.stop .abandon)
  | .stop (.teardown .drain) => some (.stop .abandon)
  | .stop (.teardown .components) => some (.stop .abandon)
  | .stop .cleanup => some (.stop .abandon)
  | _ => none

/-- What happens. -/
inductive Label
  | begin (thread : Thread) (c : Beginning)
  | advance (thread : Thread) (spawned : Bool)
  | throws (thread : Thread)
  /-- a worker's loop returns -/
  | exit (w : Worker)
  deriving DecidableEq, Repr

def step : Label → Option ShutdownTraffic
  | .begin t c =>
    if s.calls t = none ∧ (worker? t).all (fun w => (s.handle w).alive) = true ∧
        (c = .attemptRecovery → t = .monitor ∧ s.timingController_ = true) then
      some (s.setCall t (some c.call))
    else none
  | .advance t spawned => (s.calls t).bind fun call =>
    (s.callStep t spawned call).map fun r => r.1.setCall t r.2
  | .throws t => (s.calls t).bind fun call => (thrown call).map fun call => s.setCall t (some call)
  | .exit w =>
    if (s.handle w).alive = true ∧ s.calls w.thread = none ∧ s.loopCondition w = false then
      some (s.setHandle w .exited)
    else none

/-- **The runs** of a system in any state, with no call under way. -/
def machine : Machine ShutdownTraffic Label where
  init s := (∀ x, s.owner x = none) ∧ (∀ t, s.calls t = none) ∧ s.emergency = false ∧
    s.accepted = false
  step := step

/-! ## Where a call stands -/

/-- What matters of a position: the mutexes it has, what it waits for, what it has made sure of. -/
structure Stand where
  holds : Mutex → Bool := fun _ => false
  /-- the mutex it is about to take, and waits for -/
  waits : Option Mutex := none
  /-- the worker it joins -/
  joins : Option Worker := none
  /-- the worker it joins next, once it has the mutex -/
  comesToJoin : Option Worker := none
  /-- it is not the thread of this worker -/
  avoids : Worker → Bool := fun _ => false
  /-- the latch is set -/
  latched : Bool := false
  /-- the scheduler's `running_` is clear -/
  cleared : Bool := false

namespace Stand

variable (p : Stand)

/-- With a mutex. -/
def within (x : Mutex) : Stand := { p with holds := fun y => y == x || p.holds y }

/-- Past a check that it is not on the thread of `w`. -/
def past (w : Worker) : Stand := { p with avoids := fun v => v == w || p.avoids v }

/-- On a thread that is no worker's. -/
def outside : Stand := { p with avoids := fun _ => true }

def afterLatch : Stand := { p with latched := true }

def afterClear : Stand := { p with cleared := true }

end Stand

def JoinPc.stand (w : Worker) : JoinPc → Stand
  | check => {}
  | lock => Stand.past { waits := some (.handle w), comesToJoin := some w } w
  | join => (Stand.within { joins := some w } (.handle w)).past w
  | unlock _ => (Stand.within {} (.handle w)).past w

def SchedulerStopPc.stand : SchedulerStopPc → Stand
  | halt => {}
  | check => {}
  | lock => Stand.past { waits := some .lifecycle } .scheduler
  | clearRunning => (Stand.within {} .lifecycle).past .scheduler
  | join pc => (((pc.stand .scheduler).within .lifecycle).past .scheduler).afterClear
  | unlock => ((Stand.within {} .lifecycle).past .scheduler).afterClear

def SchedulerStartPc.stand : SchedulerStartPc → Stand
  | check => {}
  | lock => Stand.past { waits := some .lifecycle } .scheduler
  | testRunning => (Stand.within {} .lifecycle).past .scheduler
  | lockHandle => ((Stand.within { waits := some (.handle .scheduler), comesToJoin := some .scheduler }
      .lifecycle).past .scheduler).afterClear
  | joinStale => (((Stand.within { joins := some .scheduler } .lifecycle).within
      (.handle .scheduler)).past .scheduler).afterClear
  | setRunning => (((Stand.within {} .lifecycle).within (.handle .scheduler)).past .scheduler).afterClear
  | spawn => ((Stand.within {} .lifecycle).within (.handle .scheduler)).past .scheduler
  | unlockHandle _ => ((Stand.within {} .lifecycle).within (.handle .scheduler)).past .scheduler
  | lockTuning => (Stand.within { waits := some (.handle .scheduler) } .lifecycle).past .scheduler
  | unlockTuning => ((Stand.within {} .lifecycle).within (.handle .scheduler)).past .scheduler
  | unlock => (Stand.within {} .lifecycle).past .scheduler

def TeardownPc.stand : TeardownPc → Stand
  | requestStop => {}
  | joinBus pc => pc.stand .dispatch
  | drain => {}
  | joinMonitor pc => pc.stand .monitor
  | components => {}
  | scheduler pc => pc.stand

def ShutdownPc.stand : ShutdownPc → Stand
  | transition => {}
  | latch => {}
  | stopBus => Stand.afterLatch {}
  | stopMonitor => Stand.afterLatch {}
  | tryTeardown => Stand.afterLatch {}
  | teardown pc => (pc.stand.within .teardown).afterLatch
  | clear => (Stand.within {} .teardown).afterLatch
  | release => (Stand.within {} .teardown).afterLatch

def StopPc.stand : StopPc → Stand
  | check => {}
  | transition => Stand.outside {}
  | latch => Stand.outside {}
  | stopBus => (Stand.afterLatch {}).outside
  | stopMonitor => (Stand.afterLatch {}).outside
  | acquire => (Stand.afterLatch { waits := some .teardown }).outside
  | teardown pc => ((pc.stand.within .teardown).afterLatch).outside
  | cleanup => ((Stand.within {} .teardown).afterLatch).outside
  | release => ((Stand.within {} .teardown).afterLatch).outside
  | finish => (Stand.afterLatch {}).outside
  | abandon => ((Stand.within {} .teardown).afterLatch).outside
  | shutdown pc => pc.stand.outside

def RecoverPc.stand : RecoverPc → Stand
  | stop pc => pc.stand
  | start pc => pc.stand

def Call.stand : Call → Stand
  | shutdown pc => pc.stand
  | stop pc => pc.stand
  | recover pc => pc.stand

/-- Where a thread stands, in a call or in none. -/
def standOf (call : Option Call) : Stand := call.elim {} Call.stand

/-! ## What a step can do -/

/-- A thread goes on from `p` to `p'`. -/
structure Moves (s s' : ShutdownTraffic) (t : Thread) (p p' : Stand) : Prop where
  calls_eq : s'.calls = s.calls
  owner : ∀ x, MovesLock t (s.owner x) (s'.owner x) (p.holds x) (p'.holds x)
  alive : ∀ w, (s.handle w).alive = true → (s'.handle w).alive = true
  avoids : ∀ w, p'.avoids w = true → p.avoids w = true ∨ t ≠ w.thread
  joins : p'.joins = p.comesToJoin
  latch : s.lifecycle.isShuttingDown = true → s'.lifecycle.isShuttingDown = true
  latched : p'.latched = true → p.latched = true ∨ s'.lifecycle.isShuttingDown = true
  flag : s'.flag .scheduler = true →
    s.flag .scheduler = true ∨ p.holds .lifecycle = true ∧ p'.cleared = false
  cleared : p'.cleared = true → p.cleared = true ∨ s'.flag .scheduler = false

variable {s s' : ShutdownTraffic} {t : Thread} {w : Worker} {x : Mutex} {p p' : Stand}

/-- What is true of the step is true of it within a mutex. -/
theorem Moves.within (h : Moves s s' t p p') (hp : p.holds x = false) (hp' : p'.holds x = false) :
    Moves s s' t (p.within x) (p'.within x) :=
  { h with
    owner := fun y => by
      have hy := h.owner y
      by_cases hyx : y = x
      · subst hyx
        rw [hp, hp'] at hy
        simp only [Stand.within, beq_self_eq_true, Bool.true_or, hy.eq_of_not_held]
        exact .keep
      · simpa only [Stand.within, beq_false_of_ne hyx, Bool.false_or] using hy
    flag := fun hflag => (h.flag hflag).imp_right fun hc =>
      ⟨by simp only [Stand.within, hc.1, Bool.or_true], hc.2⟩ }

theorem Moves.outside (h : Moves s s' t p p') : Moves s s' t p.outside p'.outside :=
  { h with avoids := fun _ _ => .inl rfl }

theorem Moves.afterLatch (h : Moves s s' t p p') : Moves s s' t p.afterLatch p'.afterLatch :=
  { h with latched := fun _ => .inl rfl }

/-- Nothing changes but the position. -/
theorem Moves.stay (hholds : p'.holds = p.holds)
    (havoids : ∀ w, p'.avoids w = true → p.avoids w = true ∨ t ≠ w.thread)
    (hjoins : p'.joins = p.comesToJoin) (hlatched : p'.latched = true → p.latched = true)
    (hcleared : p'.cleared = true → p.cleared = true ∨ s.flag .scheduler = false) :
    Moves s s t p p' where
  calls_eq := rfl
  owner _ := hholds ▸ .keep
  alive _ hw := hw
  avoids := havoids
  joins := hjoins
  latch hl := hl
  latched hl := .inl (hlatched hl)
  flag := .inl
  cleared := hcleared

/-- The call is over. -/
theorem Moves.over (hholds : p.holds = fun _ => false) (hcomes : p.comesToJoin = none) :
    Moves s s t p {} :=
  .stay hholds.symm (fun _ hw => absurd hw (by simp)) hcomes.symm (fun hl => absurd hl (by simp))
    fun hc => absurd hc (by simp)

theorem lock_eq_some (h : s.lock t x = some s') : s.owner x = none ∧ s' = s.setOwner x (some t) := by
  unfold lock at h
  split at h
  · cases h
  next hfree =>
    exact ⟨Option.not_isSome_iff_eq_none.mp hfree, (Option.some.inj h).symm⟩

/-- A mutex is taken. -/
theorem Moves.lock (h : s.lock t x = some s') (hholds : p'.holds = fun y => y == x || p.holds y)
    (havoids : ∀ w, p'.avoids w = true → p.avoids w = true)
    (hjoins : p'.joins = p.comesToJoin)
    (hlatched : p'.latched = true → p.latched = true)
    (hcleared : p'.cleared = true → p.cleared = true) : Moves s s' t p p' := by
  obtain ⟨hfree, rfl⟩ := lock_eq_some h
  exact {
    calls_eq := rfl
    owner := fun y => by
      rw [hholds]
      exact .lock_update hfree y
    alive := fun _ hw => hw
    avoids := fun w hw => .inl (havoids w hw)
    joins := hjoins
    latch := id
    latched := fun hl => .inl (hlatched hl)
    flag := .inl
    cleared := fun hc => .inl (hcleared hc) }

/-- A mutex is released. -/
theorem Moves.unlock (hholds : p.holds = fun y => y == x || p'.holds y) (hx : p'.holds x = false)
    (havoids : ∀ w, p'.avoids w = true → p.avoids w = true) (hjoins : p'.joins = p.comesToJoin)
    (hlatched : p'.latched = true → p.latched = true)
    (hcleared : p'.cleared = true → p.cleared = true) : Moves s (s.setOwner x none) t p p' where
  calls_eq := rfl
  owner y := by
    rw [hholds]
    exact .unlock_update hx y
  alive _ hw := hw
  avoids w hw := .inl (havoids w hw)
  joins := hjoins
  latch := id
  latched hl := .inl (hlatched hl)
  flag := .inl
  cleared hc := .inl (hcleared hc)

theorem past_avoids {v : Worker} : (p.past w).avoids v = true ↔ v = w ∨ p.avoids v = true := by
  simp only [Stand.past, Bool.or_eq_true, beq_iff_eq]

/-- The handle changes after its thread has ended. -/
theorem Moves.setHandle {handle : WorkerThread Unit} (h : Moves s s t p p')
    (hw : (s.handle w).alive = true → handle.alive = true) :
    Moves s (s.setHandle w handle) t p p' :=
  { h with
    alive := fun v hv => by
      change (Function.update s.handle w handle v).alive = true
      by_cases hvw : v = w
      · subst hvw
        rw [Function.update_self]
        exact hw hv
      · rw [Function.update_of_ne hvw]
        exact hv }

theorem flag_clear {v : Worker} (hv : (s.setFlag w false).flag v = true) : s.flag v = true := by
  change Function.update s.flag w false v = true at hv
  by_cases hvw : v = w
  · subst hvw
    rw [Function.update_self] at hv
    cases hv
  · rwa [Function.update_of_ne hvw] at hv

/-- A flag is cleared. -/
theorem Moves.clearFlag (h : Moves s s t p p') : Moves s (s.setFlag w false) t p p' :=
  { h with
    flag := fun hflag => h.flag (flag_clear hflag)
    cleared := fun hc => (h.cleared hc).imp_right fun hflag => by
      rw [← Bool.not_eq_true] at hflag ⊢
      exact fun hset => hflag (flag_clear hset) }

theorem joinStep_moves {pc : JoinPc} {pc' : Option JoinPc} (h : s.joinStep t w pc = some (s', pc')) :
    Moves s s' t (pc.stand w) (pc'.elim {} (JoinPc.stand w)) := by
  cases pc with
  | check =>
    obtain ⟨⟩ := h
    split
    next => exact .over rfl rfl
    next hne =>
      refine .stay rfl (fun v hv => .inr ?_) rfl id .inl
      obtain rfl := (past_avoids.mp hv).resolve_right (by simp)
      exact hne
  | lock =>
    obtain ⟨s₁, hlock, ⟨⟩⟩ := Option.map_eq_some_iff.mp h
    exact .lock hlock rfl (fun _ => id) rfl id id
  | join =>
    simp only [joinStep] at h
    split at h
    next => cases h
    next hexited =>
      obtain ⟨⟩ := h
      refine Moves.setHandle (.stay rfl (fun _ => .inl) rfl id .inl) fun halive => ?_
      rw [hexited] at halive
      exact halive
    next =>
      obtain ⟨⟩ := h
      exact .stay rfl (fun _ => .inl) rfl id .inl
  | unlock joined =>
    obtain ⟨⟩ := h
    exact .unlock rfl rfl (fun v hv => absurd hv (by simp)) rfl id id

theorem Moves.past (h : Moves s s' t p p') : Moves s s' t (p.past w) (p'.past w) :=
  { h with
    avoids := fun v hv => by
      rcases past_avoids.mp hv with rfl | hv
      · exact .inl (past_avoids.mpr (.inl rfl))
      · exact (h.avoids v hv).imp_left fun hp => past_avoids.mpr (.inr hp) }

theorem Moves.afterClear (h : Moves s s' t p p') (hflag : s'.flag = s.flag) :
    Moves s s' t p.afterClear p'.afterClear :=
  { h with
    flag := fun hset => .inl (hflag ▸ hset)
    cleared := fun _ => .inl rfl }

/-- The scheduler's flag is cleared, and will stay so. -/
theorem Moves.clearScheduler (h : Moves s s t p p') :
    Moves s (s.setFlag .scheduler false) t p p'.afterClear :=
  { h.clearFlag with
    flag := fun hset => absurd hset (by simp [setFlag])
    cleared := fun _ => .inr (by simp [setFlag]) }

/-- The lifecycle's state changes, or the latch is set. -/
theorem Moves.setLifecycle (h : Moves s s t p p')
    (hlatch : s.lifecycle.isShuttingDown = true → s'.lifecycle.isShuttingDown = true)
    (hcalls : s'.calls = s.calls) (howner : s'.owner = s.owner) (hhandle : s'.handle = s.handle)
    (hflag : s'.flag = s.flag) : Moves s s' t p p' where
  calls_eq := hcalls
  owner x := howner ▸ h.owner x
  alive w hw := hhandle ▸ hw
  avoids := h.avoids
  joins := h.joins
  latch := hlatch
  latched hl := (h.latched hl).imp_right hlatch
  flag := by
    rw [hflag]
    exact h.flag
  cleared := by
    rw [hflag]
    exact h.cleared

/-- The latch is set. -/
theorem Moves.setLatch (h : Moves s s t p p') :
    Moves s { s with lifecycle := s.lifecycle.requestShutdown } t p p'.afterLatch := by
  have hset : Moves s { s with lifecycle := s.lifecycle.requestShutdown } t p p' :=
    h.setLifecycle (fun _ => rfl) rfl rfl rfl rfl
  exact { hset with latched := fun _ => .inr rfl }

theorem joinStep_flag {pc : JoinPc} {pc' : Option JoinPc} (h : s.joinStep t w pc = some (s', pc')) :
    s'.flag = s.flag := by
  cases pc with
  | lock =>
    obtain ⟨s₁, hlock, ⟨⟩⟩ := Option.map_eq_some_iff.mp h
    rw [(lock_eq_some hlock).2]
    rfl
  | join =>
    simp only [joinStep] at h
    split at h
    · cases h
    · exact (pair_inj h).1 ▸ rfl
    · exact (pair_inj h).1 ▸ rfl
  | _ => exact (pair_inj h).1 ▸ rfl

/-- A join has no other mutex than the handle's. -/
theorem JoinPc.holds_stand (pc : JoinPc) (hx : x ≠ .handle w) : (pc.stand w).holds x = false := by
  cases pc <;> simp [JoinPc.stand, Stand.within, Stand.past, hx]

theorem holds_elim {P : Type*} (f : P → Stand) (pc : Option P) (hf : ∀ pc, (f pc).holds x = false) :
    (pc.elim {} f).holds x = false := by
  cases pc with
  | none => rfl
  | some pc => exact hf pc

theorem schedulerStopStep_moves {pc : SchedulerStopPc} {pc' : Option SchedulerStopPc}
    (h : s.schedulerStopStep t pc = some (s', pc')) :
    Moves s s' t pc.stand (pc'.elim {} SchedulerStopPc.stand) := by
  cases pc with
  | halt =>
    obtain ⟨⟩ := h
    exact .clearFlag (.over rfl rfl)
  | check =>
    obtain ⟨⟩ := h
    split
    next => exact .over rfl rfl
    next hne =>
      refine .stay rfl (fun v hv => .inr ?_) rfl id .inl
      obtain rfl := (past_avoids.mp hv).resolve_right (by simp)
      exact hne
  | lock =>
    obtain ⟨s₁, hlock, ⟨⟩⟩ := Option.map_eq_some_iff.mp h
    exact .lock hlock rfl (fun _ => id) rfl id id
  | clearRunning =>
    obtain ⟨⟩ := h
    exact .clearScheduler (.stay rfl (fun _ => .inl) rfl id .inl)
  | join pc =>
    obtain ⟨⟨s₁, pc₁⟩, hjoin, ⟨⟩⟩ := Option.map_eq_some_iff.mp h
    have hmoves := (joinStep_moves hjoin).within (x := .lifecycle) (pc.holds_stand (by simp))
      (holds_elim _ _ fun pc => pc.holds_stand (by simp))
    have hall := (hmoves.past (w := .scheduler)).afterClear (joinStep_flag hjoin)
    cases pc₁ with
    | none => exact hall
    | some pc₁ => exact hall
  | unlock =>
    obtain ⟨⟩ := h
    exact .unlock rfl rfl (fun v hv => absurd hv (by simp)) rfl id (fun hc => absurd hc (by simp))

theorem schedulerStartStep_moves {spawned : Bool} {pc : SchedulerStartPc}
    {pc' : Option SchedulerStartPc} (h : s.schedulerStartStep t spawned pc = some (s', pc')) :
    Moves s s' t pc.stand (pc'.elim {} SchedulerStartPc.stand) := by
  cases pc with
  | check =>
    obtain ⟨⟩ := h
    split
    next => exact .over rfl rfl
    next hne =>
      refine .stay rfl (fun v hv => .inr ?_) rfl id .inl
      obtain rfl := (past_avoids.mp hv).resolve_right (by simp)
      exact hne
  | testRunning =>
    obtain ⟨⟩ := h
    split
    next => exact .stay rfl (fun _ => .inl) rfl id .inl
    next hclear => exact .stay rfl (fun _ => .inl) rfl id fun _ => .inr (Bool.not_eq_true _ ▸ hclear)
  | joinStale =>
    simp only [schedulerStartStep] at h
    split at h
    next => cases h
    next hexited =>
      obtain ⟨⟩ := h
      refine Moves.setHandle (.stay rfl (fun _ => .inl) rfl id .inl) fun halive => ?_
      rw [hexited] at halive
      exact halive
    next =>
      obtain ⟨⟩ := h
      exact .stay rfl (fun _ => .inl) rfl id .inl
  | setRunning =>
    obtain ⟨⟩ := h
    exact {
      calls_eq := rfl
      owner := fun _ => .keep
      alive := fun _ hw => hw
      avoids := fun _ => .inl
      joins := rfl
      latch := id
      latched := .inl
      flag := fun _ => .inr ⟨rfl, rfl⟩
      cleared := fun hc => absurd hc (by simp [SchedulerStartPc.stand, Stand.past, Stand.within]) }
  | spawn =>
    obtain ⟨⟩ := h
    cases spawned with
    | true => exact .setHandle (.stay rfl (fun _ => .inl) rfl id .inl) fun _ => rfl
    | false => exact .stay rfl (fun _ => .inl) rfl id .inl
  | unlockHandle spawned =>
    obtain ⟨⟩ := h
    split <;> exact .unlock rfl rfl (fun _ => id) rfl id id
  | unlockTuning =>
    obtain ⟨⟩ := h
    exact .unlock rfl rfl (fun _ => id) rfl id id
  | unlock =>
    obtain ⟨⟩ := h
    exact .unlock rfl rfl (fun v hv => absurd hv (by simp)) rfl id id
  | _ =>
    obtain ⟨s₁, hlock, ⟨⟩⟩ := Option.map_eq_some_iff.mp h
    exact .lock hlock rfl (fun _ => id) rfl id id

theorem teardownStep_moves {drains : Bool} {pc : TeardownPc} {pc' : Option TeardownPc}
    (h : s.teardownStep t drains pc = some (s', pc')) :
    Moves s s' t pc.stand (pc'.elim {} TeardownPc.stand) := by
  cases pc with
  | requestStop =>
    obtain ⟨⟩ := h
    exact .clearFlag (.over rfl rfl)
  | joinBus pc =>
    obtain ⟨⟨s₁, pc₁⟩, hjoin, ⟨⟩⟩ := Option.map_eq_some_iff.mp h
    have hmoves := joinStep_moves hjoin
    cases pc₁ with
    | none =>
      change Moves s s₁ t _ (TeardownPc.stand (if _ then _ else _))
      split <;> exact hmoves
    | some pc₁ => exact hmoves
  | drain =>
    obtain ⟨⟩ := h
    exact .over rfl rfl
  | joinMonitor pc =>
    obtain ⟨⟨s₁, pc₁⟩, hjoin, ⟨⟩⟩ := Option.map_eq_some_iff.mp h
    have hmoves := joinStep_moves hjoin
    cases pc₁ with
    | none => exact hmoves
    | some pc₁ => exact hmoves
  | components =>
    obtain ⟨⟩ := h
    split <;> exact .over rfl rfl
  | scheduler pc =>
    obtain ⟨⟨s₁, pc₁⟩, hstop, ⟨⟩⟩ := Option.map_eq_some_iff.mp h
    have hmoves := schedulerStopStep_moves hstop
    cases pc₁ with
    | none => exact hmoves
    | some pc₁ => exact hmoves

theorem SchedulerStopPc.holds_teardown (pc : SchedulerStopPc) :
    pc.stand.holds .teardown = false := by
  cases pc with
  | join pc =>
    have hjoin : (pc.stand .scheduler).holds .teardown = false := pc.holds_stand (by simp)
    simp [SchedulerStopPc.stand, Stand.within, Stand.past, Stand.afterClear, hjoin]
  | _ => rfl

theorem TeardownPc.holds_teardown (pc : TeardownPc) : pc.stand.holds .teardown = false := by
  cases pc with
  | joinBus pc => exact pc.holds_stand (by simp)
  | joinMonitor pc => exact pc.holds_stand (by simp)
  | scheduler pc => exact pc.holds_teardown
  | _ => rfl

/-- A teardown, with its mutex. -/
theorem teardownStep_moves_within {drains : Bool} {pc : TeardownPc} {pc' : Option TeardownPc}
    (h : s.teardownStep t drains pc = some (s', pc')) :
    Moves s s' t (pc.stand.within .teardown).afterLatch
      ((pc'.elim {} TeardownPc.stand).within .teardown).afterLatch :=
  ((teardownStep_moves h).within pc.holds_teardown
    (holds_elim _ _ TeardownPc.holds_teardown)).afterLatch

/-- A step that is no more than a transition of the lifecycle keeps the latch. -/
theorem transition_latch (c : LifecycleController) (newState : SystemState)
    (h : c.isShuttingDown = true) : (c.transition newState).1.isShuttingDown = true := by
  rw [LifecycleController.transition_isShuttingDown]
  exact h

theorem shutdownStep_moves {pc : ShutdownPc} {pc' : Option ShutdownPc}
    (h : s.shutdownStep t pc = some (s', pc')) :
    Moves s s' t pc.stand (pc'.elim {} ShutdownPc.stand) := by
  cases pc with
  | transition =>
    obtain ⟨⟩ := h
    exact .setLifecycle (.over rfl rfl) (transition_latch _ _) rfl rfl rfl rfl
  | latch =>
    obtain ⟨⟩ := h
    exact .setLatch (.over rfl rfl)
  | stopBus =>
    obtain ⟨⟩ := h
    exact .clearFlag (.stay rfl (fun _ => .inl) rfl id .inl)
  | stopMonitor =>
    obtain ⟨⟩ := h
    exact .clearFlag (.stay rfl (fun _ => .inl) rfl id .inl)
  | tryTeardown =>
    simp only [shutdownStep] at h
    split at h
    next =>
      obtain ⟨⟩ := h
      exact .over rfl rfl
    next hlock =>
      obtain ⟨⟩ := h
      exact .lock hlock rfl (fun _ => id) rfl id id
  | teardown pc =>
    obtain ⟨⟨s₁, pc₁⟩, hteardown, ⟨⟩⟩ := Option.map_eq_some_iff.mp h
    have hmoves := teardownStep_moves_within hteardown
    cases pc₁ with
    | none => exact hmoves
    | some pc₁ => exact hmoves
  | clear =>
    obtain ⟨⟩ := h
    exact .stay rfl (fun _ => .inl) rfl id .inl
  | release =>
    obtain ⟨⟩ := h
    exact .unlock rfl rfl (fun _ => id) rfl (fun hl => absurd hl (by simp)) id

theorem stopStep_moves {pc : StopPc} {pc' : Option StopPc} (h : s.stopStep t pc = some (s', pc')) :
    Moves s s' t pc.stand (pc'.elim {} StopPc.stand) := by
  cases pc with
  | check =>
    obtain ⟨⟩ := h
    split
    next => exact .over rfl rfl
    next hworker =>
      refine .stay rfl (fun v _ => .inr ?_) rfl id .inl
      rintro rfl
      exact hworker (by cases v <;> rfl)
  | transition =>
    obtain ⟨⟩ := h
    refine .setLifecycle ?_ (transition_latch _ _) rfl rfl rfl rfl
    split
    · exact .stay rfl (fun _ => .inl) rfl id .inl
    · exact .over rfl rfl
  | latch =>
    obtain ⟨⟩ := h
    have hstay : Moves s s t (Stand.outside {}) (Stand.outside {}) :=
      .stay rfl (fun _ => .inl) rfl id .inl
    exact hstay.setLatch
  | stopBus =>
    obtain ⟨⟩ := h
    exact .clearFlag (.stay rfl (fun _ => .inl) rfl id .inl)
  | stopMonitor =>
    obtain ⟨⟩ := h
    exact .clearFlag (.stay rfl (fun _ => .inl) rfl id .inl)
  | acquire =>
    obtain ⟨s₁, hlock, ⟨⟩⟩ := Option.map_eq_some_iff.mp h
    exact .lock hlock rfl (fun _ => id) rfl id id
  | teardown pc =>
    obtain ⟨⟨s₁, pc₁⟩, hteardown, ⟨⟩⟩ := Option.map_eq_some_iff.mp h
    have hmoves := (teardownStep_moves_within hteardown).outside
    cases pc₁ with
    | none => exact hmoves
    | some pc₁ => exact hmoves
  | cleanup =>
    obtain ⟨⟩ := h
    exact .setLifecycle (.stay rfl (fun _ => .inl) rfl id .inl) id rfl rfl rfl rfl
  | release =>
    obtain ⟨⟩ := h
    exact .unlock rfl rfl (fun _ => id) rfl id id
  | finish =>
    obtain ⟨⟩ := h
    exact .setLifecycle (.over rfl rfl) (transition_latch _ _) rfl rfl rfl rfl
  | abandon =>
    obtain ⟨⟩ := h
    exact .unlock rfl rfl (fun _ => id) rfl (fun hl => absurd hl (by simp [StopPc.stand,
      ShutdownPc.stand, Stand.outside])) id
  | shutdown pc =>
    obtain ⟨⟨s₁, pc₁⟩, hshutdown, ⟨⟩⟩ := Option.map_eq_some_iff.mp h
    have hmoves := shutdownStep_moves hshutdown
    cases pc₁ with
    | none =>
      exact { hmoves with avoids := fun _ hv => absurd hv (by simp) }
    | some pc₁ => exact hmoves.outside

theorem recoverStep_moves {spawned : Bool} {pc : RecoverPc} {pc' : Option RecoverPc}
    (h : s.recoverStep t spawned pc = some (s', pc')) :
    Moves s s' t pc.stand (pc'.elim {} RecoverPc.stand) := by
  cases pc with
  | stop pc =>
    obtain ⟨⟨s₁, pc₁⟩, hstop, ⟨⟩⟩ := Option.map_eq_some_iff.mp h
    have hmoves := schedulerStopStep_moves hstop
    cases pc₁ with
    | none => exact hmoves
    | some pc₁ => exact hmoves
  | start pc =>
    obtain ⟨⟨s₁, pc₁⟩, hstart, ⟨⟩⟩ := Option.map_eq_some_iff.mp h
    have hmoves := schedulerStartStep_moves hstart
    cases pc₁ with
    | none => exact hmoves
    | some pc₁ => exact hmoves

/-- **What a step of a call can do.** -/
theorem callStep_moves {spawned : Bool} {call : Call} {call' : Option Call}
    (h : s.callStep t spawned call = some (s', call')) :
    Moves s s' t call.stand (standOf call') := by
  cases call with
  | shutdown pc =>
    obtain ⟨⟨s₁, pc₁⟩, hstep, ⟨⟩⟩ := Option.map_eq_some_iff.mp h
    have hmoves := shutdownStep_moves hstep
    cases pc₁ with
    | none => exact hmoves
    | some pc₁ => exact hmoves
  | stop pc =>
    obtain ⟨⟨s₁, pc₁⟩, hstep, ⟨⟩⟩ := Option.map_eq_some_iff.mp h
    have hmoves := stopStep_moves hstep
    cases pc₁ with
    | none => exact hmoves
    | some pc₁ => exact hmoves
  | recover pc =>
    obtain ⟨⟨s₁, pc₁⟩, hstep, ⟨⟩⟩ := Option.map_eq_some_iff.mp h
    have hmoves := recoverStep_moves hstep
    cases pc₁ with
    | none => exact hmoves
    | some pc₁ => exact hmoves

/-! ## The order of the mutexes -/

/-- What a position has, what it waits for, and whom it joins. -/
structure Stand.Orderly (p : Stand) : Prop where
  /-- no mutex is taken twice -/
  fresh : ∀ x, p.waits = some x → p.holds x = false
  waits_handle : ∀ w, p.waits = some (.handle w) → p.avoids w = true
  waits_lifecycle : p.waits = some .lifecycle → p.avoids .scheduler = true
  joins_avoids : ∀ w, p.joins = some w → p.avoids w = true
  /-- the scheduler's handle within its lifecycle mutex -/
  holds_handle : p.holds (.handle .scheduler) = true → p.holds .lifecycle = true
  waits_handle_scheduler : p.waits = some (.handle .scheduler) → p.holds .lifecycle = true
  joins_holds : ∀ w, p.joins = some w → p.holds (.handle w) = true
  joins_cleared : p.joins = some .scheduler → p.cleared = true
  /-- the scheduler's flag is its lifecycle's -/
  cleared : p.cleared = true → p.holds .lifecycle = true
  /-- the scheduler last -/
  joins_early : ∀ w, p.joins = some w → w ≠ .scheduler → p.holds .lifecycle = false
  /-- the teardown mutex first, and by no worker -/
  waits_teardown : p.waits = some .teardown → (∀ x, p.holds x = false) ∧ ∀ w, p.avoids w = true

theorem Stand.Orderly.empty : Stand.Orderly {} := by
  constructor <;> simp

theorem SchedulerStopPc.orderly (pc : SchedulerStopPc) : pc.stand.Orderly := by
  cases pc with
  | join pc =>
    cases pc <;> constructor <;>
      simp [SchedulerStopPc.stand, JoinPc.stand, Stand.within, Stand.past, Stand.afterClear]
  | _ =>
    constructor <;> simp [SchedulerStopPc.stand, Stand.within, Stand.past, Stand.afterClear]

theorem SchedulerStartPc.orderly (pc : SchedulerStartPc) : pc.stand.Orderly := by
  cases pc <;> constructor <;>
    simp [SchedulerStartPc.stand, Stand.within, Stand.past, Stand.afterClear]

theorem JoinPc.orderly (pc : JoinPc) (hw : w ≠ .scheduler) : (pc.stand w).Orderly := by
  cases pc <;> constructor <;> simp [JoinPc.stand, Stand.within, Stand.past, hw, Ne.symm hw]

theorem TeardownPc.orderly (pc : TeardownPc) : pc.stand.Orderly := by
  cases pc with
  | joinBus pc => exact pc.orderly (by simp)
  | joinMonitor pc => exact pc.orderly (by simp)
  | scheduler pc => exact pc.orderly
  | _ => exact Stand.Orderly.empty

theorem Stand.Orderly.outside (hp : p.Orderly) : p.outside.Orderly :=
  { hp with
    waits_handle := fun _ _ => rfl
    waits_lifecycle := fun _ => rfl
    joins_avoids := fun _ _ => rfl
    waits_teardown := fun hx => ⟨(hp.waits_teardown hx).1, fun _ => rfl⟩ }

/-- What does not wait for the teardown mutex may have it. -/
theorem Stand.Orderly.within_teardown (hp : p.Orderly) (hx : p.waits ≠ some .teardown) :
    (p.within .teardown).Orderly :=
  { hp with
    fresh := fun x hwaits => by
      have hne : x ≠ .teardown := by
        rintro rfl
        exact hx hwaits
      simp only [within, beq_false_of_ne hne, Bool.false_or]
      exact hp.fresh x hwaits
    joins_holds := fun w hw => by
      simp only [within, hp.joins_holds w hw, Bool.or_true]
    waits_teardown := fun hwaits => absurd hwaits hx }

theorem JoinPc.waits_stand (pc : JoinPc) (h : (pc.stand w).waits = some x) : x = .handle w := by
  cases pc <;> simp_all [JoinPc.stand, Stand.within, Stand.past]

theorem SchedulerStopPc.waits_ne (pc : SchedulerStopPc) : pc.stand.waits ≠ some .teardown := by
  cases pc with
  | join pc =>
    intro hx
    cases pc.waits_stand (w := .scheduler) hx
  | _ => simp [SchedulerStopPc.stand, Stand.within, Stand.past, Stand.afterClear]

theorem TeardownPc.waits_ne (pc : TeardownPc) : pc.stand.waits ≠ some .teardown := by
  cases pc with
  | joinBus pc =>
    intro hx
    cases pc.waits_stand (w := .dispatch) hx
  | joinMonitor pc =>
    intro hx
    cases pc.waits_stand (w := .monitor) hx
  | scheduler pc => exact pc.waits_ne
  | _ => simp [TeardownPc.stand]

theorem ShutdownPc.orderly (pc : ShutdownPc) : pc.stand.Orderly := by
  have hteardown (p : Stand) (hp : p.Orderly) (hx : p.waits ≠ some .teardown) :
      (p.within .teardown).afterLatch.Orderly := { hp.within_teardown hx with }
  cases pc with
  | teardown pc => exact hteardown _ pc.orderly pc.waits_ne
  | clear => exact hteardown _ .empty (by simp)
  | release => exact hteardown _ .empty (by simp)
  | _ => exact { Stand.Orderly.empty with }

theorem StopPc.orderly (pc : StopPc) : pc.stand.Orderly := by
  have hteardown (p : Stand) (hp : p.Orderly) (hx : p.waits ≠ some .teardown) :
      (p.within .teardown).afterLatch.outside.Orderly :=
    Stand.Orderly.outside { hp.within_teardown hx with }
  cases pc with
  | check => exact .empty
  | acquire => constructor <;> simp [StopPc.stand, Stand.outside, Stand.afterLatch]
  | teardown pc => exact hteardown _ pc.orderly pc.waits_ne
  | cleanup => exact hteardown _ .empty (by simp)
  | release => exact hteardown _ .empty (by simp)
  | abandon => exact hteardown _ .empty (by simp)
  | shutdown pc => exact pc.orderly.outside
  | _ => exact Stand.Orderly.outside { Stand.Orderly.empty with }

/-- **Every position is orderly.** -/
theorem orderly_standOf (call : Option Call) : (standOf call).Orderly := by
  cases call with
  | none => exact .empty
  | some call =>
    cases call with
    | shutdown pc => exact pc.orderly
    | stop pc => exact pc.orderly
    | recover pc =>
      cases pc with
      | stop pc => exact pc.orderly
      | start pc => exact pc.orderly

/-- A position has to do with no mutex but the teardown's, and joins nobody. -/
structure Stand.Idle (p : Stand) : Prop where
  holds : ∀ x, x ≠ .teardown → p.holds x = false
  waits : ∀ x, x ≠ .teardown → p.waits ≠ some x
  joins : p.joins = none

/-- A position has to do with the scheduler's mutexes only. -/
structure Stand.Scheduling (p : Stand) : Prop where
  holds : ∀ x, p.holds x = true → x = .lifecycle ∨ x = .handle .scheduler
  waits : ∀ x, p.waits = some x → x = .lifecycle ∨ x = .handle .scheduler
  joins : ∀ w, p.joins = some w → w = .scheduler

theorem SchedulerStopPc.scheduling (pc : SchedulerStopPc) : pc.stand.Scheduling := by
  cases pc with
  | join pc =>
    cases pc <;> constructor <;>
      simp [SchedulerStopPc.stand, JoinPc.stand, Stand.within, Stand.past, Stand.afterClear]
  | _ => constructor <;> simp [SchedulerStopPc.stand, Stand.within, Stand.past, Stand.afterClear]

theorem SchedulerStartPc.scheduling (pc : SchedulerStartPc) : pc.stand.Scheduling := by
  cases pc <;> constructor <;>
    simp [SchedulerStartPc.stand, Stand.within, Stand.past, Stand.afterClear]

theorem RecoverPc.scheduling (pc : RecoverPc) : pc.stand.Scheduling := by
  cases pc with
  | stop pc => exact pc.scheduling
  | start pc => exact pc.scheduling

theorem ShutdownPc.idle_or (pc : ShutdownPc) : pc.stand.Idle ∨ pc.stand.holds .teardown = true := by
  cases pc with
  | teardown pc => exact .inr rfl
  | clear => exact .inr rfl
  | release => exact .inr rfl
  | _ => exact .inl (by constructor <;> simp [ShutdownPc.stand, Stand.afterLatch])

theorem StopPc.idle_or (pc : StopPc) : pc.stand.Idle ∨ pc.stand.holds .teardown = true := by
  cases pc with
  | teardown pc => exact .inr rfl
  | cleanup => exact .inr rfl
  | release => exact .inr rfl
  | abandon => exact .inr rfl
  | shutdown pc => exact pc.idle_or.imp_left fun hidle => { hidle with }
  | acquire =>
    refine .inl ⟨fun _ _ => rfl, fun x hx hwaits => hx ?_, rfl⟩
    exact (Option.some.inj hwaits).symm
  | _ => exact .inl (by constructor <;> simp [StopPc.stand, Stand.outside, Stand.afterLatch])

/-- **A call is idle, has the teardown mutex, or is a recovery.** -/
theorem idle_or (call : Option Call) : (standOf call).Idle ∨ (standOf call).holds .teardown = true ∨
    (∃ pc, call = some (.recover pc)) ∧ (standOf call).Scheduling := by
  cases call with
  | none => exact .inl (by constructor <;> simp [standOf])
  | some call =>
    cases call with
    | shutdown pc => exact pc.idle_or.imp_right .inl
    | stop pc => exact pc.idle_or.imp_right .inl
    | recover pc => exact .inr (.inr ⟨⟨pc, rfl⟩, pc.scheduling⟩)

/-! ## The lifecycle's state -/

/-- A step that has to do with the threads only. -/
structure Keeps (s s' : ShutdownTraffic) : Prop where
  lifecycle : s'.lifecycle = s.lifecycle
  emergency : s'.emergency = s.emergency
  accepted : s'.accepted = s.accepted

theorem Keeps.refl (s : ShutdownTraffic) : Keeps s s := ⟨rfl, rfl, rfl⟩

theorem keeps_lock (h : s.lock t x = some s') : Keeps s s' := by
  rw [(lock_eq_some h).2]
  exact ⟨rfl, rfl, rfl⟩

theorem joinStep_keeps {pc : JoinPc} {pc' : Option JoinPc} (h : s.joinStep t w pc = some (s', pc')) :
    Keeps s s' := by
  cases pc with
  | lock =>
    obtain ⟨s₁, hlock, heq⟩ := Option.map_eq_some_iff.mp h
    obtain ⟨rfl, -⟩ := Prod.mk.inj heq
    exact keeps_lock hlock
  | join =>
    simp only [joinStep] at h
    split at h
    · cases h
    · exact (pair_inj h).1 ▸ ⟨rfl, rfl, rfl⟩
    · exact (pair_inj h).1 ▸ ⟨rfl, rfl, rfl⟩
  | _ => exact (pair_inj h).1 ▸ ⟨rfl, rfl, rfl⟩

theorem schedulerStopStep_keeps {pc : SchedulerStopPc} {pc' : Option SchedulerStopPc}
    (h : s.schedulerStopStep t pc = some (s', pc')) : Keeps s s' := by
  cases pc with
  | lock =>
    obtain ⟨s₁, hlock, heq⟩ := Option.map_eq_some_iff.mp h
    obtain ⟨rfl, -⟩ := Prod.mk.inj heq
    exact keeps_lock hlock
  | join pc =>
    obtain ⟨⟨s₁, pc₁⟩, hjoin, heq⟩ := Option.map_eq_some_iff.mp h
    obtain ⟨rfl, -⟩ := Prod.mk.inj heq
    exact joinStep_keeps hjoin
  | _ => exact (pair_inj h).1 ▸ ⟨rfl, rfl, rfl⟩

theorem schedulerStartStep_keeps {spawned : Bool} {pc : SchedulerStartPc}
    {pc' : Option SchedulerStartPc} (h : s.schedulerStartStep t spawned pc = some (s', pc')) :
    Keeps s s' := by
  cases pc with
  | lock =>
    obtain ⟨s₁, hlock, heq⟩ := Option.map_eq_some_iff.mp h
    obtain ⟨rfl, -⟩ := Prod.mk.inj heq
    exact keeps_lock hlock
  | lockHandle =>
    obtain ⟨s₁, hlock, heq⟩ := Option.map_eq_some_iff.mp h
    obtain ⟨rfl, -⟩ := Prod.mk.inj heq
    exact keeps_lock hlock
  | lockTuning =>
    obtain ⟨s₁, hlock, heq⟩ := Option.map_eq_some_iff.mp h
    obtain ⟨rfl, -⟩ := Prod.mk.inj heq
    exact keeps_lock hlock
  | joinStale =>
    simp only [schedulerStartStep] at h
    split at h
    · cases h
    · exact (pair_inj h).1 ▸ ⟨rfl, rfl, rfl⟩
    · exact (pair_inj h).1 ▸ ⟨rfl, rfl, rfl⟩
  | spawn =>
    obtain ⟨rfl, -⟩ := pair_inj h
    cases spawned <;> exact ⟨rfl, rfl, rfl⟩
  | _ => exact (pair_inj h).1 ▸ ⟨rfl, rfl, rfl⟩

theorem teardownStep_keeps {drains : Bool} {pc : TeardownPc} {pc' : Option TeardownPc}
    (h : s.teardownStep t drains pc = some (s', pc')) : Keeps s s' := by
  cases pc with
  | joinBus pc =>
    obtain ⟨⟨s₁, pc₁⟩, hjoin, heq⟩ := Option.map_eq_some_iff.mp h
    obtain ⟨rfl, -⟩ := Prod.mk.inj heq
    exact joinStep_keeps hjoin
  | joinMonitor pc =>
    obtain ⟨⟨s₁, pc₁⟩, hjoin, heq⟩ := Option.map_eq_some_iff.mp h
    obtain ⟨rfl, -⟩ := Prod.mk.inj heq
    exact joinStep_keeps hjoin
  | scheduler pc =>
    obtain ⟨⟨s₁, pc₁⟩, hstop, heq⟩ := Option.map_eq_some_iff.mp h
    obtain ⟨rfl, -⟩ := Prod.mk.inj heq
    exact schedulerStopStep_keeps hstop
  | _ => exact (pair_inj h).1 ▸ ⟨rfl, rfl, rfl⟩

theorem recoverStep_keeps {spawned : Bool} {pc : RecoverPc} {pc' : Option RecoverPc}
    (h : s.recoverStep t spawned pc = some (s', pc')) : Keeps s s' := by
  cases pc with
  | stop pc =>
    obtain ⟨⟨s₁, pc₁⟩, hstop, heq⟩ := Option.map_eq_some_iff.mp h
    obtain ⟨rfl, -⟩ := Prod.mk.inj heq
    exact schedulerStopStep_keeps hstop
  | start pc =>
    obtain ⟨⟨s₁, pc₁⟩, hstart, heq⟩ := Option.map_eq_some_iff.mp h
    obtain ⟨rfl, -⟩ := Prod.mk.inj heq
    exact schedulerStartStep_keeps hstart

/-- A `stop()` between its transitions, or before the one of its emergency shutdown. -/
def Call.stopping : Call → Bool
  | .stop .check => false
  | .stop .transition => false
  | .stop (.shutdown .transition) => true
  | .stop (.shutdown _) => false
  | .stop _ => true
  | _ => false

/-- **What a step can do to the lifecycle's state.** -/
inductive Records (s s' : ShutdownTraffic) (call : Call) (call' : Option Call) : Prop
  | keep (state : s'.lifecycle.currentState = s.lifecycle.currentState)
      (emergency : s'.emergency = s.emergency) (accepted : s'.accepted = s.accepted)
      (stopping : call.stopping = true → call'.any Call.stopping = true)
  | emergency (state : s'.lifecycle.currentState = .fatalError) (emergency : s'.emergency = true)
  | accept (valid : validTransition s.lifecycle.currentState .stopping = true)
      (state : s'.lifecycle.currentState = .stopping) (emergency : s'.emergency = s.emergency)
      (stopping : call'.any Call.stopping = true)
  | finish (state : s'.lifecycle = (s.lifecycle.transition .stopped).1)
      (emergency : s'.emergency = s.emergency) (accepted : s'.accepted = s.accepted)

theorem Keeps.records {call : Call} {call' : Option Call} (h : Keeps s s')
    (hstopping : call.stopping = true → call'.any Call.stopping = true) : Records s s' call call' :=
  .keep (by rw [h.lifecycle]) h.emergency h.accepted hstopping

/-- An emergency shutdown after its transition, or with it. -/
theorem shutdownStep_records {pc : ShutdownPc} {pc' : Option ShutdownPc}
    (h : s.shutdownStep t pc = some (s', pc')) :
    (s'.lifecycle.currentState = .fatalError ∧ s'.emergency = true) ∨
      pc ≠ .transition ∧ s'.lifecycle.currentState = s.lifecycle.currentState ∧
        s'.emergency = s.emergency ∧ s'.accepted = s.accepted := by
  cases pc with
  | transition =>
    obtain ⟨rfl, -⟩ := pair_inj h
    exact .inl ⟨by rw [LifecycleController.transition_fatalError], rfl⟩
  | tryTeardown =>
    simp only [shutdownStep] at h
    split at h
    next =>
      obtain ⟨rfl, -⟩ := pair_inj h
      exact .inr ⟨by simp, rfl, rfl, rfl⟩
    next hlock =>
      obtain ⟨rfl, -⟩ := pair_inj h
      have hkeeps := keeps_lock hlock
      exact .inr ⟨by simp, by rw [hkeeps.lifecycle], hkeeps.emergency, hkeeps.accepted⟩
  | teardown pc =>
    obtain ⟨⟨s₁, pc₁⟩, hteardown, heq⟩ := Option.map_eq_some_iff.mp h
    obtain ⟨rfl, -⟩ := Prod.mk.inj heq
    have hkeeps := teardownStep_keeps hteardown
    exact .inr ⟨by simp, by rw [hkeeps.lifecycle], hkeeps.emergency, hkeeps.accepted⟩
  | _ =>
    obtain ⟨rfl, -⟩ := pair_inj h
    exact .inr ⟨by simp, rfl, rfl, rfl⟩

theorem stopStep_records {pc : StopPc} {pc' : Option StopPc} (h : s.stopStep t pc = some (s', pc')) :
    Records s s' (.stop pc) (pc'.map .stop) := by
  cases pc with
  | check =>
    obtain ⟨⟩ := h
    exact (Keeps.refl s).records fun hstopping => absurd hstopping (by simp [Call.stopping])
  | transition =>
    obtain ⟨⟩ := h
    cases hvalid : validTransition s.lifecycle.currentState .stopping with
    | true =>
      rw [LifecycleController.transition_of_valid hvalid]
      exact .accept hvalid rfl rfl rfl
    | false =>
      rw [LifecycleController.transition_of_not_valid hvalid]
      exact .keep rfl rfl (Bool.or_false _) fun hstopping => absurd hstopping (by simp [Call.stopping])
  | acquire =>
    obtain ⟨s₁, hlock, ⟨⟩⟩ := Option.map_eq_some_iff.mp h
    exact (keeps_lock hlock).records fun _ => rfl
  | teardown pc =>
    obtain ⟨⟨s₁, pc₁⟩, hteardown, ⟨⟩⟩ := Option.map_eq_some_iff.mp h
    refine (teardownStep_keeps hteardown).records fun _ => ?_
    cases pc₁ <;> rfl
  | finish =>
    obtain ⟨⟩ := h
    exact .finish rfl rfl rfl
  | shutdown pc =>
    obtain ⟨⟨s₁, pc₁⟩, hshutdown, ⟨⟩⟩ := Option.map_eq_some_iff.mp h
    rcases shutdownStep_records hshutdown with ⟨hstate, hemergency⟩ | ⟨hpc, hstate, hrest⟩
    · exact .emergency hstate hemergency
    · refine .keep hstate hrest.1 hrest.2 fun hstopping => absurd hstopping ?_
      cases pc with
      | transition => exact absurd rfl hpc
      | _ => simp [Call.stopping]
  | _ =>
    obtain ⟨⟩ := h
    exact .keep rfl rfl rfl fun _ => rfl

theorem callStep_records {spawned : Bool} {call : Call} {call' : Option Call}
    (h : s.callStep t spawned call = some (s', call')) : Records s s' call call' := by
  cases call with
  | shutdown pc =>
    obtain ⟨⟨s₁, pc₁⟩, hstep, ⟨⟩⟩ := Option.map_eq_some_iff.mp h
    rcases shutdownStep_records hstep with ⟨hstate, hemergency⟩ | ⟨-, hstate, hrest⟩
    · exact .emergency hstate hemergency
    · exact .keep hstate hrest.1 hrest.2 fun hstopping => absurd hstopping (by simp [Call.stopping])
  | stop pc =>
    obtain ⟨⟨s₁, pc₁⟩, hstep, ⟨⟩⟩ := Option.map_eq_some_iff.mp h
    exact stopStep_records hstep
  | recover pc =>
    obtain ⟨⟨s₁, pc₁⟩, hstep, ⟨⟩⟩ := Option.map_eq_some_iff.mp h
    exact (recoverStep_keeps hstep).records fun hstopping => absurd hstopping (by simp [Call.stopping])

/-! ## What must hold -/

def ShutdownPc.tearsDown : ShutdownPc → Bool
  | teardown _ => true
  | clear => true
  | _ => false

def StopPc.tearsDown : StopPc → Bool
  | teardown _ => true
  | cleanup => true
  | shutdown pc => pc.tearsDown
  | _ => false

/-- The call takes components apart: the event queue, the timing controller or the units. -/
def Call.tearsDown : Call → Bool
  | shutdown pc => pc.tearsDown
  | stop pc => pc.tearsDown
  | recover _ => false

variable (s)

def standAt (t : Thread) : Stand := standOf (s.calls t)

/-- A thread waits for another: for a mutex that it has, or for its loop to return. -/
def WaitsFor (t u : Thread) : Prop :=
  (∃ x, (s.standAt t).waits = some x ∧ s.owner x = some u) ∨
    ∃ w : Worker, (s.standAt t).joins = some w ∧ (s.handle w).alive = true ∧ u = w.thread

/-- **A sound shutdown**: no thread joins itself, or whom another joins; there is no deadlock, and a
loop that is joined has been told to return; who takes components apart has the teardown mutex; an
emergency shutdown leaves `FATAL_ERROR`; without one a `stop()` that was accepted has come to
`STOPPED` when all calls have returned. -/
structure Sound : Prop where
  not_self : ∀ t w, (s.standAt t).joins = some w → t ≠ w.thread
  single : ∀ t u w, (s.standAt t).joins = some w → (s.standAt u).joins = some w → t = u
  not_deadlock : ¬ Deadlock s.WaitsFor
  told : ∀ t w, (s.standAt t).joins = some w → s.loopCondition w = false
  owner : ∀ t call, s.calls t = some call → call.tearsDown = true → s.owner .teardown = some t
  fatal : s.emergency = true → s.lifecycle.currentState = .fatalError
  stopped : (∀ t, s.calls t = none) → s.accepted = true → s.emergency = false →
    s.lifecycle.currentState = .stopped

/-- **The condition**: a thread does not come to the join of a worker that is in the join of it. -/
def Spares : Label → Prop
  | .advance t _ => ∀ v w : Worker, (s.standAt t).comesToJoin = some v →
      (s.standAt v.thread).joins = some w → t ≠ w.thread
  | _ => True

/-- What holds along the runs that meet the condition. -/
structure Inv : Prop where
  owns : ∀ x, Owns (s.owner x) s.calls fun call => (standOf call).holds x
  alive : ∀ w : Worker, s.calls w.thread ≠ none → (s.handle w).alive = true
  recovers : ∀ t pc, s.calls t = some (.recover pc) → t = .monitor
  avoids : ∀ t w, (s.standAt t).avoids w = true → t ≠ w.thread
  latched : ∀ t, (s.standAt t).latched = true → s.lifecycle.isShuttingDown = true
  cleared : ∀ t, (s.standAt t).cleared = true → s.flag .scheduler = false
  apart : ∀ t v w, (s.standAt t).joins = some v → (s.standAt v.thread).joins = some w → t ≠ w.thread
  fatal : s.emergency = true → s.lifecycle.currentState = .fatalError
  stopping : s.accepted = true → s.emergency = false → s.lifecycle.currentState = .stopped ∨
    s.lifecycle.currentState = .stopping ∧ ∃ t, (s.calls t).any Call.stopping = true

variable {s}

theorem calls_setCall_self {call : Option Call} : (s.setCall t call).calls t = call :=
  Function.update_self ..

theorem calls_setCall_of_ne {u : Thread} {call : Option Call} (hu : u ≠ t) :
    (s.setCall t call).calls u = s.calls u := Function.update_of_ne hu ..

theorem standAt_setCall_self {call : Option Call} : (s.setCall t call).standAt t = standOf call :=
  congrArg standOf calls_setCall_self

theorem standAt_setCall_of_ne {u : Thread} {call : Option Call} (hu : u ≠ t) :
    (s.setCall t call).standAt u = s.standAt u := congrArg standOf (calls_setCall_of_ne hu)

/-- **A thread steps.** -/
theorem Inv.go {s₁ : ShutdownTraffic} {call' : Option Call} (hI : s.Inv)
    (hmoves : Moves s s₁ t (s.standAt t) (standOf call'))
    (hpresent : ∀ w : Worker, w.thread = t → (s.handle w).alive = true)
    (hrecovers : ∀ pc, call' = some (.recover pc) → t = .monitor)
    (hspares : ∀ v w : Worker, (s.standAt t).comesToJoin = some v →
      (s.standAt v.thread).joins = some w → t ≠ w.thread)
    (hfatal : s₁.emergency = true → s₁.lifecycle.currentState = .fatalError)
    (hstopping : s₁.accepted = true → s₁.emergency = false → s₁.lifecycle.currentState = .stopped ∨
      s₁.lifecycle.currentState = .stopping ∧
        ∃ u, ((s₁.setCall t call').calls u).any Call.stopping = true) :
    (s₁.setCall t call').Inv := by
  have hcalls : ∀ u, u ≠ t → (s₁.setCall t call').standAt u = s.standAt u := fun u hu => by
    rw [standAt_setCall_of_ne hu, standAt, hmoves.calls_eq, standAt]
  have havoids : ∀ u w, ((s₁.setCall t call').standAt u).avoids w = true → u ≠ w.thread := by
    intro u w hw
    by_cases hu : u = t
    · subst hu
      rw [standAt_setCall_self] at hw
      exact (hmoves.avoids w hw).elim (hI.avoids u w) id
    · exact hI.avoids u w (hcalls u hu ▸ hw)
  refine ⟨fun x => ?_, fun w hw => ?_, fun u pc hu => ?_, havoids, fun u hu => ?_, fun u hu => ?_,
    fun u v w huv hvw => ?_, hfatal, hstopping⟩
  · have howns := (hI.owns x).step (hmoves.owner x)
    rw [← hmoves.calls_eq] at howns
    exact howns
  · refine hmoves.alive w ?_
    by_cases hwt : w.thread = t
    · exact hpresent w hwt
    · refine hI.alive w fun hnone => hw ?_
      rw [calls_setCall_of_ne hwt, hmoves.calls_eq, hnone]
  · by_cases hut : u = t
    · subst hut
      rw [calls_setCall_self] at hu
      exact hrecovers pc hu
    · rw [calls_setCall_of_ne hut, hmoves.calls_eq] at hu
      exact hI.recovers u pc hu
  · by_cases hut : u = t
    · subst hut
      rw [standAt_setCall_self] at hu
      exact (hmoves.latched hu).elim (fun hp => hmoves.latch (hI.latched u hp)) id
    · exact hmoves.latch (hI.latched u (hcalls u hut ▸ hu))
  · refine Bool.eq_false_iff.mpr fun hset => ?_
    by_cases hut : u = t
    · subst hut
      rw [standAt_setCall_self] at hu
      rcases hmoves.cleared hu with hp | hclear
      · rcases hmoves.flag hset with hs | ⟨-, hnot⟩
        · exact absurd (hI.cleared u hp) (by simp [hs])
        · exact absurd hu (by simp [hnot])
      · exact absurd hclear (by simp [show s₁.flag .scheduler = true from hset])
    · rw [hcalls u hut] at hu
      rcases hmoves.flag hset with hs | ⟨hlifecycle, -⟩
      · exact absurd (hI.cleared u hu) (by simp [hs])
      · exact hut ((hI.owns .lifecycle).unique ((orderly_standOf _).cleared hu) hlifecycle)
  · by_cases hut : u = t
    · subst hut
      have hne : v.thread ≠ u := fun heq => havoids u v ((orderly_standOf _).joins_avoids v huv) heq.symm
      rw [standAt_setCall_self, hmoves.joins] at huv
      rw [hcalls _ hne] at hvw
      exact hspares v w huv hvw
    · rw [hcalls u hut] at huv
      by_cases hvt : v.thread = t
      · subst hvt
        rw [standAt_setCall_self, hmoves.joins] at hvw
        rintro rfl
        exact hspares w v hvw huv rfl
      · rw [hcalls _ hvt] at hvw
        exact hI.apart u v w huv hvw

/-- What a step leaves of the lifecycle's state. -/
theorem Inv.records {s₁ : ShutdownTraffic} {call : Call} {call' : Option Call} (hI : s.Inv)
    (hc : s.calls t = some call) (h : Records s s₁ call call') (hcalls : s₁.calls = s.calls) :
    (s₁.emergency = true → s₁.lifecycle.currentState = .fatalError) ∧
      (s₁.accepted = true → s₁.emergency = false → s₁.lifecycle.currentState = .stopped ∨
        s₁.lifecycle.currentState = .stopping ∧
          ∃ u, ((s₁.setCall t call').calls u).any Call.stopping = true) := by
  cases h with
  | keep state emergency accepted stopping =>
    rw [state, emergency, accepted]
    refine ⟨hI.fatal, fun ha he => (hI.stopping ha he).imp_right fun ⟨hstate, u, hu⟩ => ⟨hstate, ?_⟩⟩
    by_cases hut : u = t
    · subst hut
      rw [hc] at hu
      exact ⟨u, by rw [calls_setCall_self]; exact stopping hu⟩
    · exact ⟨u, by rw [calls_setCall_of_ne hut, hcalls]; exact hu⟩
  | emergency state emergency =>
    exact ⟨fun _ => state, fun _ he => absurd he (by simp [emergency])⟩
  | accept valid state emergency stopping =>
    constructor
    · intro he
      rw [emergency] at he
      rw [hI.fatal he] at valid
      cases valid
    · exact fun _ _ => .inr ⟨state, t, by rw [calls_setCall_self]; exact stopping⟩
  | finish state emergency accepted =>
    rw [state, emergency, accepted]
    constructor
    · intro he
      rw [LifecycleController.transition_of_not_valid (by rw [hI.fatal he]; rfl)]
      exact hI.fatal he
    · intro ha he
      rcases hI.stopping ha he with hstopped | ⟨hstopping, -⟩
      · rw [LifecycleController.transition_of_not_valid (by rw [hstopped]; rfl)]
        exact .inl hstopped
      · rw [LifecycleController.transition_of_valid (by rw [hstopping]; rfl)]
        exact .inl rfl

theorem RecoverPc.step_recover {spawned : Bool} {call : Call} {call' : Option Call}
    (h : s.callStep t spawned call = some (s', call')) {pc' : RecoverPc}
    (hpc' : call' = some (.recover pc')) : ∃ pc, call = .recover pc := by
  cases call with
  | recover pc => exact ⟨pc, rfl⟩
  | shutdown pc =>
    obtain ⟨⟨s₁, pc₁⟩, -, heq⟩ := Option.map_eq_some_iff.mp h
    obtain ⟨-, rfl⟩ := Prod.mk.inj heq
    obtain ⟨pc₂, -, hpc⟩ := Option.map_eq_some_iff.mp hpc'
    cases hpc
  | stop pc =>
    obtain ⟨⟨s₁, pc₁⟩, -, heq⟩ := Option.map_eq_some_iff.mp h
    obtain ⟨-, rfl⟩ := Prod.mk.inj heq
    obtain ⟨pc₂, -, hpc⟩ := Option.map_eq_some_iff.mp hpc'
    cases hpc

theorem worker?_thread (w : Worker) : worker? w.thread = some w := by
  cases w <;> rfl

theorem stand_beginning (c : Beginning) : c.call.stand = {} := by
  cases c <;> rfl

/-- An exception leads from one position with the teardown mutex to another. -/
theorem thrown_spec {call call' : Call} (h : thrown call = some call') :
    call.stand = ((Stand.within {} .teardown).afterLatch).outside ∧
      call'.stand = ((Stand.within {} .teardown).afterLatch).outside ∧
      call'.stopping = true ∧ ∀ pc, call' ≠ .recover pc := by
  unfold thrown at h
  split at h
  case h_5 => cases h
  all_goals
    obtain ⟨⟩ := h
    exact ⟨rfl, rfl, rfl, by simp⟩

/-- **A step that meets the condition keeps what holds.** -/
theorem step_inv {label : Label} (hI : s.Inv) (hG : s.Spares label) (hstep : s.step label = some s') :
    s'.Inv := by
  cases label with
  | begin t c =>
    simp only [step] at hstep
    split at hstep
    next hidle =>
      obtain ⟨⟩ := hstep
      obtain ⟨hnone, hpresent, hrecovery⟩ := hidle
      have hstand : s.standAt t = {} := by rw [standAt, hnone]; rfl
      refine hI.go (t := t) ?_ (fun w hw => ?_) (fun pc hpc => ?_) (fun v w hv => ?_) hI.fatal
        fun ha he => (hI.stopping ha he).imp_right fun ⟨hstate, u, hu⟩ => ⟨hstate, u, ?_⟩
      · rw [hstand]
        change Moves s s t {} c.call.stand
        rw [stand_beginning]
        exact .over rfl rfl
      · subst hw
        rwa [worker?_thread] at hpresent
      · cases c with
        | attemptRecovery => exact (hrecovery rfl).1
        | _ => cases hpc
      · rw [hstand] at hv
        cases hv
      · have hut : u ≠ t := by
          rintro rfl
          rw [hnone] at hu
          cases hu
        rw [calls_setCall_of_ne hut]
        exact hu
    next => cases hstep
  | advance t spawned =>
    obtain ⟨call, hc, hadvance⟩ := Option.bind_eq_some_iff.mp hstep
    obtain ⟨⟨s₁, call'⟩, hcall, rfl⟩ := Option.map_eq_some_iff.mp hadvance
    have hmoves := callStep_moves hcall
    obtain ⟨hfatal, hstopping⟩ := hI.records hc (callStep_records hcall) hmoves.calls_eq
    have hstand : s.standAt t = call.stand := by rw [standAt, hc]; rfl
    refine hI.go (hstand ▸ hmoves) (fun w hw => ?_) (fun pc hpc => ?_) hG hfatal hstopping
    · refine hI.alive w ?_
      rw [hw, hc]
      simp
    · obtain ⟨pc, rfl⟩ := RecoverPc.step_recover hcall hpc
      exact hI.recovers t pc hc
  | throws t =>
    obtain ⟨call, hc, hthrows⟩ := Option.bind_eq_some_iff.mp hstep
    obtain ⟨call', hthrown, rfl⟩ := Option.map_eq_some_iff.mp hthrows
    obtain ⟨hstand, hstand', hstopping, hrecover⟩ := thrown_spec hthrown
    have hat : s.standAt t = ((Stand.within {} .teardown).afterLatch).outside := by
      rw [← hstand, standAt, hc]
      rfl
    refine hI.go (t := t) ?_ (fun w hw => ?_) (fun pc hpc => absurd (Option.some.inj hpc) (hrecover pc))
      (fun v w hv => ?_) hI.fatal
      fun ha he => (hI.stopping ha he).imp_right fun ⟨hstate, u, hu⟩ => ⟨hstate, ?_⟩
    · rw [hat]
      change Moves s s t _ call'.stand
      rw [hstand']
      exact .stay rfl (fun _ => .inl) rfl id .inl
    · refine hI.alive w ?_
      rw [hw, hc]
      simp
    · rw [hat] at hv
      cases hv
    · by_cases hut : u = t
      · exact ⟨t, by rw [calls_setCall_self]; exact hstopping⟩
      · exact ⟨u, by rw [calls_setCall_of_ne hut]; exact hu⟩
  | exit w =>
    simp only [step] at hstep
    split at hstep
    next hexits =>
      obtain ⟨⟩ := hstep
      refine { hI with alive := fun v hv => ?_ }
      change (Function.update s.handle w .exited v).alive = true
      have hvw : v ≠ w := by
        rintro rfl
        exact hv hexits.2.1
      rw [Function.update_of_ne hvw]
      exact hI.alive v hv
    next => cases hstep

/-! ## No deadlock -/

theorem latched_of_holds {call : Option Call} (h : (standOf call).holds .teardown = true) :
    (standOf call).latched = true := by
  have hshutdown (pc : ShutdownPc) (hpc : pc.stand.holds .teardown = true) : pc.stand.latched = true := by
    cases pc <;> first | rfl | cases hpc
  cases call with
  | none => cases h
  | some call =>
    cases call with
    | shutdown pc => exact hshutdown pc h
    | stop pc =>
      cases pc with
      | shutdown pc => exact hshutdown pc h
      | _ => first | rfl | cases h
    | recover pc =>
      rcases pc.scheduling.holds _ h with hx | hx <;> cases hx

theorem holds_of_tearsDown {call : Call} (h : call.tearsDown = true) :
    call.stand.holds .teardown = true := by
  have hshutdown (pc : ShutdownPc) (hpc : pc.tearsDown = true) : pc.stand.holds .teardown = true := by
    cases pc <;> first | rfl | cases hpc
  cases call with
  | shutdown pc => exact hshutdown pc h
  | stop pc =>
    cases pc with
    | shutdown pc => exact hshutdown pc h
    | _ => first | rfl | cases h
  | recover pc => cases h

variable {u : Thread}

theorem Inv.eq_of_holds (hI : s.Inv) (ht : (s.standAt t).holds x = true)
    (hu : (s.standAt u).holds x = true) : t = u := (hI.owns x).unique ht hu

theorem Inv.holds_of_owner (hI : s.Inv) (h : s.owner x = some u) : (s.standAt u).holds x = true :=
  (hI.owns x u).mpr h

/-- **Who waits**: an outsider for the teardown mutex, its owner, or the monitor in a recovery. -/
theorem Inv.waits_cases (hI : s.Inv) (h : s.WaitsFor t u) :
    ((∀ w : Worker, t ≠ w.thread) ∧ (s.standAt u).holds .teardown = true) ∨
      (s.standAt t).holds .teardown = true ∨ t = .monitor ∧ (s.standAt t).Scheduling := by
  rcases idle_or (s.calls t) with hidle | hteardown | ⟨⟨pc, hpc⟩, hscheduling⟩
  · left
    rcases h with ⟨x, hx, hu⟩ | ⟨w, hw, -⟩
    · obtain rfl : x = .teardown := by
        by_contra hne
        exact hidle.waits x hne hx
      exact ⟨fun w => hI.avoids t w (((orderly_standOf _).waits_teardown hx).2 w), hI.holds_of_owner hu⟩
    · exact absurd (hidle.joins.symm.trans hw) (by simp)
  · exact .inr (.inl hteardown)
  · exact .inr (.inr ⟨hI.recovers t pc hpc, hscheduling⟩)

/-- A worker that waits and does not have the teardown mutex is the monitor in a recovery. -/
theorem Inv.worker_waits (hI : s.Inv) (h : s.WaitsFor w.thread u) :
    (s.standAt w.thread).holds .teardown = true ∨
      w.thread = .monitor ∧ (s.standAt w.thread).Scheduling := by
  rcases hI.waits_cases h with ⟨hout, -⟩ | hcases
  · exact absurd rfl (hout w)
  · exact hcases

/-- In a recovery, the monitor waits for the thread that stops the scheduler, which has the teardown
mutex, or for the scheduler. -/
theorem Inv.recovery_waits (hI : s.Inv) (hscheduling : (s.standAt .monitor).Scheduling)
    (h : s.WaitsFor .monitor u) :
    ((s.standAt u).holds .teardown = true ∧ (s.standAt u).holds .lifecycle = true ∧
        (s.standAt .monitor).holds .lifecycle = false) ∨
      u = Worker.scheduler.thread ∧ (s.standAt .monitor).joins = some .scheduler := by
  have horderly := orderly_standOf (s.calls .monitor)
  rcases h with ⟨x, hx, hu⟩ | ⟨w, hw, -, rfl⟩
  · left
    have hholds := hI.holds_of_owner hu
    have hfresh := horderly.fresh x hx
    have hne : u ≠ .monitor := by
      rintro rfl
      exact absurd hholds (by rw [standAt, hfresh]; simp)
    rcases hscheduling.waits x hx with rfl | rfl
    · refine ⟨?_, hholds, hfresh⟩
      rcases idle_or (s.calls u) with hidle | hteardown | ⟨⟨pc, hpc⟩, -⟩
      · exact absurd hholds (by rw [standAt, hidle.holds _ (by simp)]; simp)
      · exact hteardown
      · exact absurd (hI.recovers u pc hpc) hne
    · have hlifecycle := horderly.waits_handle_scheduler hx
      exact absurd (hI.eq_of_holds ((orderly_standOf (s.calls u)).holds_handle hholds) hlifecycle) hne
  · obtain rfl := hscheduling.joins w hw
    exact .inr ⟨rfl, hw⟩

/-- The owner of the teardown mutex waits for the recovery that has the scheduler's mutex, or for the
loop that it joins. -/
theorem Inv.owner_waits (hI : s.Inv) (hteardown : (s.standAt t).holds .teardown = true)
    (h : s.WaitsFor t u) :
    t ≠ u ∧ ((u = .monitor ∧ (s.standAt u).Scheduling ∧ (s.standAt u).holds .lifecycle = true ∧
        t ≠ Worker.scheduler.thread) ∨
      ∃ w : Worker, u = w.thread ∧ (s.standAt t).joins = some w) := by
  have horderly := orderly_standOf (s.calls t)
  rcases h with ⟨x, hx, hu⟩ | ⟨w, hw, -, rfl⟩
  · have hholds := hI.holds_of_owner hu
    have hfresh := horderly.fresh x hx
    have hne : t ≠ u := by
      rintro rfl
      exact absurd hholds (by rw [standAt, hfresh]; simp)
    -- the other one does not have the teardown mutex, so it is in a recovery
    have hrecovery : u = .monitor ∧ (s.standAt u).Scheduling := by
      rcases idle_or (s.calls u) with hidle | hteardown' | ⟨⟨pc, hpc⟩, hscheduling⟩
      · have hx' : x = .teardown := by
          by_contra hxne
          exact absurd hholds (by rw [standAt, hidle.holds x hxne]; simp)
        subst hx'
        exact absurd hteardown (by rw [standAt, hfresh]; simp)
      · exact absurd (hI.eq_of_holds hteardown hteardown') hne
      · exact ⟨hI.recovers u pc hpc, hscheduling⟩
    refine ⟨hne, .inl ⟨hrecovery.1, hrecovery.2, ?_, ?_⟩⟩
    · rcases hrecovery.2.holds x hholds with rfl | rfl
      · exact hholds
      · exact (orderly_standOf (s.calls u)).holds_handle hholds
    · refine hI.avoids t .scheduler ?_
      rcases hrecovery.2.holds x hholds with rfl | rfl
      · exact horderly.waits_lifecycle hx
      · exact horderly.waits_handle _ hx
  · exact ⟨hI.avoids t w (horderly.joins_avoids w hw), .inr ⟨w, rfl, hw⟩⟩

/-- **There is no deadlock**: among threads that wait for each other would be the owner of the
teardown mutex, and who it waits for would have to be joining it. -/
theorem Inv.not_deadlock (hI : s.Inv) : ¬ Deadlock s.WaitsFor := by
  rintro ⟨D, ⟨t₀, ht₀⟩, hD⟩
  -- the scheduler waits only with the teardown mutex
  have hscheduler (hmem : Worker.scheduler.thread ∈ D) :
      (s.standAt Worker.scheduler.thread).holds .teardown = true := by
    obtain ⟨u, -, hu⟩ := hD _ hmem
    exact (hI.worker_waits hu).resolve_right fun h => absurd h.1 (by simp [Worker.thread])
  -- a recovery waits for the owner, or for the scheduler that is the owner
  have hrecovery (hmem : Thread.monitor ∈ D) (hscheduling : (s.standAt .monitor).Scheduling) :
      ∃ o ∈ D, (s.standAt o).holds .teardown = true ∧
        ((s.standAt o).holds .lifecycle = true ∧ (s.standAt .monitor).holds .lifecycle = false ∨
          o = Worker.scheduler.thread ∧ (s.standAt .monitor).joins = some .scheduler) := by
    obtain ⟨u, hu, hwaits⟩ := hD _ hmem
    rcases hI.recovery_waits hscheduling hwaits with ⟨hteardown, hholds⟩ | ⟨rfl, hjoins⟩
    · exact ⟨u, hu, hteardown, .inl hholds⟩
    · exact ⟨_, hu, hscheduler hu, .inr ⟨rfl, hjoins⟩⟩
  obtain ⟨o, ho, hteardown⟩ : ∃ o ∈ D, (s.standAt o).holds .teardown = true := by
    obtain ⟨u, hu, hwaits⟩ := hD t₀ ht₀
    rcases hI.waits_cases hwaits with ⟨-, hholds⟩ | hholds | ⟨rfl, hscheduling⟩
    · exact ⟨u, hu, hholds⟩
    · exact ⟨t₀, ht₀, hholds⟩
    · obtain ⟨o, ho, hholds, -⟩ := hrecovery ht₀ hscheduling
      exact ⟨o, ho, hholds⟩
  obtain ⟨u, hu, hwaits⟩ := hD o ho
  obtain ⟨hne, ⟨rfl, hscheduling, hlifecycle, hout⟩ | ⟨w, rfl, hjoins⟩⟩ := hI.owner_waits hteardown hwaits
  · obtain ⟨o', -, hteardown', ⟨-, hfree⟩ | ⟨rfl, -⟩⟩ := hrecovery hu hscheduling
    · exact absurd hlifecycle (by rw [hfree]; simp)
    · exact hout (hI.eq_of_holds hteardown hteardown')
  · obtain ⟨v, -, hv⟩ := hD _ hu
    rcases hI.worker_waits hv with hteardown' | ⟨hmonitor, hscheduling⟩
    · exact hne (hI.eq_of_holds hteardown hteardown')
    · obtain rfl : w = .monitor := by
        cases w <;> first | rfl | cases hmonitor
      obtain ⟨o', -, hteardown', hcases⟩ := hrecovery hu hscheduling
      obtain rfl := hI.eq_of_holds hteardown hteardown'
      rcases hcases with ⟨hlifecycle, -⟩ | ⟨rfl, hjoins'⟩
      · have hearly := (orderly_standOf (s.calls o)).joins_early _ hjoins (by simp)
        exact absurd hlifecycle (by rw [standAt, hearly]; simp)
      · exact hI.apart _ .monitor .scheduler hjoins hjoins' rfl

/-! ## Who waits for nobody goes on -/

/-- A position at a mutex that is taken, or in the join of a loop that has not returned. -/
def Blocked (s : ShutdownTraffic) (p : Stand) : Prop :=
  (∃ x, p.waits = some x ∧ (s.owner x).isSome = true) ∨
    ∃ w, p.joins = some w ∧ (s.handle w).alive = true

theorem lock_eq_none (h : s.lock t x = none) : (s.owner x).isSome = true := by
  unfold lock at h
  split at h
  next htaken => exact htaken
  next => cases h

theorem joinStep_eq_none {pc : JoinPc} (h : s.joinStep t w pc = none) : s.Blocked (pc.stand w) := by
  cases pc with
  | lock => exact .inl ⟨_, rfl, lock_eq_none (Option.map_eq_none_iff.mp h)⟩
  | join =>
    simp only [joinStep] at h
    split at h
    next hrunning => exact .inr ⟨w, rfl, by rw [hrunning]; rfl⟩
    next => cases h
    next => cases h
  | _ => cases h

theorem schedulerStopStep_eq_none {pc : SchedulerStopPc} (h : s.schedulerStopStep t pc = none) :
    s.Blocked pc.stand := by
  cases pc with
  | lock => exact .inl ⟨_, rfl, lock_eq_none (Option.map_eq_none_iff.mp h)⟩
  | join pc => exact joinStep_eq_none (Option.map_eq_none_iff.mp h)
  | _ => cases h

theorem schedulerStartStep_eq_none {spawned : Bool} {pc : SchedulerStartPc}
    (h : s.schedulerStartStep t spawned pc = none) : s.Blocked pc.stand := by
  cases pc with
  | lock => exact .inl ⟨_, rfl, lock_eq_none (Option.map_eq_none_iff.mp h)⟩
  | lockHandle => exact .inl ⟨_, rfl, lock_eq_none (Option.map_eq_none_iff.mp h)⟩
  | lockTuning => exact .inl ⟨_, rfl, lock_eq_none (Option.map_eq_none_iff.mp h)⟩
  | joinStale =>
    simp only [schedulerStartStep] at h
    split at h
    next hrunning => exact .inr ⟨.scheduler, rfl, by rw [hrunning]; rfl⟩
    next => cases h
    next => cases h
  | _ => cases h

theorem teardownStep_eq_none {drains : Bool} {pc : TeardownPc}
    (h : s.teardownStep t drains pc = none) : s.Blocked pc.stand := by
  cases pc with
  | joinBus pc => exact joinStep_eq_none (Option.map_eq_none_iff.mp h)
  | joinMonitor pc => exact joinStep_eq_none (Option.map_eq_none_iff.mp h)
  | scheduler pc => exact schedulerStopStep_eq_none (Option.map_eq_none_iff.mp h)
  | _ => cases h

theorem shutdownStep_eq_none {pc : ShutdownPc} (h : s.shutdownStep t pc = none) :
    s.Blocked pc.stand := by
  cases pc with
  | teardown pc => exact teardownStep_eq_none (Option.map_eq_none_iff.mp h)
  | tryTeardown =>
    simp only [shutdownStep] at h
    split at h <;> cases h
  | _ => cases h

theorem stopStep_eq_none {pc : StopPc} (h : s.stopStep t pc = none) : s.Blocked pc.stand := by
  cases pc with
  | acquire => exact .inl ⟨_, rfl, lock_eq_none (Option.map_eq_none_iff.mp h)⟩
  | teardown pc => exact teardownStep_eq_none (Option.map_eq_none_iff.mp h)
  | shutdown pc => exact shutdownStep_eq_none (Option.map_eq_none_iff.mp h)
  | _ => cases h

theorem callStep_eq_none {spawned : Bool} {call : Call} (h : s.callStep t spawned call = none) :
    s.Blocked call.stand := by
  cases call with
  | shutdown pc => exact shutdownStep_eq_none (Option.map_eq_none_iff.mp h)
  | stop pc => exact stopStep_eq_none (Option.map_eq_none_iff.mp h)
  | recover pc =>
    have hrecover := Option.map_eq_none_iff.mp h
    cases pc with
    | stop pc => exact schedulerStopStep_eq_none (Option.map_eq_none_iff.mp hrecover)
    | start pc => exact schedulerStartStep_eq_none (Option.map_eq_none_iff.mp hrecover)

/-- **While a call is under way something goes on**: a call takes its next step, or a loop that is
joined returns. -/
theorem Inv.goes_on (hI : s.Inv) (hs : s.Sound) (hcall : ∃ t, s.calls t ≠ none) (spawned : Bool) :
    (∃ t, (s.step (.advance t spawned)).isSome = true) ∨ ∃ w, (s.step (.exit w)).isSome = true := by
  obtain ⟨t, ht, hfree⟩ := exists_not_waits hs.not_deadlock (D := {t | s.calls t ≠ none}) hcall
  obtain ⟨call, hc⟩ := Option.ne_none_iff_exists'.mp ht
  have hstand : s.standAt t = call.stand := by rw [standAt, hc]; rfl
  by_cases hblocked : s.Blocked call.stand
  · right
    rcases hblocked with ⟨x, hx, hu⟩ | ⟨w, hw, halive⟩
    · -- the thread that has the mutex is in a call
      obtain ⟨u, hu⟩ := Option.isSome_iff_exists.mp hu
      refine absurd (.inl ⟨x, by rw [hstand]; exact hx, hu⟩) (hfree u fun hnone => ?_)
      have hholds := hI.holds_of_owner hu
      rw [standAt, hnone] at hholds
      cases hholds
    · refine ⟨w, ?_⟩
      have hjoins : (s.standAt t).joins = some w := by rw [hstand]; exact hw
      have hnone : s.calls w.thread = none := by
        by_contra hsome
        exact hfree w.thread hsome (.inr ⟨w, hjoins, halive, rfl⟩)
      rw [step, if_pos ⟨halive, hnone, hs.told t w hjoins⟩]
      rfl
  · left
    refine ⟨t, ?_⟩
    cases hstep : s.callStep t spawned call with
    | none => exact absurd (callStep_eq_none hstep) hblocked
    | some r =>
      rw [step, hc, Option.bind_some, hstep]
      rfl

/-! ## The runs -/

theorem Inv.sound (hI : s.Inv) : s.Sound where
  not_self t w hw := hI.avoids t w ((orderly_standOf _).joins_avoids w hw)
  single t u w ht hu :=
    hI.eq_of_holds ((orderly_standOf _).joins_holds w ht) ((orderly_standOf _).joins_holds w hu)
  not_deadlock := hI.not_deadlock
  told t w hw := by
    have hlatched (hne : w ≠ .scheduler) : s.lifecycle.shutdownRequested = true := by
      rcases idle_or (s.calls t) with hidle | hteardown | ⟨-, hscheduling⟩
      · exact absurd (hidle.joins.symm.trans hw) (by simp)
      · rw [LifecycleController.shutdownRequested, hI.latched t (latched_of_holds hteardown),
          Bool.true_or]
      · exact absurd (hscheduling.joins w hw) hne
    cases w with
    | dispatch => rw [loopCondition, hlatched (by simp), Bool.not_true, Bool.and_false]
    | monitor => rw [loopCondition, hlatched (by simp), Bool.not_true, Bool.and_false]
    | scheduler => exact hI.cleared t ((orderly_standOf _).joins_cleared hw)
  owner t call hc htears := by
    have hholds := holds_of_tearsDown htears
    refine (hI.owns .teardown t).mp ?_
    rw [hc]
    exact hholds
  fatal := hI.fatal
  stopped hidle ha he := by
    rcases hI.stopping ha he with hstopped | ⟨-, t, ht⟩
    · exact hstopped
    · rw [hidle t] at ht
      cases ht

/-- **The condition is needed**: a thread that comes to the join of one that joins it ends in a
deadlock. -/
theorem spares_of_step {label : Label} (hI : s.Inv) (hs' : s'.Sound) (hstep : s.step label = some s') :
    s.Spares label := by
  cases label with
  | advance t spawned =>
    intro v w hv hw htw
    obtain ⟨call, hc, hadvance⟩ := Option.bind_eq_some_iff.mp hstep
    obtain ⟨⟨s₁, call'⟩, hcall, rfl⟩ := Option.map_eq_some_iff.mp hadvance
    have hmoves := callStep_moves hcall
    have hstand : s.standAt t = call.stand := by rw [standAt, hc]; rfl
    have htv : ((s₁.setCall t call').standAt t).joins = some v := by
      rw [standAt_setCall_self, hmoves.joins, ← hstand]
      exact hv
    have hne : v.thread ≠ t := fun heq => hs'.not_self t v htv heq.symm
    have hvt : ((s₁.setCall t call').standAt v.thread).joins = some w := by
      rw [standAt_setCall_of_ne hne, standAt, hmoves.calls_eq]
      exact hw
    have halive (z : Worker) (hz : s.calls z.thread ≠ none) :
        ((s₁.setCall t call').handle z).alive = true := hmoves.alive z (hI.alive z hz)
    have hcalls : s.calls v.thread ≠ none := by
      intro hnone
      rw [standAt, hnone] at hw
      cases hw
    refine hs'.not_deadlock (deadlock_of_mutual (.inr ⟨v, htv, halive v hcalls, rfl⟩)
      (.inr ⟨w, hvt, halive w ?_, htw⟩))
    rw [← htw, hc]
    simp
  | _ => trivial

theorem inv_of_init (h : machine.init s) : s.Inv := by
  obtain ⟨howner, hcalls, hemergency, haccepted⟩ := h
  have hstand (t : Thread) : s.standAt t = {} := by rw [standAt, hcalls]; rfl
  refine ⟨fun x t => ?_, fun w hw => absurd (hcalls _) hw, fun t pc ht => ?_, fun t w ht => ?_,
    fun t ht => ?_, fun t ht => ?_, fun t v w ht => ?_, fun he => ?_, fun ha => ?_⟩
  · rw [howner, hcalls]
    exact iff_of_false (by simp [standOf]) (by simp)
  · rw [hcalls] at ht
    cases ht
  · rw [hstand] at ht
    cases ht
  · rw [hstand] at ht
    cases ht
  · rw [hstand] at ht
    cases ht
  · rw [hstand] at ht
    cases ht
  · rw [hemergency] at he
    cases he
  · rw [haccepted] at ha
    cases ha

/-- **A shutdown is sound in all its states** exactly if no thread comes to the join of a worker that
is in the join of it. -/
theorem shutdownTraffic_sound_iff (h : machine.init s) (labels : List Label) :
    machine.Always Sound s labels ↔ machine.Allowed Spares s labels :=
  machine.always_iff_allowed_of_invariant (I := Inv) (fun _ _ _ hI hG hstep => step_inv hI hG hstep)
    (fun _ hI => hI.sound) (fun _ _ _ hI hstep hs' => spares_of_step hI hs' hstep) (inv_of_init h) labels

/-- A running system whose threads are all there. -/
def running : ShutdownTraffic where
  lifecycle := ⟨.running, false⟩
  flag := fun _ => true
  handle := fun _ => .running ()
  timingController_ := true
  realTimeMode_ := false

/-- During a `stop()` a task calls `emergencyShutdown()`, which joins the dispatch thread and then the
monitor; the monitor is in a recovery, and joins the scheduler. -/
def taskAndRecovery : List Label :=
  [.begin (.external 0) .stop, .begin .monitor .attemptRecovery,
      .begin .scheduler .emergencyShutdown] ++
    List.replicate 5 (.advance (.external 0) true) ++ List.replicate 6 (.advance .monitor true) ++
    List.replicate 8 (.advance .scheduler true) ++ [.exit .dispatch] ++
    List.replicate 5 (.advance .scheduler true)

theorem shutdownTraffic_sound_iff_running : machine.Always Sound running taskAndRecovery ↔
    machine.Allowed Spares running taskAndRecovery :=
  shutdownTraffic_sound_iff ⟨fun _ => rfl, fun _ => rfl, rfl, rfl⟩ _

/-- **The monitor and the scheduler join each other.** -/
theorem shutdown_deadlocks : ¬ ∀ r, machine.Reachable r → r.Sound := by
  have hexec : (machine.exec running taskAndRecovery).any (fun s =>
      (s.standAt .monitor).joins = some .scheduler ∧ (s.handle .scheduler).alive = true ∧
        (s.standAt .scheduler).joins = some .monitor ∧ (s.handle .monitor).alive = true) = true := by
    decide +kernel
  obtain ⟨r, hr, hjoins⟩ := (Option.any_eq_true ..).mp hexec
  obtain ⟨hmonitor, hscheduler, hscheduler', hmonitor'⟩ := of_decide_eq_true hjoins
  intro hall
  have hreachable : machine.Reachable r :=
    Machine.Reachable.exec (.init ⟨fun _ => rfl, fun _ => rfl, rfl, rfl⟩) hr
  exact (hall r hreachable).not_deadlock (deadlock_of_mutual (t := Thread.monitor)
    (.inr ⟨.scheduler, hmonitor, hscheduler, rfl⟩) (.inr ⟨.monitor, hscheduler', hmonitor', rfl⟩))

end ShutdownTraffic

end AxonVex
