import AxonVex.Core.Scheduler
import AxonVex.Machinery.Machine
import AxonVex.Machinery.Mutex

/-!
# Concurrent/SchedulerCalls — the scheduler's lifecycle calls, one mutex or atomic at a time

Any number of threads call `start`, `stop`, `halt`, `pause`, `resume` and the calls that tune the
thread of one `RealTimeScheduler`, and the tasks that the scheduler's own thread runs make the same
calls.  A position of a call is what it is about to do: read or write one atomic, lock or unlock
`lifecycleMutex_` or the worker's `handleMutex_`, wait for a thread, or create one.

Threads come and go.  A thread's id is free again once it has ended and, if it was the scheduler's,
has been joined, so a later thread may have the id of an earlier one.

Notifications move nothing here: a loop that waits may wake up at any time.
-/

namespace AxonVex

open Machinery

/-- `std::thread::id`. -/
abbrev ThreadId := ℕ

/-- `handle_`. -/
inductive ThreadHandle
  | null
  /-- a thread that has not been joined -/
  | joinable (thread : ThreadId)
  /-- a `std::thread` without a thread -/
  | joined
  deriving DecidableEq, Repr

/-- Where a call of `start` stands. -/
inductive SchedulerStartPc
  | latch
  /-- `isOnSchedulerThread()` -/
  | selfCheck
  /-- `lifecycleMutex_` is locked -/
  | lock
  | testRunning
  /-- `WorkerThread::start` begins: `isOnThisThread()` -/
  | workerCheck
  /-- `handleMutex_` is locked -/
  | lockHandle
  /-- a handle that is still joinable is joined -/
  | joinStale
  /-- the first half of `beforeSpawn` -/
  | setRunning
  | clearPaused
  /-- the thread is created, and the handle assigned -/
  | spawn
  | unlockHandle (threw : Bool)
  /-- `WorkerThread::start` is over -/
  | testRealTime
  /-- `withHandle` -/
  | lockTuning
  | unlockTuning
  /-- `lifecycleMutex_` is unlocked -/
  | unlock
  deriving DecidableEq, Repr

/-- Where a call of `halt` stands, or the `halt` of a call of `stop`. -/
inductive SchedulerHaltPc
  | stamp
  | clearRunning
  deriving DecidableEq, Repr

/-- Where a call of `stop` stands. -/
inductive SchedulerStopPc
  | halt (pc : SchedulerHaltPc)
  /-- `isOnSchedulerThread()` -/
  | selfCheck
  /-- `lifecycleMutex_` is locked -/
  | lock
  | clearRunning
  /-- `WorkerThread::join` begins: `isOnThisThread()` -/
  | workerCheck
  /-- `handleMutex_` is locked -/
  | lockHandle
  | join
  /-- `handle_.reset()` -/
  | resetHandle
  | unlockHandle
  /-- `lifecycleMutex_` is unlocked -/
  | unlock
  deriving DecidableEq, Repr

/-- Where a call of `enableRealTimeMode` or `setThreadAffinity` stands. -/
inductive SchedulerTunePc
  | setRealTime (enable : Bool)
  /-- `withHandle` -/
  | lockHandle
  | unlockHandle
  deriving DecidableEq, Repr

/-- A call in progress. -/
inductive SchedulerCall
  | start (pc : SchedulerStartPc)
  | stop (pc : SchedulerStopPc)
  | halt (pc : SchedulerHaltPc)
  | pause
  | resume
  | tune (pc : SchedulerTunePc)
  deriving DecidableEq, Repr

/-- What a thread is doing. -/
inductive ThreadPc
  /-- there is no such thread -/
  | absent
  /-- a thread that is not the scheduler's, maybe in a call -/
  | external (call : Option SchedulerCall)
  /-- the scheduler's thread, before it publishes its id -/
  | publish
  /-- in `schedulerLoop`, about to test its condition -/
  | test
  /-- in a turn of `schedulerLoop` -/
  | turn
  /-- in the code of a task or of a callback, maybe in a call -/
  | task (call : Option SchedulerCall)
  /-- the loop has returned, the id is still published -/
  | clear
  /-- the thread has ended -/
  | finished
  deriving DecidableEq, Repr

/-- A scheduler and the threads that use it. -/
structure SchedulerThreads where
  running : Bool := false
  paused : Bool := false
  hasStarted : Bool := false
  /-- `haltRequestedAtNs_` has been stored -/
  haltRequested : Bool := false
  realTimeMode : Bool := false
  lifecycleMutex : Option ThreadId := none
  handleMutex : Option ThreadId := none
  handle : ThreadHandle := .null
  /-- the id that the scheduler's thread has published -/
  threadId : Option ThreadId := none
  threads : ThreadId → ThreadPc := fun _ => .absent

namespace SchedulerThreads

variable (p : SchedulerThreads) (self : ThreadId)

/-- `isOnThisThread()`. -/
def isOnThisThread : Bool := p.threadId == some self

/-- A position of one thread changes. -/
def setThread (i : ThreadId) (pc : ThreadPc) : SchedulerThreads :=
  { p with threads := Function.update p.threads i pc }

variable {p} {i j : ThreadId} {pc : ThreadPc}

@[simp] theorem threads_setThread_self : (p.setThread i pc).threads i = pc := Function.update_self ..

theorem threads_setThread_ne (h : j ≠ i) : (p.setThread i pc).threads j = p.threads j :=
  Function.update_of_ne h ..

@[simp] theorem handle_setThread : (p.setThread i pc).handle = p.handle := rfl

variable (p)

/-- `handle_->join()` of a joinable handle; `none` while the thread has not ended. -/
def joinThread (thread : ThreadId) : Option SchedulerThreads :=
  if p.threads thread = .finished then
    some { p.setThread thread .absent with handle := .joined }
  else none

/-- The next step of `halt`. -/
def haltStep : SchedulerHaltPc → SchedulerThreads × Option SchedulerHaltPc
  | .stamp => ({ p with haltRequested := true }, some .clearRunning)
  | .clearRunning => ({ p with running := false }, none)

/-- The next step of `start`; `none` while it waits, and where a thread is created. -/
def startStep : SchedulerStartPc → Option (SchedulerThreads × Option SchedulerStartPc)
  | .latch => some ({ p with hasStarted := true }, some .selfCheck)
  | .selfCheck => some (p, if p.isOnThisThread self then none else some .lock)
  | .lock =>
    if p.lifecycleMutex.isSome then none
    else some ({ p with lifecycleMutex := some self }, some .testRunning)
  | .testRunning => some (p, some (if p.running then .unlock else .workerCheck))
  | .workerCheck => some (p, some (if p.isOnThisThread self then .testRealTime else .lockHandle))
  | .lockHandle =>
    if p.handleMutex.isSome then none
    else some ({ p with handleMutex := some self }, some .joinStale)
  | .joinStale => match p.handle with
    | .joinable thread => (p.joinThread thread).map fun p => (p, some .setRunning)
    | .null => some (p, some .setRunning)
    | .joined => some (p, some .setRunning)
  | .setRunning => some ({ p with running := true }, some .clearPaused)
  | .clearPaused => some ({ p with paused := false }, some .spawn)
  | .spawn => none
  | .unlockHandle threw =>
    some ({ p with handleMutex := none }, some (if threw then .unlock else .testRealTime))
  | .testRealTime => some (p, some (if p.realTimeMode then .lockTuning else .unlock))
  | .lockTuning =>
    if p.handleMutex.isSome then none
    else some ({ p with handleMutex := some self }, some .unlockTuning)
  | .unlockTuning => some ({ p with handleMutex := none }, some .unlock)
  | .unlock => some ({ p with lifecycleMutex := none }, none)

/-- The next step of `stop`; `none` while it waits. -/
def stopStep : SchedulerStopPc → Option (SchedulerThreads × Option SchedulerStopPc)
  | .halt pc =>
    let (p, pc) := p.haltStep pc
    some (p, some (pc.elim .selfCheck .halt))
  | .selfCheck => some (p, if p.isOnThisThread self then none else some .lock)
  | .lock =>
    if p.lifecycleMutex.isSome then none
    else some ({ p with lifecycleMutex := some self }, some .clearRunning)
  | .clearRunning => some ({ p with running := false }, some .workerCheck)
  | .workerCheck => some (p, some (if p.isOnThisThread self then .unlock else .lockHandle))
  | .lockHandle =>
    if p.handleMutex.isSome then none
    else some ({ p with handleMutex := some self }, some .join)
  | .join => match p.handle with
    | .joinable thread => (p.joinThread thread).map fun p => (p, some .resetHandle)
    | .null => some (p, some .unlockHandle)
    | .joined => some (p, some .unlockHandle)
  | .resetHandle => some ({ p with handle := .null }, some .unlockHandle)
  | .unlockHandle => some ({ p with handleMutex := none }, some .unlock)
  | .unlock => some ({ p with lifecycleMutex := none }, none)

/-- The next step of `enableRealTimeMode` or `setThreadAffinity`; `none` while it waits. -/
def tuneStep : SchedulerTunePc → Option (SchedulerThreads × Option SchedulerTunePc)
  | .setRealTime enable =>
    some ({ p with realTimeMode := enable }, if enable then some .lockHandle else none)
  | .lockHandle =>
    if p.handleMutex.isSome then none
    else some ({ p with handleMutex := some self }, some .unlockHandle)
  | .unlockHandle => some ({ p with handleMutex := none }, none)

/-- The next step of a call, and what is left of the call. -/
def callStep : SchedulerCall → Option (SchedulerThreads × Option SchedulerCall)
  | .start pc => (p.startStep self pc).map fun (p, pc) => (p, pc.map .start)
  | .stop pc => (p.stopStep self pc).map fun (p, pc) => (p, pc.map .stop)
  | .halt pc =>
    let (p, pc) := p.haltStep pc
    some (p, pc.map .halt)
  | .pause => some ({ p with paused := true }, none)
  | .resume => some ({ p with paused := false }, none)
  | .tune pc => (p.tuneStep self pc).map fun (p, pc) => (p, pc.map .tune)

/-- What a thread may call. -/
inductive Beginning
  | start
  | stop
  | halt
  | pause
  | resume
  | enableRealTimeMode (enable : Bool)
  | setThreadAffinity
  deriving DecidableEq, Repr

/-- A call as it begins. -/
def Beginning.call : Beginning → SchedulerCall
  | start => .start .latch
  | stop => .stop (.halt .stamp)
  | halt => .halt .stamp
  | pause => .pause
  | resume => .resume
  | enableRealTimeMode enable => .tune (.setRealTime enable)
  | setThreadAffinity => .tune .lockHandle

/-- What the threads do. -/
inductive Move
  /-- a thread that is not the scheduler's comes, and ends -/
  | appear (thread : ThreadId)
  | vanish (thread : ThreadId)
  /-- a thread makes a call -/
  | begin (thread : ThreadId) (c : Beginning)
  /-- a thread takes the next step of its call -/
  | advance (thread : ThreadId)
  /-- `start` creates the scheduler's thread, or the creation throws -/
  | create (thread child : ThreadId)
  | createFails (thread : ThreadId)
  /-- the scheduler's thread takes a step of its own -/
  | loop (thread : ThreadId)
  /-- in a turn the scheduler's thread enters the code of a task or of a callback -/
  | enterTask (thread : ThreadId)
  /-- the turn is over, by the test of `running_` within it or at its end -/
  | endTurn (thread : ThreadId)
  deriving DecidableEq, Repr

/-- A step of the scheduler's thread outside its turns; a task that makes no further call
returns. -/
def loopStep : ThreadPc → Option SchedulerThreads
  | .publish => some { p.setThread self .test with threadId := some self }
  | .test => some (p.setThread self (if p.running then .turn else .clear))
  | .task none => some (p.setThread self .turn)
  | .clear => some { p.setThread self .finished with threadId := none }
  | .absent => none
  | .external _ => none
  | .turn => none
  | .task (some _) => none
  | .finished => none

end SchedulerThreads

/-- The call a thread is in. -/
def ThreadPc.call? : ThreadPc → Option SchedulerCall
  | absent => none
  | external call => call
  | publish => none
  | test => none
  | turn => none
  | task call => call
  | clear => none
  | finished => none

/-- A thread with another call. -/
def ThreadPc.withCall (call : Option SchedulerCall) : ThreadPc → ThreadPc
  | external _ => external call
  | task _ => task call
  | absent => absent
  | publish => publish
  | test => test
  | turn => turn
  | clear => clear
  | finished => finished

/-- User code is running: it may make a call. -/
def ThreadPc.mayCall (pc : ThreadPc) : Bool := pc == external none || pc == task none

namespace SchedulerThreads

variable (p : SchedulerThreads)

/-- A thread's call changes. -/
def setCall (i : ThreadId) (call : Option SchedulerCall) : SchedulerThreads :=
  p.setThread i ((p.threads i).withCall call)

/-- One step. -/
def step : Move → Option SchedulerThreads
  | .appear i => if p.threads i = .absent then some (p.setThread i (.external none)) else none
  | .vanish i => if p.threads i = .external none then some (p.setThread i .absent) else none
  | .begin i c => if (p.threads i).mayCall then some (p.setCall i (some c.call)) else none
  | .advance i => (p.threads i).call?.bind fun call =>
    (p.callStep i call).map fun (p, call) => p.setCall i call
  | .create i j =>
    if (p.threads i).call? = some (.start .spawn) ∧ p.threads j = .absent then
      some ({ p.setThread j .publish with handle := .joinable j }.setCall i
        (some (.start (.unlockHandle false))))
    else none
  | .createFails i =>
    if (p.threads i).call? = some (.start .spawn) then
      some (p.setCall i (some (.start (.unlockHandle true))))
    else none
  | .loop i => p.loopStep i (p.threads i)
  | .enterTask i => if p.threads i = .turn then some (p.setThread i (.task none)) else none
  | .endTurn i => if p.threads i = .turn then some (p.setThread i .test) else none

/-- **The runs of a scheduler** from its construction on. -/
def machine : Machine SchedulerThreads Move where
  init p := p = {}
  step := step

end SchedulerThreads

end AxonVex
