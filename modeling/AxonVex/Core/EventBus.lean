import AxonVex.Core.Containers
import AxonVex.Core.Lifecycle
import AxonVex.Core.WorkerThread

/-!
# Core/EventBus — events in a pool, pointers in a queue, one dispatch loop

`EventBus::publish` copies an event into a block of the pool and queues the block; the dispatch
loop takes blocks off the queue, runs the callbacks and gives the block back.  Pool and queue are
objects of their own, replaced together by `reinitialize`.
-/

namespace AxonVex

open Machinery

/-- `SystemEvent::Type`. -/
inductive SystemEventType
  | stateChange | processingUnitAdded | processingUnitRemoved | processingUnitError
  | performanceAlert | configurationChanged | recoveryStarted | recoveryCompleted | healthCheck
  | shutdownRequested
  deriving DecidableEq, Repr

/-- `SystemEvent`, without its timestamp. -/
structure SystemEvent where
  type : SystemEventType
  oldState : SystemState
  newState : SystemState
  description : String
  metadata : List (String × String) := []
  deriving DecidableEq, Repr

/-- Where `dispatchLoop` stands. -/
inductive DispatchPc
  /-- at the loop's condition, or waiting for an event -/
  | polling
  /-- running the callbacks on the event in a block -/
  | dispatching (block : ℕ)
  deriving DecidableEq, Repr

/-- `eventPool_`: the object and its blocks. -/
structure EventPool where
  objectId : ℕ
  pool : MemoryPool SystemEvent

/-- `eventQueue_`: the object and the queued blocks. -/
structure EventQueue where
  objectId : ℕ
  queue : ThreadSafeQueue ℕ

/-- `EventBus`. -/
structure EventBus where
  eventPool : Option EventPool := none
  eventQueue : Option EventQueue := none
  running : Bool := false
  worker : WorkerThread DispatchPc := .empty

namespace EventBus

variable (b : EventBus)

/-- `publish(event)` with the latch `isShuttingDown` as read; the second component is whether the
event was dropped (which counts as an error). -/
def publish (isShuttingDown : Bool) (event : SystemEvent) : EventBus × Bool :=
  match b.eventPool, b.eventQueue with
  | some p, some q =>
    if isShuttingDown then (b, false)
    else match p.pool.allocateObject event with
      | none => (b, true)
      | some (block, pool) =>
        match q.queue.enqueue block with
        | some queue =>
          ({ b with eventPool := some { p with pool }, eventQueue := some { q with queue } }, false)
        | none => ({ b with eventPool := some { p with pool := pool.deallocateObject block } }, true)
  | _, _ => (b, false)

/-- `drain()`: the queued blocks go back to the pool, undispatched. -/
def drain : EventBus :=
  match b.eventPool, b.eventQueue with
  | some p, some q =>
    { b with
      eventPool := some { p with pool := q.queue.items.foldl .deallocateObject p.pool }
      eventQueue := some { q with queue := q.queue.emptied } }
  | _, _ => b

/-- `requestStop()`. -/
def requestStop : EventBus := { b with running := false }

/-- `dispatchLoop`'s condition, given `shutdownRequested()`. -/
def loopCondition (shutdownRequested : Bool) : Bool := b.running && !shutdownRequested

/-- The block being dispatched goes back to the pool, as the loop does before it tests its
condition again. -/
def finishDispatch : EventBus :=
  match b.worker.pc?, b.eventPool with
  | some (.dispatching block), some p =>
    { b with
      eventPool := some { p with pool := p.pool.deallocateObject block }
      worker := .running .polling }
  | _, _ => b

/-- `join()`, once the loop has returned: the handle is gone.  On the dispatch thread itself it is
refused. -/
def join (onDispatchThread : Bool) : EventBus × Bool :=
  if onDispatchThread then (b, false)
  else ({ b.finishDispatch with worker := .empty }, b.worker.joinable)

/-- `stopAndJoin()`. -/
def stopAndJoin (onDispatchThread : Bool) : EventBus :=
  let (b, joined) := b.requestStop.join onDispatchThread
  if joined then b.drain else b

/-- `start()`: a stale handle is joined, then `running_` is set, then the thread is created, if it
can be; the second component is whether the call threw. -/
def start (spawned : Bool) : EventBus × Bool :=
  if spawned then ({ b with running := true, worker := .running .polling }, false)
  else ({ b with running := true, worker := .empty }, true)

/-- The first half of `reinitialize(poolSize, queueSize)`: a new pool. -/
def newPool (objectId : ℕ) (poolSize : UInt64) : EventBus :=
  { b with eventPool := some ⟨objectId, .new poolSize⟩ }

/-- The second half of `reinitialize(poolSize, queueSize)`: a new queue. -/
def newQueue (objectId : ℕ) (queueSize : UInt64) : EventBus :=
  { b with eventQueue := some ⟨objectId, .new queueSize⟩ }

/-- What the environment sees of one step of `dispatchLoop`. -/
inductive Step
  /-- an event is taken off the queue -/
  | dequeue
  /-- the callbacks are done -/
  | finish
  /-- the condition fails and the loop returns -/
  | exit
  deriving DecidableEq, Repr

/-- One step of `dispatchLoop`. -/
def loopStep (shutdownRequested : Bool) (step : Step) : Option EventBus :=
  match b.worker.pc?, step with
  | some .polling, .dequeue =>
    if b.loopCondition shutdownRequested then
      b.eventQueue.bind fun q => q.queue.tryDequeue.map fun (block, queue) =>
        { b with eventQueue := some { q with queue }, worker := .running (.dispatching block) }
    else none
  | some (.dispatching _), .finish => some b.finishDispatch
  | some .polling, .exit =>
    if b.loopCondition shutdownRequested then none else some { b with worker := .exited }
  | _, _ => none

/-! ### What the operations leave alone -/

variable {b} {e : SystemEvent} {shuttingDown : Bool}

@[simp] theorem publish_running : (b.publish shuttingDown e).1.running = b.running := by
  unfold publish
  split
  · split
    · rfl
    · split
      · rfl
      · split <;> rfl
  · rfl

@[simp] theorem publish_worker : (b.publish shuttingDown e).1.worker = b.worker := by
  unfold publish
  split
  · split
    · rfl
    · split
      · rfl
      · split <;> rfl
  · rfl

@[simp] theorem drain_running : b.drain.running = b.running := by
  unfold drain
  split <;> rfl

@[simp] theorem drain_worker : b.drain.worker = b.worker := by
  unfold drain
  split <;> rfl

@[simp] theorem requestStop_running : b.requestStop.running = false := rfl

@[simp] theorem requestStop_worker : b.requestStop.worker = b.worker := rfl

@[simp] theorem finishDispatch_running : b.finishDispatch.running = b.running := by
  unfold finishDispatch
  split <;> rfl

/-- Joined from outside, the bus has no thread. -/
@[simp] theorem join_false_worker : (b.join false).1.worker = .empty := rfl

/-- Without a handle there is nothing to join. -/
theorem join_of_empty (h : b.worker = .empty) : b.join false = (b, false) := by
  obtain ⟨pool, queue, running, worker⟩ := b
  obtain rfl : worker = .empty := h
  rfl

@[simp] theorem join_true : b.join true = (b, false) := rfl

@[simp] theorem join_running (onThread : Bool) : (b.join onThread).1.running = b.running := by
  cases onThread <;> simp [join]

@[simp] theorem stopAndJoin_running (onThread : Bool) :
    (b.stopAndJoin onThread).running = false := by
  simp only [stopAndJoin]
  split <;> simp

@[simp] theorem stopAndJoin_false_worker : (b.stopAndJoin false).worker = .empty := by
  simp only [stopAndJoin]
  split <;> simp

@[simp] theorem stopAndJoin_true : b.stopAndJoin true = b.requestStop := rfl

/-- **A loop whose condition holds goes on.** -/
theorem loopStep_of_loopCondition {b' : EventBus} {shutdownRequested : Bool} {step : Step}
    (hc : b.loopCondition shutdownRequested = true)
    (h : b.loopStep shutdownRequested step = some b') :
    b'.running = b.running ∧ b'.worker.alive = true := by
  unfold loopStep at h
  split at h
  · rw [if_pos hc] at h
    obtain ⟨q, -, h⟩ := Option.bind_eq_some_iff.mp h
    obtain ⟨⟨block, queue⟩, -, rfl⟩ := Option.map_eq_some_iff.mp h
    exact ⟨rfl, rfl⟩
  next block hpc =>
    obtain ⟨⟩ := h
    refine ⟨finishDispatch_running, ?_⟩
    unfold finishDispatch
    split
    · rfl
    · cases hw : b.worker <;> simp_all
  · rw [if_pos hc] at h
    cases h
  · cases h

end EventBus

end AxonVex
