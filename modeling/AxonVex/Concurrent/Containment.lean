import AxonVex.Core.EventBus
import AxonVex.Scheduling.TaskHistory
import Mathlib.Data.List.ReduceOption

/-!
# Concurrent/Containment — user code that throws on a worker thread

    processAsync, processSync ─┐
    event callbacks           ─┴─▸ catch (const std::exception&) ──▸ goes on
    error callback            ───▸ no clause                     ──▸ std::terminate

The scheduler loop and the dispatch loop call user code at four places.  What the clauses around a
place do not stop leaves the thread, and so the process.  As long as no code throws past them, both
loops go on whatever the code does: a claim ends in its bookkeeping, the turns of the cycle are taken,
and every event that was accepted is dispatched, being dispatched, or queued (`contained_iff`).
-/

namespace AxonVex

open Machinery

/-- How a call of user code ends. -/
inductive CallOutcome
  | returns
  /-- it throws a `std::exception` -/
  | throwsException
  /-- it throws something else -/
  | throwsOther
  deriving DecidableEq, Repr

/-- The user code that the two loops call. -/
inductive UserCall
  | processAsync | processSync | errorCallback | eventCallback
  deriving DecidableEq, Repr

namespace UserCall

/-- The clauses around the call stop what it throws. -/
def contains : UserCall → CallOutcome → Bool
  | _, .returns => true
  | .processAsync, .throwsException => true
  | .processSync, .throwsException => true
  | .errorCallback, .throwsException => false
  | .eventCallback, .throwsException => true
  | _, .throwsOther => false

/-- The step of the scheduler loop after a call that is contained. -/
def next : UserCall → CallOutcome → RealTimeScheduler.LoopStep
  | .errorCallback, _ => .advance
  | _, .returns => .bodyReturns
  | _, _ => .bodyThrows

end UserCall

/-! ## The bus -/

namespace EventBus

variable (b : EventBus)

/-- The block whose event is being dispatched. -/
def dispatching? : Option ℕ :=
  b.worker.pc?.bind fun pc => match pc with
    | .polling => none
    | .dispatching block => some block

/-- The queued blocks, the oldest first. -/
def queued : List ℕ := (b.eventQueue.map fun q => q.queue.items).getD []

/-- The blocks that hold an accepted event. -/
def held : List ℕ := b.dispatching?.toList ++ b.queued

/-- The event in a block. -/
def event? (block : ℕ) : Option SystemEvent := b.eventPool.bind fun p => p.pool.blocks.lookup block

/-- **Every block is accounted for**: the allocated ones are those of the events that are still to be
done, in their order. -/
structure Holds (pending : List (ℕ × SystemEvent)) : Prop where
  held : b.held = pending.map Prod.fst
  nodup : b.held.Nodup
  event : ∀ c e, b.event? c = some e ↔ (c, e) ∈ pending

variable {b} {pending : List (ℕ × SystemEvent)}

theorem Holds.of_same {b' : EventBus} (h : b.Holds pending) (hheld : b'.held = b.held)
    (hevent : ∀ c, b'.event? c = b.event? c) : b'.Holds pending :=
  ⟨hheld.trans h.held, hheld ▸ h.nodup, fun c e => by rw [hevent, h.event]⟩

/-- A loop that is not there dispatches nothing. -/
theorem dispatching?_of_not_alive (h : b.worker.alive = false) : b.dispatching? = none := by
  rcases b.worker.not_alive_iff.mp h with hw | hw
  · rw [dispatching?, hw]
    rfl
  · rw [dispatching?, hw]
    rfl

theorem items_of_enqueue {q r : ThreadSafeQueue ℕ} {block : ℕ} (h : q.enqueue block = some r) :
    r.items = q.items ++ [block] := by
  unfold ThreadSafeQueue.enqueue at h
  split at h
  · rw [← Option.some.inj h]
  · cases h

theorem items_of_tryDequeue {q r : ThreadSafeQueue ℕ} {block : ℕ}
    (h : q.tryDequeue = some (block, r)) : q.items = block :: r.items := by
  unfold ThreadSafeQueue.tryDequeue at h
  split at h
  · cases h
  next hitems =>
    obtain ⟨⟩ := h
    exact hitems

/-- An event in a new block, queued behind the others. -/
theorem Holds.accept (h : b.Holds pending) {p pool : MemoryPool SystemEvent} {block : ℕ}
    {e : SystemEvent} {b' : EventBus} (halloc : p.allocateObject e = some (block, pool))
    (hevent : ∀ c, b.event? c = p.blocks.lookup c) (hevent' : ∀ c, b'.event? c = pool.blocks.lookup c)
    (hheld : b'.held = b.held ++ [block]) : b'.Holds (pending ++ [(block, e)]) := by
  obtain ⟨hfree, -, -⟩ := MemoryPool.allocateObject_spec halloc
  have hnew : block ∉ b.held := by
    rw [h.held]
    intro hmem
    obtain ⟨⟨c, e'⟩, hpending, rfl⟩ := List.mem_map.mp hmem
    rw [← h.event, hevent] at hpending
    exact hfree (AList.mem_of_lookup hpending)
  refine ⟨?_, ?_, fun c e' => ?_⟩
  · rw [hheld, h.held, List.map_append]
    rfl
  · rw [hheld, List.nodup_append]
    refine ⟨h.nodup, List.nodup_singleton block, fun c hc d hd => ?_⟩
    rw [List.mem_singleton.mp hd]
    rintro rfl
    exact hnew hc
  · rw [hevent', MemoryPool.lookup_allocateObject halloc, ← hevent, h.event, List.mem_append,
      List.mem_singleton, Prod.mk.injEq]
    constructor
    · rintro (⟨rfl, rfl⟩ | ⟨-, hold⟩)
      · exact .inr ⟨rfl, rfl⟩
      · exact .inl hold
    · rintro (hold | ⟨rfl, rfl⟩)
      · refine .inr ⟨?_, hold⟩
        rintro rfl
        exact hnew (h.held ▸ List.mem_map_of_mem hold)
      · exact .inl ⟨rfl, rfl⟩

/-- Publishing accepts the event behind the others, or leaves the bus as it is. -/
theorem Holds.publish (h : b.Holds pending) (shuttingDown : Bool) (e : SystemEvent) :
    (∃ block, (b.publish shuttingDown e).1.Holds (pending ++ [(block, e)]) ∧
      (b.publish shuttingDown e).1.queued.length = b.queued.length + 1) ∨
    ((b.publish shuttingDown e).1.Holds pending ∧
      (b.publish shuttingDown e).1.queued = b.queued) := by
  unfold EventBus.publish
  split
  next p q hpool hqueue =>
    split
    · exact .inr ⟨h, rfl⟩
    · split
      · exact .inr ⟨h, rfl⟩
      next block pool halloc =>
        have hevent (c : ℕ) : b.event? c = p.pool.blocks.lookup c := by rw [event?, hpool]; rfl
        have hqueued : b.queued = q.queue.items := by rw [EventBus.queued, hqueue]; rfl
        split
        next queue henqueue =>
          have hitems : queue.items = b.queued ++ [block] := hqueued ▸ items_of_enqueue henqueue
          refine .inl ⟨block, h.accept halloc hevent (fun _ => rfl) ?_, ?_⟩
          · change b.dispatching?.toList ++ queue.items = _
            rw [hitems, EventBus.held, List.append_assoc]
          · change queue.items.length = _
            rw [hitems, List.length_append]
            rfl
        · -- the block goes back
          refine .inr ⟨h.of_same rfl fun c => ?_, rfl⟩
          · obtain ⟨hfree, hblocks, -⟩ := MemoryPool.allocateObject_spec halloc
            rw [hevent]
            change (pool.deallocateObject block).blocks.lookup c = _
            rw [MemoryPool.deallocateObject_blocks, hblocks]
            by_cases hc : c = block
            · subst hc
              rw [AList.lookup_erase, AList.lookup_eq_none.mpr hfree]
            · rw [AList.lookup_erase_ne hc, AList.lookup_insert_ne hc]
  · exact .inr ⟨h, rfl⟩

/-- The oldest event begins to be dispatched. -/
theorem Holds.dequeue (h : b.Holds pending) {shutdownRequested : Bool} {b' : EventBus}
    (hstep : b.loopStep shutdownRequested .dequeue = some b') : b'.Holds pending := by
  cases hpc : b.worker.pc? with
  | none => simp [loopStep, hpc] at hstep
  | some pc =>
    cases pc with
    | dispatching block => simp [loopStep, hpc] at hstep
    | polling =>
      simp only [loopStep, hpc] at hstep
      obtain ⟨-, hsome⟩ := Option.ite_none_right_eq_some.mp hstep
      obtain ⟨q, hqueue, hmap⟩ := Option.bind_eq_some_iff.mp hsome
      obtain ⟨⟨block, queue⟩, htaken, rfl⟩ := Option.map_eq_some_iff.mp hmap
      refine h.of_same ?_ fun _ => rfl
      have hidle : b.dispatching? = none := by rw [dispatching?, hpc]; rfl
      have hqueued : b.queued = block :: queue.items := by
        rw [EventBus.queued, hqueue]
        exact items_of_tryDequeue htaken
      rw [EventBus.held, EventBus.held, hidle, hqueued]
      rfl

/-- Its callbacks are done. -/
theorem Holds.finish (h : b.Holds pending) {shutdownRequested : Bool} {b' : EventBus}
    (hstep : b.loopStep shutdownRequested .finish = some b') :
    ∃ block e rest, pending = (block, e) :: rest ∧ b.dispatching? = some block ∧
      b'.Holds rest := by
  cases hpc : b.worker.pc? with
  | none => simp [loopStep, hpc] at hstep
  | some pc =>
    cases pc with
    | polling => simp [loopStep, hpc] at hstep
    | dispatching block =>
      simp only [loopStep, hpc] at hstep
      have hdispatching : b.dispatching? = some block := by rw [dispatching?, hpc]; rfl
      have hheld : b.held = block :: b.queued := by rw [EventBus.held, hdispatching]; rfl
      cases pending with
      | nil => cases hheld.symm.trans h.held
      | cons entry rest =>
        obtain ⟨c, e⟩ := entry
        obtain ⟨rfl, hqueued⟩ := List.cons.inj (hheld.symm.trans h.held)
        have hlook : b.event? block = some e := (h.event block e).mpr List.mem_cons_self
        obtain ⟨p, hpool, hblock⟩ := Option.bind_eq_some_iff.mp hlook
        have hnodup := h.nodup
        rw [hheld, List.nodup_cons] at hnodup
        refine ⟨block, e, rest, rfl, hdispatching, ?_⟩
        rw [finishDispatch, hpc, hpool] at hstep
        obtain ⟨⟩ := hstep
        refine ⟨hqueued, hnodup.2, fun c e' => ?_⟩
        change (p.pool.deallocateObject block).blocks.lookup c = _ ↔ _
        have hevent : b.event? c = p.pool.blocks.lookup c := by rw [event?, hpool]; rfl
        have hold := h.event c e'
        rw [hevent, List.mem_cons, Prod.mk.injEq] at hold
        rw [MemoryPool.deallocateObject_blocks, AList.lookup_erase_eq_some, hold]
        constructor
        · rintro ⟨hne, hc⟩
          exact hc.resolve_left fun heq => hne heq.1
        · intro hrest
          refine ⟨?_, .inr hrest⟩
          rintro rfl
          exact hnodup.1 (hqueued ▸ List.mem_map_of_mem hrest)

/-- The loop returns between two events. -/
theorem Holds.exit (h : b.Holds pending) {shutdownRequested : Bool} {b' : EventBus}
    (hstep : b.loopStep shutdownRequested .exit = some b') : b'.Holds pending := by
  cases hpc : b.worker.pc? with
  | none => simp [loopStep, hpc] at hstep
  | some pc =>
    cases pc with
    | dispatching block => simp [loopStep, hpc] at hstep
    | polling =>
      simp only [loopStep, hpc] at hstep
      obtain ⟨-, ⟨⟩⟩ := Option.ite_none_left_eq_some.mp hstep
      have hidle : b.dispatching? = none := by rw [dispatching?, hpc]; rfl
      refine h.of_same ?_ fun _ => rfl
      rw [EventBus.held, EventBus.held, hidle]
      rfl

/-- The queue is emptied. -/
theorem Holds.drain (h : b.Holds pending) (hidle : b.dispatching? = none) :
    b.drain.Holds [] ∧ b.drain.queued = [] ∧
      b.queued.filterMap b.event? = pending.map Prod.snd := by
  have hheld : b.queued = pending.map Prod.fst := by
    rw [← h.held, EventBus.held, hidle]
    rfl
  have hevents : b.queued.filterMap b.event? = pending.map Prod.snd := by
    have heach : pending.filterMap (b.event? ∘ Prod.fst) = pending.filterMap fun x => some x.2 :=
      List.filterMap_congr fun entry hentry => (h.event entry.1 entry.2).mpr hentry
    rw [hheld, List.filterMap_map, heach, List.filterMap_eq_map']
  cases hpool : b.eventPool with
  | none =>
    -- without a pool there is no event
    have hnone : pending = [] := by
      rw [List.eq_nil_iff_forall_not_mem]
      intro entry hentry
      have hsome := (h.event entry.1 entry.2).mpr hentry
      rw [event?, hpool] at hsome
      cases hsome
    have hsame : b.drain = b := by rw [EventBus.drain, hpool]
    subst hnone
    rw [hsame]
    exact ⟨h, hheld, hevents⟩
  | some p =>
    cases hqueue : b.eventQueue with
    | none =>
      have hempty : b.queued = [] := by rw [EventBus.queued, hqueue]; rfl
      have hnone : pending = [] := List.map_eq_nil_iff.mp (hheld.symm.trans hempty)
      have hsame : b.drain = b := by rw [EventBus.drain, hpool, hqueue]
      subst hnone
      rw [hsame]
      exact ⟨h, hempty, hevents⟩
    | some q =>
      have hqueued : b.queued = q.queue.items := by rw [EventBus.queued, hqueue]; rfl
      have hdrained : b.drain = { b with
          eventPool := some { p with pool := q.queue.items.foldl .deallocateObject p.pool }
          eventQueue := some { q with queue := q.queue.emptied } } := by
        rw [EventBus.drain, hpool, hqueue]
      have hnone : b.drain.queued = [] := by rw [hdrained]; rfl
      have hheld' : b.drain.held = [] := by
        have hsame : b.drain.dispatching? = b.dispatching? := by rw [hdrained]; rfl
        rw [EventBus.held, hsame, hidle, hnone]
        rfl
      refine ⟨⟨hheld', hheld' ▸ List.nodup_nil, fun c e => ?_⟩, hnone, hevents⟩
      have hevent : b.drain.event? c =
          if c ∈ q.queue.items then none else p.pool.blocks.lookup c := by
        rw [hdrained]
        exact MemoryPool.lookup_foldl_deallocateObject _ _ _
      rw [hevent]
      refine iff_of_false ?_ List.not_mem_nil
      split_ifs with hc
      · exact not_false
      · intro hsome
        have hentry : (c, e) ∈ pending := by
          rw [← h.event, event?, hpool]
          exact hsome
        rw [← hqueued, hheld] at hc
        exact hc (List.mem_map_of_mem hentry)

/-- A stop that has waited for the loop drains the queue, if there was a thread to wait for. -/
theorem Holds.stopAndJoin (h : b.Holds pending) (hdead : b.worker.alive = false) :
    ∃ pending', (b.stopAndJoin false).Holds pending' ∧
      (if (b.stopAndJoin false).queued = [] then b.queued.filterMap b.event? else []) ++
        pending'.map Prod.snd = pending.map Prod.snd := by
  have hidle := dispatching?_of_not_alive hdead
  have hnone : b.requestStop.worker.pc? = none := by
    rcases b.worker.not_alive_iff.mp hdead with hw | hw
    · rw [requestStop_worker, hw]
      rfl
    · rw [requestStop_worker, hw]
      rfl
  have hfinish : b.requestStop.finishDispatch = b.requestStop := by rw [finishDispatch, hnone]
  have hjoined : (b.requestStop.join false).1 = { b.requestStop with worker := .empty } := by
    rw [EventBus.join, if_neg Bool.false_ne_true, hfinish]
  have hholds : (b.requestStop.join false).1.Holds pending := by
    rw [hjoined]
    refine h.of_same ?_ fun _ => rfl
    rw [EventBus.held, EventBus.held, hidle]
    rfl
  have hstop : b.stopAndJoin false = if (b.requestStop.join false).2 then
      (b.requestStop.join false).1.drain else (b.requestStop.join false).1 := rfl
  rw [hstop]
  split_ifs with hjoin hqueued hqueued
  · obtain ⟨hempty, -, hevents⟩ := hholds.drain (by rw [hjoined]; rfl)
    rw [hjoined] at hevents
    exact ⟨[], hempty, (List.append_nil _).trans hevents⟩
  · obtain ⟨-, hnil, -⟩ := hholds.drain (by rw [hjoined]; rfl)
    exact absurd hnil hqueued
  · rw [hjoined] at hqueued
    have hnil : b.queued = [] := hqueued
    rw [hnil]
    exact ⟨pending, hholds, rfl⟩
  · exact ⟨pending, hholds, rfl⟩

end EventBus

/-! ## The process -/

/-- The two loops of a process, and what they call. -/
structure Process where
  scheduler : RealTimeScheduler
  bus : EventBus
  /-- `errorCallback_` is set -/
  errorCallback : Bool
  /-- `callbacks_`, null where none is registered -/
  callbacks : List (Option ℕ) := []
  nextCallbackId : ℕ := 1
  /-- the callbacks of the snapshot that the event has still to be given to -/
  calls : Option (List ℕ) := none
  /-- an exception has left a thread -/
  terminated : Bool := false

/-- What the threads of the process do. -/
inductive ProcessAction
  /-- a call of the scheduler, or a step of its loop outside of user code -/
  | scheduler (a : TaskAction)
  /-- the user code that the scheduler loop is in comes to its end -/
  | schedulerCall (outcome : CallOutcome)
  | publish (isShuttingDown : Bool) (event : SystemEvent)
  | registerCallback (callback : ℕ)
  | unregisterCallback (id : ℕ)
  | resetCallbacks
  | startDispatch (spawned : Bool)
  | requestStop
  /-- `stopAndJoin()`, once the dispatch loop has ended -/
  | stopAndJoin
  /-- a step of the dispatch loop outside of user code -/
  | dispatch (shutdownRequested : Bool) (step : EventBus.Step)
  /-- the dispatch loop copies `callbacks_` -/
  | snapshot
  /-- the event callback that the dispatch loop is in comes to its end -/
  | dispatchCall (outcome : CallOutcome)

namespace TaskAction

/-- The action is a step of the loop. -/
def isLoop : TaskAction → Bool
  | .loop _ => true
  | _ => false

end TaskAction

namespace Process

variable (p : Process)

/-- The user code that the scheduler loop is in. -/
def schedulerCall? : Option UserCall :=
  p.scheduler.worker.pc?.bind fun pc => match pc with
    | .processAsync _ _ => some .processAsync
    | .processSync _ _ => some .processSync
    | .reporting _ _ _ => if p.errorCallback then some .errorCallback else none
    | _ => none

/-- `registerCallback(cb)`. -/
def registerCallback (callback : ℕ) : Process :=
  let id := p.nextCallbackId
  { p with
    callbacks := (p.callbacks ++ List.replicate (id + 1 - p.callbacks.length) none).set id
      (some callback)
    nextCallbackId := id + 1 }

/-- The call ends: stopped by its clauses, or not. -/
def endCall (call : UserCall) (outcome : CallOutcome) (goesOn : Option Process) : Option Process :=
  if call.contains outcome then goesOn else some { p with terminated := true }

/-- One action; `none` where it waits or does not apply. -/
def step : ProcessAction → Option Process
  | .scheduler a =>
    if p.schedulerCall?.isSome && a.isLoop then none
    else (p.scheduler.act a).map fun s => { p with scheduler := s }
  | .schedulerCall outcome =>
    p.schedulerCall?.bind fun call => p.endCall call outcome <|
      (p.scheduler.act (.loop (call.next outcome))).map fun s => { p with scheduler := s }
  | .publish isShuttingDown event => some { p with bus := (p.bus.publish isShuttingDown event).1 }
  | .registerCallback callback => some (p.registerCallback callback)
  | .unregisterCallback id => some { p with callbacks := p.callbacks.set id none }
  | .resetCallbacks => some { p with callbacks := [], nextCallbackId := 1 }
  | .startDispatch spawned =>
    if p.bus.worker.alive then none else some { p with bus := (p.bus.start spawned).1 }
  | .requestStop => some { p with bus := p.bus.requestStop }
  | .stopAndJoin =>
    if p.bus.worker.alive then none else some { p with bus := p.bus.stopAndJoin false }
  | .dispatch shutdownRequested step =>
    -- the block goes back once the event has been given to all
    if step = .finish ∧ p.calls ≠ some [] then none
    else (p.bus.loopStep shutdownRequested step).map fun bus => { p with bus, calls := none }
  | .snapshot =>
    if p.bus.dispatching?.isSome && p.calls.isNone then
      some { p with calls := some p.callbacks.reduceOption }
    else none
  | .dispatchCall outcome =>
    p.calls.bind fun calls => match calls with
      | [] => none
      | _ :: rest => p.endCall .eventCallback outcome (some { p with calls := some rest })

/-- A process that has been terminated does nothing. -/
def act (a : ProcessAction) : Option Process := if p.terminated then none else p.step a

/-- A scheduler without tasks, and a bus without events. -/
def new (policy : SchedulingPolicy) (errorCallback : Bool) (poolSize queueSize : UInt64) : Process where
  scheduler := .new policy
  bus := (({} : EventBus).newPool 0 poolSize).newQueue 1 queueSize
  errorCallback

end Process

/-- The record of a run. -/
structure ProcessRecord where
  /-- the cycles of the scheduler -/
  cycle : CycleRecord := {}
  /-- the tasks claimed -/
  claims : ℕ := 0
  /-- the executions finalized -/
  finalized : ℕ := 0
  /-- the events accepted -/
  accepted : List SystemEvent := []
  /-- the events that have left the bus: dispatched, or drained by a stop -/
  done : List SystemEvent := []

namespace ProcessRecord

/-- The action is the bookkeeping of an execution. -/
def finalizes : TaskAction → Bool
  | .loop (.finalize _ _ _) => true
  | _ => false

/-- The record after an action of the scheduler. -/
def recordTask (h : ProcessRecord) (s : RealTimeScheduler) (a : TaskAction) (t : RealTimeScheduler) :
    ProcessRecord :=
  { h with
    cycle := h.cycle.record s a t
    claims := h.claims + if s.claimed?.isNone && t.claimed?.isSome then 1 else 0
    finalized := h.finalized + if finalizes a then 1 else 0 }

/-- The record after an action. -/
def record (p : Process) (a : ProcessAction) (q : Process) (h : ProcessRecord) : ProcessRecord :=
  match a with
  | .scheduler a => h.recordTask p.scheduler a q.scheduler
  | .schedulerCall outcome =>
    if q.terminated then h
    else p.schedulerCall?.elim h fun call =>
      h.recordTask p.scheduler (.loop (call.next outcome)) q.scheduler
  | .publish _ event =>
    { h with accepted := h.accepted ++
        if q.bus.queued.length = p.bus.queued.length + 1 then [event] else [] }
  | .dispatch _ .finish =>
    { h with done := h.done ++ (p.bus.dispatching?.bind p.bus.event?).toList }
  | .stopAndJoin =>
    { h with done := h.done ++
        if q.bus.queued = [] then p.bus.queued.filterMap p.bus.event? else [] }
  | _ => h

end ProcessRecord

/-- A process and the record of its run. -/
abbrev ProcessRun := Process × ProcessRecord

namespace ProcessRun

/-- **The runs of a process.** -/
def machine (policy : SchedulingPolicy) (errorCallback : Bool) (poolSize queueSize : UInt64) :
    Machine ProcessRun ProcessAction :=
  Machine.withHistory ⟨fun p => p = .new policy errorCallback poolSize queueSize, Process.act⟩ {}
    ProcessRecord.record

/-- **User code is contained.** -/
structure Contained (p : ProcessRun) : Prop where
  /-- both loops survive -/
  survives : p.1.terminated = false
  /-- a task says that it executes only while the loop has its claim on it -/
  released : p.1.scheduler.ExecutingClaimed
  /-- and every claim ends in the bookkeeping -/
  finalized : p.2.claims = p.2.finalized + p.1.scheduler.claimed?.toList.length
  /-- a cycle goes on with the ready tasks whose turns have not come -/
  turns : ∃ later, (p.2.cycle.turns.map (·.ready) ++ later).Perm p.2.cycle.ready ∧
    ∀ rest, p.1.scheduler.remaining? = some rest → later.map (·.id) = rest
  /-- and is left while `running_` is set when all have come, or at the id 0 -/
  complete : p.2.cycle.finished = true →
    (∀ r ∈ p.2.cycle.ready, ∃ r' ∈ p.2.cycle.turns, r'.ready = r) ∨ ∃ r ∈ p.2.cycle.ready, r.id = 0
  /-- the accepted events are done in their order, and those that are not hold the blocks -/
  events : ∃ pending, p.1.bus.Holds pending ∧
    p.2.accepted = p.2.done ++ pending.map Prod.snd

/-- **The condition**: a call that ends in the step is contained. -/
structure CallContained (p : ProcessRun) (a : ProcessAction) : Prop where
  scheduler : ∀ outcome call, a = .schedulerCall outcome → p.1.schedulerCall? = some call →
    call.contains outcome = true
  dispatch : ∀ outcome, a = .dispatchCall outcome →
    UserCall.eventCallback.contains outcome = true

/-! ## The tasks -/

open RealTimeScheduler CycleRun

variable {s t : RealTimeScheduler} {h : ProcessRecord} {a : TaskAction}

/-- A cycle that was left while `running_` was set has come to all, or to the id 0. -/
def CycleComplete (h : CycleRecord) : Prop :=
  h.finished = true → (∀ r ∈ h.ready, ∃ r' ∈ h.turns, r'.ready = r) ∨ ∃ r ∈ h.ready, r.id = 0

/-- A cycle that has no turns to come has come to all. -/
theorem cycleComplete_leave {c : CycleRecord} (hI : CycleInv s c) {ids : List ℕ}
    (hpc : s.worker.pc? = some (.cycle (.ready ids)))
    (hwhy : s.running = true → ids = [] ∨ ids.head? = some 0) :
    CycleComplete { c with finished := s.running } := by
  intro hrunning
  obtain ⟨later, hperm, -, hnext⟩ := hI.position
  have hlater : later.map (·.id) = ids := hnext ids (by rw [remaining?, hpc]; rfl)
  rcases hwhy hrunning with rfl | hzero
  · rw [List.map_eq_nil_iff.mp hlater, List.append_nil] at hperm
    exact .inl fun r hr => List.mem_map.mp (hperm.mem_iff.mpr hr)
  · cases later with
    | nil =>
      rw [← hlater] at hzero
      cases hzero
    | cons r later =>
      rw [← hlater] at hzero
      exact .inr ⟨r, hperm.mem_iff.mp (List.mem_append_right _ List.mem_cons_self),
        Option.some.inj hzero⟩

theorem cycleComplete_record {c : CycleRecord} (hI : CycleInv s c) (hc : CycleComplete c)
    (hact : s.act a = some t) : CycleComplete (c.record s a t) := by
  cases a with
  | addTask unit name constraints now =>
    unfold CycleRecord.record
    dsimp only
    split
    · exact hc
    · exact hc
  | loop step =>
    have hmove : CycleMove s c step t (c.recordLoop s step t) := cycleMove_of_loopStep hact
    have hrecord : c.record s (.loop step) t = c.recordLoop s step t := rfl
    rw [hrecord]
    revert hmove
    generalize c.recordLoop s step t = c'
    intro hmove
    cases hmove with
    | begin now order last hpc horder => exact fun hfinished => by cases hfinished
    | next id ids hpc hid => exact fun hfinished => by cases hfinished
    | leave ids hpc hwhy => exact cycleComplete_leave hI hpc hwhy
    | turn id ids hpc =>
      intro hfinished
      refine (hc hfinished).imp_left fun hall r hr => ?_
      obtain ⟨r', hr', heq⟩ := hall r hr
      exact ⟨r', List.mem_append_left _ hr', heq⟩
    | other step t htasks hrest hcycle hpicked => exact hc
  | _ => exact hc

/-- The bookkeeping releases a claim. -/
theorem claimed?_finalize {start stop now : TimePoint}
    (hstep : s.loopStep (.finalize start stop now) = some t) :
    ∃ block, s.claimed? = some block ∧ t.claimed? = none := by
  obtain ⟨block, success, plan, hpc, rfl⟩ := Owned.exists_of_finalize hstep
  refine ⟨block, by rw [claimed?, hpc]; rfl, ?_⟩
  unfold finalizeTaskExecution
  split
  · rfl
  · rw [claimed?, WorkerThread.pc?_running, Option.bind_some]
    split_ifs <;> rfl

/-- A claim that is taken counts, and so does its bookkeeping. -/
theorem finalized_recordTask
    (hcount : h.claims = h.finalized + s.claimed?.toList.length) (hact : s.act a = some t) :
    (h.recordTask s a t).claims =
      (h.recordTask s a t).finalized + t.claimed?.toList.length := by
  have hclaims : (h.recordTask s a t).claims =
      h.claims + if s.claimed?.isNone && t.claimed?.isSome then 1 else 0 := rfl
  have hfinalized : (h.recordTask s a t).finalized =
      h.finalized + if ProcessRecord.finalizes a then 1 else 0 := rfl
  rw [hclaims, hfinalized, hcount]
  cases claimMove_of_act hact with
  | same hsame =>
    have hnot : ProcessRecord.finalizes a = false := by
      rw [← Bool.not_eq_true]
      intro hfinalizes
      cases a with
      | loop step =>
        cases step with
        | finalize start stop now =>
          obtain ⟨block, hs, ht⟩ := claimed?_finalize hact
          rw [hs, ht] at hsame
          cases hsame
        | _ => cases hfinalizes
      | _ => cases hfinalizes
    rw [hnot, hsame]
    cases s.claimed? <;> rfl
  | taken id block plan ha hpc hid hclaimed hrest hready =>
    have hidle : s.claimed? = none := by rw [claimed?, hpc]; rfl
    subst ha
    rw [hidle, hclaimed]
    rfl
  | released block start stop now ha hs ht =>
    subst ha
    rw [hs, ht]
    rfl

/-- **What every run keeps.** -/
structure ProcessInv (p : ProcessRun) : Prop where
  survives : p.1.terminated = false
  cycle : CycleInv p.1.scheduler p.2.cycle
  complete : CycleComplete p.2.cycle
  finalized : p.2.claims = p.2.finalized + p.1.scheduler.claimed?.toList.length
  events : ∃ pending, p.1.bus.Holds pending ∧
    p.2.accepted = p.2.done ++ pending.map Prod.snd

theorem ProcessInv.contained {p : ProcessRun} (hp : ProcessInv p) : Contained p :=
  { hp with
    released := hp.cycle.executing
    turns := by
      obtain ⟨later, hperm, -, hnext⟩ := hp.cycle.position
      exact ⟨later, hperm, hnext⟩ }

/-- **An action of the scheduler.** -/
theorem ProcessInv.recordTask {p : Process} (hp : ProcessInv (p, h))
    (hact : p.scheduler.act a = some t) :
    ProcessInv ({ p with scheduler := t }, h.recordTask p.scheduler a t) :=
  { hp with
    cycle := hp.cycle.step hact
    complete := cycleComplete_record hp.cycle hp.complete hact
    finalized := finalized_recordTask hp.finalized hact }

/-- **One step under the condition.** -/
theorem ProcessInv.step {p q : Process} {h' : ProcessRecord} {a : ProcessAction}
    (hp : ProcessInv (p, h)) (hG : CallContained (p, h) a) (hact : p.act a = some q)
    (hrecord : h.record p a q = h') : ProcessInv (q, h') := by
  have hstep : p.step a = some q := (Option.ite_none_left_eq_some.mp hact).2
  subst hrecord
  obtain ⟨pending, hholds, haccepted⟩ := hp.events
  -- what leaves the tasks, and the events
  have hbus {q : Process} {h' : ProcessRecord} (hscheduler : q.scheduler = p.scheduler)
      (hsurvives : q.terminated = false) (hcycle : h'.cycle = h.cycle) (hclaims : h'.claims = h.claims)
      (hfinalized : h'.finalized = h.finalized)
      (hevents : ∃ pending, q.bus.Holds pending ∧ h'.accepted = h'.done ++ pending.map Prod.snd) :
      ProcessInv (q, h') := by
    refine ⟨hsurvives, ?_, ?_, ?_, hevents⟩
    · change CycleInv q.scheduler h'.cycle
      rw [hscheduler, hcycle]
      exact hp.cycle
    · change CycleComplete h'.cycle
      rw [hcycle]
      exact hp.complete
    · change h'.claims = h'.finalized + q.scheduler.claimed?.toList.length
      rw [hclaims, hfinalized, hscheduler]
      exact hp.finalized
  have hquiet {q : Process} (hscheduler : q.scheduler = p.scheduler)
      (hsurvives : q.terminated = false) (hheld : q.bus.held = p.bus.held)
      (hevent : ∀ c, q.bus.event? c = p.bus.event? c) : ProcessInv (q, h) :=
    hbus hscheduler hsurvives rfl rfl rfl ⟨pending, hholds.of_same hheld hevent, haccepted⟩
  have hsurvives : p.terminated = false := hp.survives
  cases a with
  | scheduler a =>
    obtain ⟨-, hsome⟩ := Option.ite_none_left_eq_some.mp hstep
    obtain ⟨t, ht, rfl⟩ := Option.map_eq_some_iff.mp hsome
    exact hp.recordTask ht
  | schedulerCall outcome =>
    obtain ⟨call, hcall, hended⟩ := Option.bind_eq_some_iff.mp hstep
    rw [Process.endCall, if_pos (hG.scheduler outcome call rfl hcall)] at hended
    obtain ⟨t, ht, rfl⟩ := Option.map_eq_some_iff.mp hended
    have hrec : h.record p (.schedulerCall outcome) { p with scheduler := t } =
        h.recordTask p.scheduler (.loop (call.next outcome)) t := by
      rw [ProcessRecord.record, if_neg (by simp [hsurvives]), hcall]
      rfl
    rw [hrec]
    exact hp.recordTask ht
  | publish isShuttingDown event =>
    obtain ⟨⟩ := hstep
    refine hbus rfl hsurvives rfl rfl rfl ?_
    rcases hholds.publish isShuttingDown event with ⟨block, haccept, hlength⟩ | ⟨hsame, hqueued⟩
    · refine ⟨_, haccept, ?_⟩
      change h.accepted ++ (if _ then _ else _) = h.done ++ _
      rw [if_pos hlength, haccepted, List.map_append, List.append_assoc]
      rfl
    · refine ⟨_, hsame, ?_⟩
      change h.accepted ++ (if _ then _ else _) = h.done ++ _
      have hnot : ¬ (p.bus.publish isShuttingDown event).1.queued.length =
          p.bus.queued.length + 1 := by
        rw [hqueued]
        exact Nat.ne_of_lt (Nat.lt_succ_self _)
      rw [if_neg hnot, List.append_nil, haccepted]
  | startDispatch spawned =>
    obtain ⟨hdead, ⟨⟩⟩ := Option.ite_none_left_eq_some.mp hstep
    have hidle := EventBus.dispatching?_of_not_alive (Bool.not_eq_true _ ▸ hdead)
    refine hquiet rfl hsurvives ?_ fun _ => ?_
    · rw [EventBus.held, EventBus.held, hidle]
      cases spawned <;> rfl
    · cases spawned <;> rfl
  | stopAndJoin =>
    obtain ⟨hdead, ⟨⟩⟩ := Option.ite_none_left_eq_some.mp hstep
    refine hbus rfl hsurvives rfl rfl rfl ?_
    obtain ⟨pending', hrest, hdone⟩ := hholds.stopAndJoin (Bool.not_eq_true _ ▸ hdead)
    refine ⟨pending', hrest, ?_⟩
    change h.accepted = h.done ++ (if _ then _ else _) ++ _
    rw [List.append_assoc, hdone, haccepted]
  | dispatch shutdownRequested step =>
    obtain ⟨hready, hsome⟩ := Option.ite_none_left_eq_some.mp hstep
    obtain ⟨bus, hloop, rfl⟩ := Option.map_eq_some_iff.mp hsome
    cases step with
    | dequeue =>
      refine hbus rfl hsurvives rfl rfl rfl ⟨pending, hholds.dequeue hloop, haccepted⟩
    | finish =>
      refine hbus rfl hsurvives rfl rfl rfl ?_
      obtain ⟨block, e, rest, rfl, hdispatching, hrest⟩ := hholds.finish hloop
      refine ⟨rest, hrest, ?_⟩
      change h.accepted = h.done ++ (p.bus.dispatching?.bind p.bus.event?).toList ++ _
      rw [hdispatching, Option.bind_some, (hholds.event block e).mpr List.mem_cons_self, haccepted,
        List.append_assoc]
      rfl
    | exit =>
      refine hbus rfl hsurvives rfl rfl rfl ⟨pending, hholds.exit hloop, haccepted⟩
  | snapshot =>
    obtain ⟨-, rfl⟩ := guarded hstep
    exact hquiet rfl hsurvives rfl fun _ => rfl
  | dispatchCall outcome =>
    obtain ⟨calls, hcalls, hended⟩ := Option.bind_eq_some_iff.mp hstep
    cases calls with
    | nil => cases hended
    | cons call rest =>
      dsimp only at hended
      rw [Process.endCall, if_pos (hG.dispatch outcome rfl)] at hended
      obtain ⟨⟩ := hended
      exact hquiet rfl hsurvives rfl fun _ => rfl
  | _ =>
    obtain ⟨⟩ := hstep
    exact hquiet rfl hsurvives rfl fun _ => rfl

/-- A call that is not contained ends the process. -/
theorem callContained_of_survives {p q : Process} {a : ProcessAction} (hact : p.act a = some q)
    (hsurvives : q.terminated = false) : CallContained (p, h) a := by
  have hstep : p.step a = some q := (Option.ite_none_left_eq_some.mp hact).2
  have hends {call : UserCall} {outcome : CallOutcome} {goesOn : Option Process}
      (hended : p.endCall call outcome goesOn = some q) : call.contains outcome = true := by
    by_contra hescapes
    rw [Process.endCall, if_neg hescapes] at hended
    obtain ⟨⟩ := hended
    cases hsurvives
  constructor
  · rintro outcome call rfl hcall
    obtain ⟨call', hcall', hended⟩ := Option.bind_eq_some_iff.mp hstep
    obtain rfl := Option.some.inj (hcall'.symm.trans hcall)
    exact hends hended
  · rintro outcome rfl
    obtain ⟨calls, hcalls, hended⟩ := Option.bind_eq_some_iff.mp hstep
    cases calls with
    | nil => cases hended
    | cons call rest => exact hends hended

theorem ProcessInv.new (policy : SchedulingPolicy) (errorCallback : Bool)
    (poolSize queueSize : UInt64) :
    ProcessInv (.new policy errorCallback poolSize queueSize, {}) where
  survives := rfl
  cycle := .fresh policy
  complete hfinished := by cases hfinished
  finalized := rfl
  events := by
    refine ⟨[], ⟨rfl, List.nodup_nil, fun c e => ?_⟩, rfl⟩
    refine iff_of_false ?_ List.not_mem_nil
    intro hsome
    have hnone : (Process.new policy errorCallback poolSize queueSize).bus.event? c = none := by
      change (MemoryPool.new poolSize : MemoryPool SystemEvent).blocks.lookup c = none
      rw [MemoryPool.new_blocks, AList.lookup_empty]
    cases hnone.symm.trans hsome

/-- **User code is contained in a run exactly as long as none of its calls throws past the clauses
around it.** -/
theorem contained_iff (policy : SchedulingPolicy) (errorCallback : Bool)
    (poolSize queueSize : UInt64) (as : List ProcessAction) :
    (machine policy errorCallback poolSize queueSize).Always Contained
        (.new policy errorCallback poolSize queueSize, {}) as ↔
      (machine policy errorCallback poolSize queueSize).Allowed CallContained
        (.new policy errorCallback poolSize queueSize, {}) as := by
  refine Machine.always_iff_allowed_of_invariant (I := ProcessInv) (fun p a q hp hG hstep => ?_)
    (fun p hp => hp.contained) (fun p a q hp hstep hq => ?_) (.new ..) as
  · obtain ⟨hact, hrecord⟩ := Machine.withHistory_step.mp hstep
    exact hp.step hG hact hrecord
  · obtain ⟨hact, -⟩ := Machine.withHistory_step.mp hstep
    exact callContained_of_survives hact hq.survives

/-- A unit that throws what is no `std::exception`. -/
def unitThrows : List ProcessAction :=
  [.scheduler (.addTask 7 "unit" { period := 10 } 0), .scheduler (.start true),
    .scheduler (.loop .advance), .scheduler (.loop .advance), .scheduler (.loop (.select 12 [1])),
    .scheduler (.loop .advance), .scheduler (.loop .advance), .schedulerCall .throwsOther]

/-- **It ends the process.** -/
theorem unitThrows_terminates : ¬ ∀ (policy : SchedulingPolicy) (errorCallback : Bool)
    (poolSize queueSize : UInt64) (as : List ProcessAction),
    (machine policy errorCallback poolSize queueSize).Always Contained
      (.new policy errorCallback poolSize queueSize, {}) as := by
  intro hall
  have hrun : ((machine .priorityBased true 16 16).exec (.new .priorityBased true 16 16, {})
      unitThrows).any (fun p => p.1.terminated) = true := by
    decide +kernel
  obtain ⟨p, hexec, hterminated⟩ := (Option.any_eq_true _ _).mp hrun
  have hsurvives := ((hall .priorityBased true 16 16 unitThrows).exec hexec).survives
  cases hterminated.symm.trans hsurvives

end ProcessRun

end AxonVex
