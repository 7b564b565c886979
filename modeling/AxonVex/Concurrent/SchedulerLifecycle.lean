import AxonVex.Concurrent.SchedulerCalls

/-!
# Concurrent/SchedulerLifecycle — one loop at a time

`Inv` is the invariant of the scheduler's lifecycle calls.  Four things have one owner at a time: the
two mutexes, the handle of the worker and the published id.  A call on the scheduler's own thread
does not get past its self-check, and a call that has `lifecycleMutex_` relies on what only another
call with that mutex could change: `running_` stays clear from the test (or the store) on to the
join, and a joined handle stays joined up to the next creation.
-/

namespace AxonVex

open Machinery

/-! ## What the positions of a call rely on -/

/-- `lifecycleMutex_` is held. -/
def SchedulerCall.holdsLifecycle : SchedulerCall → Bool
  | .start .latch => false
  | .start .selfCheck => false
  | .start .lock => false
  | .start _ => true
  | .stop (.halt _) => false
  | .stop .selfCheck => false
  | .stop .lock => false
  | .stop _ => true
  | _ => false

/-- `handleMutex_` is held. -/
def SchedulerCall.holdsHandle : SchedulerCall → Bool
  | .start .joinStale => true
  | .start .setRunning => true
  | .start .clearPaused => true
  | .start .spawn => true
  | .start (.unlockHandle _) => true
  | .start .unlockTuning => true
  | .stop .join => true
  | .stop .resetHandle => true
  | .stop .unlockHandle => true
  | .tune .unlockHandle => true
  | _ => false

/-- What the scheduler's own thread does in a call: the self-check is the last of it. -/
def SchedulerCall.beforeSelfCheck : SchedulerCall → Bool
  | .start .latch => true
  | .start .selfCheck => true
  | .start _ => false
  | .stop (.halt _) => true
  | .stop .selfCheck => true
  | .stop _ => false
  | _ => true

/-- What a call relies on: `running_`, and whether the handle is joinable. -/
def SchedulerCall.ready (running joinable : Bool) : SchedulerCall → Bool
  | .start .workerCheck => !running
  | .start .lockHandle => !running
  | .start .joinStale => !running
  | .start .setRunning => !joinable
  | .start .clearPaused => !joinable
  | .start .spawn => !joinable
  | .stop .workerCheck => !running
  | .stop .lockHandle => !running
  | .stop .join => !running
  | .stop .resetHandle => !joinable
  | .stop .unlockHandle => !joinable
  | .stop .unlock => !joinable
  | _ => true

/-- The thread is in a join. -/
def SchedulerCall.joins : SchedulerCall → Bool
  | .start .joinStale => true
  | .stop .join => true
  | _ => false

/-- The thread that a handle can join. -/
def ThreadHandle.thread? : ThreadHandle → Option ThreadId
  | null => none
  | joinable thread => some thread
  | joined => none

namespace ThreadPc

/-- The thread of the worker, until it is joined. -/
def isWorker : ThreadPc → Bool
  | absent => false
  | external _ => false
  | _ => true

/-- The thread has published its id. -/
def isPublished : ThreadPc → Bool
  | test => true
  | turn => true
  | task _ => true
  | clear => true
  | _ => false

/-- The thread is in `schedulerLoop`. -/
def inLoop : ThreadPc → Bool
  | test => true
  | turn => true
  | task _ => true
  | _ => false

/-- User code is running, or a call it makes. -/
def inUserCode : ThreadPc → Bool
  | external _ => true
  | task _ => true
  | _ => false

/-- The thread is in a call at a position that `f` is true of. -/
def holds (f : SchedulerCall → Bool) (pc : ThreadPc) : Bool := pc.call?.any f

variable {pc : ThreadPc} {call : SchedulerCall} {call' : Option SchedulerCall}

theorem inUserCode_of_call? (h : pc.call? = some call) : pc.inUserCode = true := by
  cases pc <;> first | rfl | exact absurd h (by simp [call?])

theorem inUserCode_of_mayCall (h : pc.mayCall = true) : pc.inUserCode = true := by
  cases pc <;> first | rfl | exact absurd h (by simp [mayCall])

theorem call?_of_mayCall (h : pc.mayCall = true) : pc.call? = none := by
  cases pc <;> simp_all [mayCall, call?]

theorem call?_withCall (h : pc.inUserCode = true) : (pc.withCall call').call? = call' := by
  cases pc <;> first | rfl | exact absurd h (by simp [inUserCode])

@[simp] theorem isWorker_withCall : (pc.withCall call').isWorker = pc.isWorker := by
  cases pc <;> rfl

@[simp] theorem isPublished_withCall : (pc.withCall call').isPublished = pc.isPublished := by
  cases pc <;> rfl

theorem isWorker_of_inLoop (h : pc.inLoop = true) : pc.isWorker = true := by
  cases pc <;> first | rfl | exact absurd h (by simp [inLoop])

/-- The worker makes its calls from the code of a task. -/
theorem eq_task (hw : pc.isWorker = true) (h : pc.call? = some call) : pc = .task (some call) := by
  cases pc <;> simp_all [isWorker, call?]

end ThreadPc

namespace SchedulerThreads

variable {p q : SchedulerThreads} {i j : ThreadId} {call : SchedulerCall}
  {call' : Option SchedulerCall}

/-! ## What one step of a call does -/

/-- **What one step of a call does**, when the call has what it relies on and is not past its
self-check on the scheduler's own thread. -/
structure CallEffect (p q : SchedulerThreads) (i : ThreadId) (call : SchedulerCall)
    (call' : Option SchedulerCall) : Prop where
  threadId : q.threadId = p.threadId
  lifecycle : MovesLock i p.lifecycleMutex q.lifecycleMutex call.holdsLifecycle
    (call'.any SchedulerCall.holdsLifecycle)
  handle : MovesLock i p.handleMutex q.handleMutex call.holdsHandle
    (call'.any SchedulerCall.holdsHandle)
  /-- a thread that has ended is joined, or the handle keeps its thread -/
  worker : q.threads = p.threads ∧ q.handle.thread? = p.handle.thread? ∨
    ∃ j, p.handle = .joinable j ∧ p.threads j = .finished ∧
      q.threads = Function.update p.threads j .absent ∧ q.handle = .joined
  /-- `running_` is set with `lifecycleMutex_` held -/
  running : q.running = true → p.running = true ∨ call.holdsLifecycle = true
  ready : call'.all (SchedulerCall.ready q.running q.handle.thread?.isSome) = true
  selfCheck : p.threadId = some i → call'.all SchedulerCall.beforeSelfCheck = true

/-- The join of a handle. -/
theorem joinThread_eq_some {thread : ThreadId} (h : p.joinThread thread = some q) :
    p.threads thread = .finished ∧ q = { p.setThread thread .absent with handle := .joined } := by
  unfold joinThread at h
  split at h
  next hf => exact ⟨hf, (Option.some.inj h).symm⟩
  next => cases h

/-- A call that is past its self-check is not on the scheduler's own thread. -/
theorem of_past {c d : Prop} (h : c → false = true) : c → d := fun hc => absurd (h hc) (by decide)

theorem startStep_effect {pc : SchedulerStartPc} {pc' : Option SchedulerStartPc}
    (h : p.startStep i pc = some (q, pc'))
    (hr : (SchedulerCall.start pc).ready p.running p.handle.thread?.isSome = true)
    (hself : p.threadId = some i → (SchedulerCall.start pc).beforeSelfCheck = true) :
    CallEffect p q i (.start pc) (pc'.map .start) := by
  cases pc with
  | latch =>
    obtain ⟨⟩ := h
    exact ⟨rfl, .keep, .keep, .inl ⟨rfl, rfl⟩, .inl, rfl, fun _ => rfl⟩
  | selfCheck =>
    obtain ⟨⟩ := h
    refine ⟨rfl, ?_, ?_, .inl ⟨rfl, rfl⟩, .inl, ?_, fun hself => ?_⟩
    · split <;> exact .keep
    · split <;> exact .keep
    · split <;> rfl
    · simp [isOnThisThread, hself]
  | lock =>
    obtain ⟨hfree, rfl, rfl⟩ := lock_eq_some h
    exact ⟨rfl, hfree ▸ .lock, .keep, .inl ⟨rfl, rfl⟩, .inl, rfl, of_past hself⟩
  | testRunning =>
    obtain ⟨⟩ := h
    refine ⟨rfl, ?_, ?_, .inl ⟨rfl, rfl⟩, .inl, ?_, of_past hself⟩
    · split <;> exact .keep
    · split <;> exact .keep
    · split
      · rfl
      next hrunning => simpa [SchedulerCall.ready] using hrunning
  | workerCheck =>
    obtain ⟨⟩ := h
    refine ⟨rfl, ?_, ?_, .inl ⟨rfl, rfl⟩, .inl, ?_, of_past hself⟩
    · split <;> exact .keep
    · split <;> exact .keep
    · split
      · rfl
      · exact hr
  | lockHandle =>
    obtain ⟨hfree, rfl, rfl⟩ := lock_eq_some h
    exact ⟨rfl, .keep, hfree ▸ .lock, .inl ⟨rfl, rfl⟩, .inl, hr, of_past hself⟩
  | joinStale =>
    simp only [startStep] at h
    split at h
    next thread hj =>
      obtain ⟨r, hr, ⟨⟩⟩ := Option.map_eq_some_iff.mp h
      obtain ⟨hfinished, rfl⟩ := joinThread_eq_some hr
      exact ⟨rfl, .keep, .keep, .inr ⟨thread, hj, hfinished, rfl, rfl⟩, .inl, rfl, of_past hself⟩
    all_goals
      next hj =>
      obtain ⟨⟩ := h
      exact ⟨rfl, .keep, .keep, .inl ⟨rfl, rfl⟩, .inl, by rw [hj]; rfl, of_past hself⟩
  | setRunning =>
    obtain ⟨⟩ := h
    exact ⟨rfl, .keep, .keep, .inl ⟨rfl, rfl⟩, fun _ => .inr rfl, hr, of_past hself⟩
  | clearPaused =>
    obtain ⟨⟩ := h
    exact ⟨rfl, .keep, .keep, .inl ⟨rfl, rfl⟩, .inl, hr, of_past hself⟩
  | spawn => exact absurd h (by simp [startStep])
  | unlockHandle threw =>
    obtain ⟨⟩ := h
    cases threw <;>
      exact ⟨rfl, .keep, .unlock, .inl ⟨rfl, rfl⟩, .inl, rfl, of_past hself⟩
  | testRealTime =>
    obtain ⟨⟩ := h
    refine ⟨rfl, ?_, ?_, .inl ⟨rfl, rfl⟩, .inl, ?_, of_past hself⟩
    · split <;> exact .keep
    · split <;> exact .keep
    · split <;> rfl
  | lockTuning =>
    obtain ⟨hfree, rfl, rfl⟩ := lock_eq_some h
    exact ⟨rfl, .keep, hfree ▸ .lock, .inl ⟨rfl, rfl⟩, .inl, rfl, of_past hself⟩
  | unlockTuning =>
    obtain ⟨⟩ := h
    exact ⟨rfl, .keep, .unlock, .inl ⟨rfl, rfl⟩, .inl, rfl, of_past hself⟩
  | unlock =>
    obtain ⟨⟩ := h
    exact ⟨rfl, .unlock, .keep, .inl ⟨rfl, rfl⟩, .inl, rfl, of_past hself⟩

theorem stopStep_effect {pc : SchedulerStopPc} {pc' : Option SchedulerStopPc}
    (h : p.stopStep i pc = some (q, pc'))
    (hr : (SchedulerCall.stop pc).ready p.running p.handle.thread?.isSome = true)
    (hself : p.threadId = some i → (SchedulerCall.stop pc).beforeSelfCheck = true) :
    CallEffect p q i (.stop pc) (pc'.map .stop) := by
  cases pc with
  | halt pc =>
    cases pc <;> obtain ⟨rfl, rfl⟩ := pair_inj h <;>
      exact ⟨rfl, .keep, .keep, .inl ⟨rfl, rfl⟩, by simp +contextual, rfl, fun _ => rfl⟩
  | selfCheck =>
    obtain ⟨⟩ := h
    refine ⟨rfl, ?_, ?_, .inl ⟨rfl, rfl⟩, .inl, ?_, fun hself => ?_⟩
    · split <;> exact .keep
    · split <;> exact .keep
    · split <;> rfl
    · simp [isOnThisThread, hself]
  | lock =>
    obtain ⟨hfree, rfl, rfl⟩ := lock_eq_some h
    exact ⟨rfl, hfree ▸ .lock, .keep, .inl ⟨rfl, rfl⟩, .inl, rfl, of_past hself⟩
  | clearRunning =>
    obtain ⟨⟩ := h
    exact ⟨rfl, .keep, .keep, .inl ⟨rfl, rfl⟩, by simp, rfl, of_past hself⟩
  | workerCheck =>
    obtain ⟨⟩ := h
    refine ⟨rfl, ?_, ?_, .inl ⟨rfl, rfl⟩, .inl, ?_, of_past hself⟩
    · split <;> exact .keep
    · split <;> exact .keep
    · split
      next hon => exact absurd (hself (by simpa [isOnThisThread] using hon)) (by decide)
      next => exact hr
  | lockHandle =>
    obtain ⟨hfree, rfl, rfl⟩ := lock_eq_some h
    exact ⟨rfl, .keep, hfree ▸ .lock, .inl ⟨rfl, rfl⟩, .inl, hr, of_past hself⟩
  | join =>
    simp only [stopStep] at h
    split at h
    next thread hj =>
      obtain ⟨r, hr, ⟨⟩⟩ := Option.map_eq_some_iff.mp h
      obtain ⟨hfinished, rfl⟩ := joinThread_eq_some hr
      exact ⟨rfl, .keep, .keep, .inr ⟨thread, hj, hfinished, rfl, rfl⟩, .inl, rfl, of_past hself⟩
    all_goals
      next hj =>
      obtain ⟨⟩ := h
      exact ⟨rfl, .keep, .keep, .inl ⟨rfl, rfl⟩, .inl, by rw [hj]; rfl, of_past hself⟩
  | resetHandle =>
    obtain ⟨⟩ := h
    have hnone : p.handle.thread? = none := by simpa [SchedulerCall.ready] using hr
    exact ⟨rfl, .keep, .keep, .inl ⟨rfl, hnone.symm⟩, .inl, rfl, of_past hself⟩
  | unlockHandle =>
    obtain ⟨⟩ := h
    exact ⟨rfl, .keep, .unlock, .inl ⟨rfl, rfl⟩, .inl, hr, of_past hself⟩
  | unlock =>
    obtain ⟨⟩ := h
    exact ⟨rfl, .unlock, .keep, .inl ⟨rfl, rfl⟩, .inl, rfl, of_past hself⟩

theorem tuneStep_effect {pc : SchedulerTunePc} {pc' : Option SchedulerTunePc}
    (h : p.tuneStep i pc = some (q, pc')) : CallEffect p q i (.tune pc) (pc'.map .tune) := by
  cases pc with
  | setRealTime enable =>
    obtain ⟨⟩ := h
    cases enable <;> exact ⟨rfl, .keep, .keep, .inl ⟨rfl, rfl⟩, .inl, rfl, fun _ => rfl⟩
  | lockHandle =>
    obtain ⟨hfree, rfl, rfl⟩ := lock_eq_some h
    exact ⟨rfl, .keep, hfree ▸ .lock, .inl ⟨rfl, rfl⟩, .inl, rfl, fun _ => rfl⟩
  | unlockHandle =>
    obtain ⟨⟩ := h
    exact ⟨rfl, .keep, .unlock, .inl ⟨rfl, rfl⟩, .inl, rfl, fun _ => rfl⟩

/-- **One step of any call.** -/
theorem callStep_effect (h : p.callStep i call = some (q, call'))
    (hr : call.ready p.running p.handle.thread?.isSome = true)
    (hself : p.threadId = some i → call.beforeSelfCheck = true) :
    CallEffect p q i call call' := by
  cases call with
  | start pc =>
    obtain ⟨⟨q', pc'⟩, hstep, ⟨⟩⟩ := Option.map_eq_some_iff.mp h
    exact startStep_effect hstep hr hself
  | stop pc =>
    obtain ⟨⟨q', pc'⟩, hstep, ⟨⟩⟩ := Option.map_eq_some_iff.mp h
    exact stopStep_effect hstep hr hself
  | halt pc =>
    cases pc <;> obtain ⟨rfl, rfl⟩ := pair_inj h <;>
      exact ⟨rfl, .keep, .keep, .inl ⟨rfl, rfl⟩, by simp +contextual, rfl, fun _ => rfl⟩
  | pause =>
    obtain ⟨⟩ := h
    exact ⟨rfl, .keep, .keep, .inl ⟨rfl, rfl⟩, .inl, rfl, fun _ => rfl⟩
  | resume =>
    obtain ⟨⟩ := h
    exact ⟨rfl, .keep, .keep, .inl ⟨rfl, rfl⟩, .inl, rfl, fun _ => rfl⟩
  | tune pc =>
    obtain ⟨⟨q', pc'⟩, hstep, ⟨⟩⟩ := Option.map_eq_some_iff.mp h
    exact tuneStep_effect hstep

/-! ## The invariant -/

/-- **The invariant of the lifecycle calls.** -/
structure Inv (p : SchedulerThreads) : Prop where
  lifecycle : Owns p.lifecycleMutex p.threads (ThreadPc.holds SchedulerCall.holdsLifecycle)
  handle : Owns p.handleMutex p.threads (ThreadPc.holds SchedulerCall.holdsHandle)
  worker : Owns p.handle.thread? p.threads ThreadPc.isWorker
  published : Owns p.threadId p.threads ThreadPc.isPublished
  ready : ∀ i call, (p.threads i).call? = some call →
    call.ready p.running p.handle.thread?.isSome = true
  selfChecked : ∀ i call, p.threads i = .task (some call) → call.beforeSelfCheck = true

/-- Only a call that has `lifecycleMutex_` relies on anything. -/
theorem ready_of_not_holdsLifecycle {running joinable : Bool} (h : call.holdsLifecycle = false) :
    call.ready running joinable = true := by
  cases call with
  | start pc => cases pc <;> first | rfl | exact absurd h (by decide)
  | stop pc => cases pc <;> first | rfl | exact absurd h (by decide)
  | _ => rfl

/-- What a call relies on stays when flags are cleared and handles joined. -/
theorem ready_mono {running joinable running' joinable' : Bool}
    (h : call.ready running joinable = true) (hr : running' = true → running = true)
    (hj : joinable' = true → joinable = true) : call.ready running' joinable' = true := by
  cases call with
  | start pc =>
    cases pc <;> simp_all only [SchedulerCall.ready, Bool.not_eq_true', imp_false,
      Bool.not_eq_true, Bool.false_eq_true]
  | stop pc =>
    cases pc <;> simp_all only [SchedulerCall.ready, Bool.not_eq_true', imp_false,
      Bool.not_eq_true, Bool.false_eq_true]
  | _ => rfl

theorem inv_init : Inv {} where
  lifecycle i := by simp [ThreadPc.holds, ThreadPc.call?]
  handle i := by simp [ThreadPc.holds, ThreadPc.call?]
  worker i := by simp [ThreadPc.isWorker, ThreadHandle.thread?]
  published i := by simp [ThreadPc.isPublished]
  ready i call h := by simp [ThreadPc.call?] at h
  selfChecked i call h := by simp at h

/-! ### A thread that is in no call -/

/-- **A thread's step outside its calls.** -/
theorem Inv.outsideCalls {pc : ThreadPc} {id : Option ThreadId} (h : p.Inv)
    (hcall : (p.threads i).call? = none) (hpc : pc.call? = none)
    (hworker : pc.isWorker = (p.threads i).isWorker)
    (hid : MovesLock i p.threadId id (p.threads i).isPublished pc.isPublished) :
    Inv { p.setThread i pc with threadId := id } where
  lifecycle := h.lifecycle.update (by rw [ThreadPc.holds, ThreadPc.holds, hcall, hpc])
  handle := h.handle.update (by rw [ThreadPc.holds, ThreadPc.holds, hcall, hpc])
  worker := h.worker.update hworker
  published := h.published.step hid
  ready k c hk := by
    by_cases hki : k = i
    · subst hki
      rw [threads_setThread_self, hpc] at hk
      cases hk
    · rw [threads_setThread_ne hki] at hk
      exact h.ready k c hk
  selfChecked k c hk := by
    by_cases hki : k = i
    · subst hki
      rw [threads_setThread_self] at hk
      exact absurd (hk ▸ hpc) (by simp [ThreadPc.call?])
    · rw [threads_setThread_ne hki] at hk
      exact h.selfChecked k c hk

/-- The scheduler's thread has not published its id yet: then no thread has. -/
theorem Inv.threadId_of_publish (h : p.Inv) (hi : p.threads i = .publish) : p.threadId = none := by
  rw [Option.eq_none_iff_forall_ne_some]
  intro k hk
  have hpub := (h.published k).mpr hk
  have hki : k = i := h.worker.unique (i := k)
    (by cases hpc : p.threads k <;> simp_all [ThreadPc.isPublished, ThreadPc.isWorker]) (by rw [hi]; rfl)
  rw [hki, hi] at hpub
  exact absurd hpub (by decide)

theorem isWorker_of_loopStep {pc : ThreadPc} (h : p.loopStep i pc = some q) :
    pc.isWorker = true := by
  cases pc <;> first | rfl | exact absurd h (by simp [loopStep])

theorem Inv.loop (h : p.Inv) (hstep : p.loopStep i (p.threads i) = some q) : q.Inv := by
  generalize hpc : p.threads i = pc at hstep
  cases pc with
  | publish =>
    obtain ⟨⟩ := hstep
    refine h.outsideCalls (by rw [hpc]; rfl) rfl (by rw [hpc]; rfl) ?_
    rw [h.threadId_of_publish hpc]
    exact .lock
  | test =>
    obtain ⟨⟩ := hstep
    have hcond : (if p.running then ThreadPc.turn else .clear).call? = none ∧
        (if p.running then ThreadPc.turn else .clear).isWorker = true ∧
        (if p.running then ThreadPc.turn else .clear).isPublished = true := by
      split <;> exact ⟨rfl, rfl, rfl⟩
    refine h.outsideCalls (by rw [hpc]; rfl) hcond.1 (by rw [hpc]; exact hcond.2.1) ?_
    rw [hpc, hcond.2.2]
    exact .keep
  | task call =>
    cases call with
    | none =>
      obtain ⟨⟩ := hstep
      refine h.outsideCalls (by rw [hpc]; rfl) rfl (by rw [hpc]; rfl) ?_
      rw [hpc]
      exact .keep
    | some call => exact absurd hstep (by simp [loopStep])
  | clear =>
    obtain ⟨⟩ := hstep
    refine h.outsideCalls (by rw [hpc]; rfl) rfl (by rw [hpc]; rfl) ?_
    rw [hpc]
    exact .unlock
  | _ => exact absurd hstep (by simp [loopStep])

/-! ### A thread that is in a call -/

/-- The other threads' calls still have what they rely on. -/
theorem Inv.ready_other (h : p.Inv) {k : ThreadId} {c : SchedulerCall}
    (hi : (p.threads i).call? = some call) (hk : (p.threads k).call? = some c) (hki : k ≠ i)
    {running joinable : Bool}
    (hr : running = true → p.running = true ∨ call.holdsLifecycle = true)
    (hj : joinable = true → p.handle.thread?.isSome = true ∨ call.holdsLifecycle = true) :
    c.ready running joinable = true := by
  cases hc : c.holdsLifecycle with
  | false => exact ready_of_not_holdsLifecycle hc
  | true =>
    -- the mutex is with `k`, so it is not with `i`
    have hnot : call.holdsLifecycle = false := by
      have := h.lifecycle.not_holds_of_ne (i := k) (by simp [ThreadPc.holds, hk, hc]) hki.symm
      simpa [ThreadPc.holds, hi] using this
    rw [hnot] at hr hj
    exact ready_mono (h.ready k c hk) (fun h => (hr h).resolve_right Bool.false_ne_true)
      (fun h => (hj h).resolve_right Bool.false_ne_true)

/-- What a join leaves: the threads but the one that was joined. -/
structure Joined (p q : SchedulerThreads) (i : ThreadId) : Prop where
  same : q.threads i = p.threads i
  lifecycle : Owns p.lifecycleMutex q.threads (ThreadPc.holds SchedulerCall.holdsLifecycle)
  handle : Owns p.handleMutex q.threads (ThreadPc.holds SchedulerCall.holdsHandle)
  worker : Owns q.handle.thread? q.threads ThreadPc.isWorker
  published : Owns p.threadId q.threads ThreadPc.isPublished
  others : ∀ k, q.threads k = p.threads k ∨ q.threads k = .absent
  joinable : q.handle.thread?.isSome = true → p.handle.thread?.isSome = true

theorem Inv.joined (h : p.Inv) (hi : (p.threads i).call? = some call)
    (hE : CallEffect p q i call call') : Joined p q i := by
  rcases hE.worker with ⟨hthreads, hhandle⟩ | ⟨j, hj, hfinished, hthreads, hhandle⟩
  · constructor <;> simp only [hthreads, hhandle]
    exacts [h.lifecycle, h.handle, h.worker, h.published, fun k => .inl trivial, id]
  · have hji : i ≠ j := by
      rintro rfl
      exact absurd hi (by simp [hfinished, ThreadPc.call?])
    have hheld (f : SchedulerCall → Bool) :
        ThreadPc.holds f .absent = ThreadPc.holds f (p.threads j) := by rw [hfinished]; rfl
    constructor
    · rw [hthreads, Function.update_of_ne hji]
    · rw [hthreads]
      exact h.lifecycle.update (hheld _)
    · rw [hthreads]
      exact h.handle.update (hheld _)
    · rw [hthreads, hhandle]
      exact h.worker.unlock (by rw [hfinished]; rfl) rfl
    · rw [hthreads]
      exact h.published.update (by rw [hfinished]; rfl)
    · intro k
      rw [hthreads]
      by_cases hkj : k = j
      · exact .inr (by rw [hkj, Function.update_self])
      · exact .inl (by rw [Function.update_of_ne hkj])
    · rw [hhandle]
      exact fun he => absurd he (by decide)

/-- In every run a call has what it relies on. -/
theorem Inv.effect (h : p.Inv) (hi : (p.threads i).call? = some call)
    (hstep : p.callStep i call = some (q, call')) : CallEffect p q i call call' := by
  have hpublished (hid : p.threadId = some i) : p.threads i = .task (some call) := by
    have hpub := (h.published i).mpr hid
    refine ThreadPc.eq_task ?_ hi
    cases hpc : p.threads i <;> simp_all [ThreadPc.isPublished, ThreadPc.isWorker]
  exact callStep_effect hstep (h.ready i call hi) fun hid => h.selfChecked i call (hpublished hid)

theorem Inv.advance (h : p.Inv) (hi : (p.threads i).call? = some call)
    (hstep : p.callStep i call = some (q, call')) : (q.setCall i call').Inv := by
  have huser : (p.threads i).inUserCode = true := ThreadPc.inUserCode_of_call? hi
  have hE := h.effect hi hstep
  have hJ := h.joined hi hE
  have hcall : ((q.threads i).withCall call').call? = call' :=
    ThreadPc.call?_withCall (by rw [hJ.same]; exact huser)
  have hheld (f : SchedulerCall → Bool) : ThreadPc.holds f (q.threads i) = f call ∧
      ThreadPc.holds f ((q.threads i).withCall call') = call'.any f :=
    ⟨by rw [ThreadPc.holds, hJ.same, hi, Option.any_some], by rw [ThreadPc.holds, hcall]⟩
  refine ⟨hJ.lifecycle.step ?_, hJ.handle.step ?_, hJ.worker.update ThreadPc.isWorker_withCall, ?_,
    fun k c hk => ?_, fun k c hk => ?_⟩
  · rw [(hheld _).1, (hheld _).2]
    exact hE.lifecycle
  · rw [(hheld _).1, (hheld _).2]
    exact hE.handle
  · rw [show (q.setCall i call').threadId = p.threadId from hE.threadId]
    exact hJ.published.update ThreadPc.isPublished_withCall
  · by_cases hki : k = i
    · subst hki
      rw [setCall, threads_setThread_self, hcall] at hk
      have hready := hE.ready
      rw [hk, Option.all_some] at hready
      exact hready
    · rw [setCall, threads_setThread_ne hki] at hk
      refine h.ready_other hi ?_ hki hE.running fun hj => .inl (hJ.joinable hj)
      rcases hJ.others k with hsame | habsent
      · rw [← hsame]
        exact hk
      · rw [habsent] at hk
        exact absurd hk (by simp [ThreadPc.call?])
  · by_cases hki : k = i
    · subst hki
      rw [setCall, threads_setThread_self] at hk
      have hc : call' = some c := by rw [← hcall, hk]; rfl
      have hid : p.threadId = some k := (hJ.published k).mp (by
        rw [← ThreadPc.isPublished_withCall , hk]
        rfl)
      subst hc
      simpa using hE.selfCheck hid
    · rw [setCall, threads_setThread_ne hki] at hk
      rcases hJ.others k with hsame | habsent
      · exact h.selfChecked k c (hsame ▸ hk)
      · rw [habsent] at hk
        cases hk

/-! ### The other moves -/

/-- A call begins, or goes on after a creation that has thrown. -/
theorem Inv.newCall (h : p.Inv) {c : SchedulerCall} (huser : (p.threads i).inUserCode = true)
    (hlife : c.holdsLifecycle = ThreadPc.holds SchedulerCall.holdsLifecycle (p.threads i))
    (hhandle : c.holdsHandle = ThreadPc.holds SchedulerCall.holdsHandle (p.threads i))
    (hready : c.ready p.running p.handle.thread?.isSome = true)
    (hself : (p.threads i).isPublished = true → c.beforeSelfCheck = true) :
    (p.setCall i (some c)).Inv := by
  have hcall : ((p.threads i).withCall (some c)).call? = some c := ThreadPc.call?_withCall huser
  have hheld (f : SchedulerCall → Bool) :
      ThreadPc.holds f ((p.threads i).withCall (some c)) = f c := by
    rw [ThreadPc.holds, hcall, Option.any_some]
  refine ⟨h.lifecycle.update ((hheld _).trans hlife), h.handle.update ((hheld _).trans hhandle),
    h.worker.update ThreadPc.isWorker_withCall, h.published.update ThreadPc.isPublished_withCall,
    fun k c' hk => ?_, fun k c' hk => ?_⟩
  · by_cases hki : k = i
    · subst hki
      rw [setCall, threads_setThread_self, hcall] at hk
      exact Option.some.inj hk ▸ hready
    · simp only [setCall, setThread, Function.update_of_ne hki]
        at hk
      exact h.ready k c' hk
  · by_cases hki : k = i
    · subst hki
      rw [setCall, threads_setThread_self] at hk
      have hpub : (p.threads k).isPublished = true := by
        rw [← ThreadPc.isPublished_withCall , hk]
        rfl
      have hc : some c = some c' := by rw [← hcall, hk]; rfl
      exact Option.some.inj hc ▸ hself hpub
    · simp only [setCall, setThread, Function.update_of_ne hki]
        at hk
      exact h.selfChecked k c' hk

/-- The call that creates the thread goes on. -/
theorem Inv.spawned (h : p.Inv) (hi : (p.threads i).call? = some (.start .spawn)) (threw : Bool) :
    (p.setCall i (some (.start (.unlockHandle threw)))).Inv := by
  have hnone : p.handle.thread? = none := by
    simpa [SchedulerCall.ready] using h.ready i _ hi
  have hext : (p.threads i).isWorker = false := Owns.not_holds (hnone ▸ h.worker) i
  refine h.newCall (ThreadPc.inUserCode_of_call? hi) ?_ ?_ rfl fun hpub => ?_
  · rw [ThreadPc.holds, hi]
    rfl
  · rw [ThreadPc.holds, hi]
    rfl
  · cases hpc : p.threads i <;> simp_all [ThreadPc.isPublished, ThreadPc.isWorker]

/-- The created thread is the worker, while its creator still has both mutexes. -/
theorem Inv.created (h : p.Inv) (hi : (p.threads i).call? = some (.start (.unlockHandle false)))
    (hnone : p.handle.thread? = none) (hj : p.threads j = .absent) :
    Inv { p.setThread j .publish with handle := .joinable j } := by
  have hheld (f : SchedulerCall → Bool) :
      ThreadPc.holds f .publish = ThreadPc.holds f (p.threads j) := by rw [hj]; rfl
  refine ⟨h.lifecycle.update (hheld _), h.handle.update (hheld _),
    Owns.lock (hnone ▸ h.worker) rfl, h.published.update (by rw [hj]; rfl), fun k c hk => ?_,
    fun k c hk => ?_⟩
  · by_cases hkj : k = j
    · subst hkj
      rw [threads_setThread_self] at hk
      exact absurd hk (by simp [ThreadPc.call?])
    · rw [threads_setThread_ne hkj] at hk
      by_cases hki : k = i
      · subst hki
        obtain rfl := Option.some.inj (hi.symm.trans hk)
        rfl
      · exact h.ready_other hi hk hki .inl fun _ => .inr rfl
  · by_cases hkj : k = j
    · subst hkj
      rw [threads_setThread_self] at hk
      cases hk
    · rw [threads_setThread_ne hkj] at hk
      exact h.selfChecked k c hk

/-- **The creation of the scheduler's thread.** -/
theorem Inv.create (h : p.Inv) (hi : (p.threads i).call? = some (.start .spawn))
    (hj : p.threads j = .absent) :
    Inv ({ p.setThread j .publish with handle := .joinable j }.setCall i
      (some (.start (.unlockHandle false)))) := by
  have hij : i ≠ j := by
    rintro rfl
    exact absurd hi (by simp [hj, ThreadPc.call?])
  -- the two threads move in either order
  have hset : { p.setThread j .publish with handle := .joinable j }.setCall i
      (some (.start (.unlockHandle false))) =
      { (p.setCall i (some (.start (.unlockHandle false)))).setThread j .publish with
        handle := .joinable j } := by
    simp only [setCall, setThread, Function.update_of_ne hij, Function.update_comm hij]
  rw [hset]
  refine (h.spawned hi false).created (i := i) ?_ ?_ ?_
  · rw [setCall, threads_setThread_self]
    exact ThreadPc.call?_withCall (ThreadPc.inUserCode_of_call? hi)
  · rw [setCall, handle_setThread]
    simpa [SchedulerCall.ready] using h.ready i _ hi
  · rw [setCall, threads_setThread_ne hij.symm, hj]

/-- What a call begins with holds nothing and relies on nothing. -/
theorem Beginning.call_spec (c : Beginning) (running joinable : Bool) :
    c.call.holdsLifecycle = false ∧ c.call.holdsHandle = false ∧
      c.call.ready running joinable = true ∧ c.call.beforeSelfCheck = true := by
  cases c <;> exact ⟨rfl, rfl, rfl, rfl⟩

/-- **Every step keeps the invariant.** -/
theorem Inv.step (h : p.Inv) {a : Move} (hstep : p.step a = some q) : q.Inv := by
  cases a with
  | begin i c =>
    simp only [SchedulerThreads.step, Option.ite_none_right_eq_some] at hstep
    obtain ⟨hmay, ⟨⟩⟩ := hstep
    obtain ⟨hlife, hhandle, hready, hself⟩ := c.call_spec p.running p.handle.thread?.isSome
    have hnone : (p.threads i).call? = none := ThreadPc.call?_of_mayCall hmay
    refine h.newCall (ThreadPc.inUserCode_of_mayCall hmay) ?_ ?_ hready fun _ => hself
    · rw [ThreadPc.holds, hnone, hlife]
      rfl
    · rw [ThreadPc.holds, hnone, hhandle]
      rfl
  | advance i =>
    obtain ⟨call, hi, hmap⟩ := Option.bind_eq_some_iff.mp hstep
    obtain ⟨⟨r, call'⟩, hcall, rfl⟩ := Option.map_eq_some_iff.mp hmap
    exact h.advance hi hcall
  | create i j =>
    simp only [SchedulerThreads.step, Option.ite_none_right_eq_some] at hstep
    obtain ⟨⟨hi, hj⟩, ⟨⟩⟩ := hstep
    exact h.create hi hj
  | createFails i =>
    simp only [SchedulerThreads.step, Option.ite_none_right_eq_some] at hstep
    obtain ⟨hi, ⟨⟩⟩ := hstep
    exact h.spawned hi true
  | loop i => exact h.loop hstep
  | _ =>
    simp only [SchedulerThreads.step, Option.ite_none_right_eq_some] at hstep
    obtain ⟨hi, ⟨⟩⟩ := hstep
    refine h.outsideCalls (by rw [hi]; rfl) rfl (by rw [hi]; rfl) ?_
    rw [hi]
    exact .keep

theorem inv_inductive : machine.Inductive (fun _ _ => True) Inv where
  init _ h := h ▸ inv_init
  step _ _ _ h _ hstep := h.step hstep

theorem inv_of_reachable (h : machine.Reachable p) : p.Inv := h.invariant inv_inductive

/-! ## What the invariant gives -/

/-- **The lifecycle is safe**: one loop at most, no join of one's own thread, no assignment over a
joinable handle, and no external `stop` in a join while `running_` is set. -/
structure Safe (p : SchedulerThreads) : Prop where
  oneLoop : ∀ i j, (p.threads i).inLoop = true → (p.threads j).inLoop = true → i = j
  joinsOther : ∀ i j, (p.threads i).holds SchedulerCall.joins = true → p.handle = .joinable j → j ≠ i
  assigns : ∀ i, (p.threads i).call? = some (.start .spawn) → ∀ j, p.handle ≠ .joinable j
  joinStopped : ∀ i, p.threads i = .external (some (.stop .join)) → p.running = false

/-- The joins come after the self-check. -/
theorem not_joins_of_beforeSelfCheck (h : call.beforeSelfCheck = true) : call.joins = false := by
  cases call with
  | start pc => cases pc <;> first | rfl | exact absurd h (by decide)
  | stop pc => cases pc <;> first | rfl | exact absurd h (by decide)
  | _ => rfl

theorem Inv.safe (h : p.Inv) : p.Safe where
  oneLoop i j hi hj :=
    h.worker.unique (ThreadPc.isWorker_of_inLoop hi) (ThreadPc.isWorker_of_inLoop hj)
  joinsOther i j hi hj := by
    rintro rfl
    have hworker : (p.threads j).isWorker = true := (h.worker j).mpr (by rw [hj]; rfl)
    obtain ⟨call, hcall, hjoins⟩ := (Option.any_eq_true _ _).mp hi
    have hself := h.selfChecked j call (ThreadPc.eq_task hworker hcall)
    exact Bool.false_ne_true ((not_joins_of_beforeSelfCheck hself).symm.trans hjoins)
  assigns i hi j hj := by
    have hr := h.ready i _ hi
    rw [hj] at hr
    exact absurd hr (by simp [SchedulerCall.ready, ThreadHandle.thread?])
  joinStopped i hi := by
    simpa [SchedulerCall.ready] using h.ready i (.stop .join) (by rw [hi]; rfl)

/-- Nothing is left of the scheduler's thread, and no `start` is at work on a new one. -/
structure Quiet (p : SchedulerThreads) : Prop where
  noWorker : ∀ i, (p.threads i).isWorker = false
  noStart : ∀ i pc, (p.threads i).call? = some (.start pc) →
    SchedulerCall.holdsLifecycle (.start pc) = false

/-- The step is that of a `start` which locks `lifecycleMutex_`. -/
def Move.StartLocks (p : SchedulerThreads) : Move → Prop
  | advance i => (p.threads i).call? = some (.start .lock)
  | _ => False

theorem Quiet.setThread {pc : ThreadPc} {id : Option ThreadId} {handle : ThreadHandle}
    (h : p.Quiet) (hworker : pc.isWorker = false)
    (hstart : ∀ start, pc.call? = some (.start start) →
      SchedulerCall.holdsLifecycle (.start start) = false) :
    Quiet { p.setThread i pc with threadId := id, handle } where
  noWorker k := by
    by_cases hki : k = i
    · rw [hki, threads_setThread_self, hworker]
    · rw [threads_setThread_ne hki, h.noWorker k]
  noStart k start hk := by
    by_cases hki : k = i
    · rw [hki, threads_setThread_self] at hk
      exact hstart start hk
    · rw [threads_setThread_ne hki] at hk
      exact h.noStart k start hk

/-- A `start` without the mutex goes on without it, until it locks it. -/
theorem not_holds_of_startStep {pc : SchedulerStartPc} {pc' : Option SchedulerStartPc}
    (h : p.startStep i pc = some (q, pc'))
    (hpc : SchedulerCall.holdsLifecycle (.start pc) = false) (hlock : pc ≠ .lock) :
    ∀ start ∈ pc', SchedulerCall.holdsLifecycle (.start start) = false := by
  cases pc with
  | latch =>
    obtain ⟨⟩ := h
    rintro _ ⟨⟩
    rfl
  | selfCheck =>
    obtain ⟨⟩ := h
    split
    · simp
    · rintro _ ⟨⟩
      rfl
  | lock => exact absurd rfl hlock
  | _ => exact absurd hpc (by simp [SchedulerCall.holdsLifecycle])

/-- The next step of a call in a quiet state. -/
theorem Quiet.advance (hI : p.Inv) (h : p.Quiet) (hi : (p.threads i).call? = some call)
    (hlock : call ≠ .start .lock) (hstep : p.callStep i call = some (q, call')) :
    (q.setCall i call').Quiet := by
  have hext := h.noWorker i
  have hE := callStep_effect hstep (hI.ready i call hi) fun hid => absurd ((hI.published i).mpr hid)
    (by cases hpc : p.threads i <;> simp_all [ThreadPc.isPublished, ThreadPc.isWorker])
  have hJ := hI.joined hi hE
  have hq : q.Quiet := by
    constructor
    · intro k
      rcases hJ.others k with hk | hk
      · rw [hk, h.noWorker k]
      · rw [hk]
        rfl
    · intro k start hk
      rcases hJ.others k with he | he
      · exact h.noStart k start (he ▸ hk)
      · exact absurd hk (by simp [he, ThreadPc.call?])
  have hnext : ∀ start, ((q.threads i).withCall call').call? = some (.start start) →
      SchedulerCall.holdsLifecycle (.start start) = false := by
    intro start hc
    rw [hJ.same, ThreadPc.call?_withCall (ThreadPc.inUserCode_of_call? hi)] at hc
    subst hc
    cases call with
    | start pc =>
      obtain ⟨⟨q', pc'⟩, hs, he⟩ := Option.map_eq_some_iff.mp hstep
      obtain ⟨start', hpc', he'⟩ := Option.map_eq_some_iff.mp (Prod.mk.inj he).2
      obtain rfl := SchedulerCall.start.inj he'
      exact not_holds_of_startStep hs (h.noStart i pc hi) (fun e => hlock (e ▸ rfl)) _ hpc'
    | stop pc =>
      obtain ⟨⟨q', pc'⟩, hs, he⟩ := Option.map_eq_some_iff.mp hstep
      exact absurd (Prod.mk.inj he).2 (by cases pc' <;> simp)
    | halt pc =>
      exact absurd (pair_inj hstep).2 (by cases pc <;> simp [haltStep])
    | pause => exact absurd (pair_inj hstep).2 (by simp)
    | resume => exact absurd (pair_inj hstep).2 (by simp)
    | tune pc =>
      obtain ⟨⟨q', pc'⟩, hs, he⟩ := Option.map_eq_some_iff.mp hstep
      exact absurd (Prod.mk.inj he).2 (by cases pc' <;> simp)
  exact hq.setThread (by rw [ThreadPc.isWorker_withCall, hJ.same, hext]) hnext

/-- **Quiet it stays**, until a `start` locks `lifecycleMutex_`. -/
theorem Quiet.step (hI : p.Inv) (h : p.Quiet) {a : Move} (ha : ¬ a.StartLocks p)
    (hstep : p.step a = some q) : q.Quiet := by
  cases a with
  | appear i =>
    simp only [SchedulerThreads.step, Option.ite_none_right_eq_some] at hstep
    obtain ⟨-, ⟨⟩⟩ := hstep
    exact h.setThread rfl (by simp [ThreadPc.call?])
  | vanish i =>
    simp only [SchedulerThreads.step, Option.ite_none_right_eq_some] at hstep
    obtain ⟨-, ⟨⟩⟩ := hstep
    exact h.setThread rfl (by simp [ThreadPc.call?])
  | begin i c =>
    simp only [SchedulerThreads.step, Option.ite_none_right_eq_some] at hstep
    obtain ⟨hmay, ⟨⟩⟩ := hstep
    refine h.setThread (by rw [ThreadPc.isWorker_withCall, h.noWorker]) fun start hc => ?_
    rw [ThreadPc.call?_withCall (ThreadPc.inUserCode_of_mayCall hmay)] at hc
    rw [← Option.some.inj hc]
    exact (c.call_spec true true).1
  | advance i =>
    obtain ⟨call, hi, hmap⟩ := Option.bind_eq_some_iff.mp hstep
    obtain ⟨⟨r, call'⟩, hcall, rfl⟩ := Option.map_eq_some_iff.mp hmap
    refine h.advance hI hi ?_ hcall
    rintro rfl
    exact ha hi
  | create i j =>
    simp only [SchedulerThreads.step, Option.ite_none_right_eq_some] at hstep
    exact absurd (h.noStart i _ hstep.1.1) (by decide)
  | createFails i =>
    simp only [SchedulerThreads.step, Option.ite_none_right_eq_some] at hstep
    exact absurd (h.noStart i _ hstep.1) (by decide)
  | loop i =>
    exact absurd (isWorker_of_loopStep hstep) (by simp [h.noWorker i])
  | enterTask i =>
    simp only [SchedulerThreads.step, Option.ite_none_right_eq_some] at hstep
    exact absurd (h.noWorker i) (by rw [hstep.1]; decide)
  | endTurn i =>
    simp only [SchedulerThreads.step, Option.ite_none_right_eq_some] at hstep
    exact absurd (h.noWorker i) (by rw [hstep.1]; decide)

/-- An external `stop` that returns leaves it quiet. -/
theorem Inv.quiet (h : p.Inv) (hi : p.threads i = .external (some (.stop .unlock)))
    (hstep : p.step (.advance i) = some q) : q.Quiet := by
  have hlife : ThreadPc.holds SchedulerCall.holdsLifecycle (p.threads i) = true := by rw [hi]; rfl
  have hnone : p.handle.thread? = none := by
    simpa [SchedulerCall.ready] using h.ready i (.stop .unlock) (by rw [hi]; rfl)
  have hp : p.Quiet := by
    refine ⟨fun k => Owns.not_holds (hnone ▸ h.worker) k, fun k pc hk => ?_⟩
    have hki : k ≠ i := by
      rintro rfl
      exact absurd hk (by simp [hi, ThreadPc.call?])
    have hfree := h.lifecycle.not_holds_of_ne hlife hki
    rwa [ThreadPc.holds, hk, Option.any_some] at hfree
  exact hp.step h (by simp [Move.StartLocks, hi, ThreadPc.call?]) hstep

/-- **The lifecycle calls are safe**, and an external `stop` that has returned leaves no loop
alive, until a `start` locks `lifecycleMutex_`. -/
theorem lifecycle_safe (h : machine.Reachable p) : p.Safe ∧
    ∀ (i : ThreadId) (q u : SchedulerThreads) (moves : List Move),
      p.threads i = .external (some (.stop .unlock)) → p.step (.advance i) = some q →
      machine.Allowed (fun s a => ¬ a.StartLocks s) q moves → machine.exec q moves = some u →
        ∀ j, (u.threads j).inLoop = false := by
  have hI := inv_of_reachable h
  refine ⟨hI.safe, fun i q u moves hi hstep hmoves hexec j => ?_⟩
  have hquiet : u.Inv ∧ u.Quiet := by
    refine hmoves.exec_invariant (I := fun s => s.Inv ∧ s.Quiet) ?_
      ⟨hI.step hstep, hI.quiet hi hstep⟩ hexec
    exact fun _ _ _ hs ha ht => ⟨hs.1.step ht, hs.2.step hs.1 ha ht⟩
  exact Bool.eq_false_iff.mpr fun hloop =>
    absurd (ThreadPc.isWorker_of_inLoop hloop) (by simp [hquiet.2.noWorker j])

/-- A `start` of thread 0 waits for `lifecycleMutex_`, and thread 1 is at the end of a `stop`. -/
def startWaits : List Move :=
  [.appear 0, .appear 1, .begin 0 .start, .advance 0, .advance 0, .begin 1 .stop] ++
    List.replicate 9 (.advance 1)

set_option maxRecDepth 4000 in
/-- In the state of `startWaits`. -/
theorem lifecycle_safe_startWaits : ∃ p, machine.exec {} startWaits = some p ∧ p.Safe ∧
    ∃ q, p.step (.advance 1) = some q ∧ ∀ j, (q.threads j).inLoop = false := by
  have hp : (machine.exec {} startWaits).any (fun p =>
      p.threads 1 == .external (some (.stop .unlock)) && (p.step (.advance 1)).isSome) = true := by
    decide
  obtain ⟨p, hp, hq⟩ := (Option.any_eq_true _ _).mp hp
  rw [Bool.and_eq_true, beq_iff_eq, Option.isSome_iff_exists] at hq
  obtain ⟨h1, q, hq⟩ := hq
  have hsafe := lifecycle_safe (.exec (.init rfl) hp)
  exact ⟨p, hp, hsafe.1, q, hq, hsafe.2 1 q q [] h1 hq trivial rfl⟩

set_option maxRecDepth 4000 in
/-- **A `start` that was called before** the `stop`, and gets the mutex after it, leaves a loop. -/
theorem loop_after_stop :
    ¬ ∀ p, machine.Reachable p → p.Safe ∧
      ∀ (i : ThreadId) (q u : SchedulerThreads) (moves : List Move),
        p.threads i = .external (some (.stop .unlock)) → p.step (.advance i) = some q →
        (∀ a ∈ moves, ∀ j, a ≠ .begin j .start) → machine.exec q moves = some u →
          ∀ j, (u.threads j).inLoop = false := by
  intro h
  have hp : (machine.exec {} startWaits).any (fun p =>
      p.threads 1 == .external (some (.stop .unlock)) && (p.step (.advance 1)).any fun q =>
        (machine.exec q (List.replicate 7 (.advance 0) ++ [.create 0 2, .loop 2])).any fun u =>
          (u.threads 2).inLoop) = true := by
    decide
  obtain ⟨p, hp, he⟩ := (Option.any_eq_true _ _).mp hp
  rw [Bool.and_eq_true, beq_iff_eq] at he
  obtain ⟨h1, he⟩ := he
  obtain ⟨q, hq, he⟩ := (Option.any_eq_true _ _).mp he
  obtain ⟨u, hu, he⟩ := (Option.any_eq_true _ _).mp he
  have hfalse := (h p (.exec (.init rfl) hp)).2 1 q u _ h1 hq (by simp) hu 2
  exact absurd (hfalse.symm.trans he) (by decide)

end SchedulerThreads

end AxonVex
