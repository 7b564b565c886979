import AxonVex.Concurrent.SchedulerLifecycle
import AxonVex.Core.Lifecycle

/-!
# Concurrent/Recovery — a recovery stops the scheduler and starts it again

    attemptRecovery:   stop()  ──100 ms──▸  start()  ──▸  return true

Both calls return nothing.  On the scheduler's own thread `stop()` does no more than `halt()` and
`start()` is refused, so the recovery succeeds with `running_` clear; elsewhere `running_` is set when
`start()` returns, unless another thread clears it before the recovery does.  A recovery of a `RUNNING`
system that is on another thread, and has no such thread beside it, leaves `running_` set
(`recovers_of_undisturbed`).
-/

namespace AxonVex

open Machinery

/-- Where a call of `attemptRecovery` stands. -/
inductive RecoveryPc
  | testEnabled
  | loadAttempts
  | countAttempt
  | countStatistic
  /-- `stop()` is called -/
  | stop
  | stopping
  /-- the sleep, and then `start()` is called -/
  | sleep
  | starting (threw : Bool)
  /-- `successfulRecoveries` is counted, and `true` returned -/
  | succeed
  deriving DecidableEq, Repr

/-- A system and the threads that use its scheduler. -/
structure RecoverySystem where
  threads : SchedulerThreads := {}
  state : SystemState := .uninitialized
  enableAutoRecovery : Bool
  maxRecoveryAttempts : ℕ
  currentRecoveryAttempts : ℕ := 0
  recoveryAttempts : ℕ := 0
  successfulRecoveries : ℕ := 0
  recoveries : ThreadId → Option RecoveryPc := fun _ => none

/-- What happens. -/
inductive RecoveryMove
  /-- a call of the scheduler, or a step of its loop -/
  | scheduler (move : SchedulerThreads.Move)
  /-- the lifecycle moves on -/
  | setState (state : SystemState)
  /-- `reset()` clears `currentRecoveryAttempts_` -/
  | resetAttempts
  /-- a thread calls `attemptRecovery` -/
  | attempt (thread : ThreadId)
  /-- and takes its next step -/
  | recover (thread : ThreadId)

namespace SchedulerThreads.Move

/-- The thread that moves. -/
def thread : Move → ThreadId
  | appear i => i
  | vanish i => i
  | begin i _ => i
  | advance i => i
  | create i _ => i
  | createFails i => i
  | loop i => i
  | enterTask i => i
  | endTurn i => i

/-- The move is a step of a call that has begun. -/
def inCall : Move → Bool
  | advance _ => true
  | create _ _ => true
  | createFails _ => true
  | _ => false

end SchedulerThreads.Move

/-- The next step of the call clears `running_`. -/
def SchedulerCall.clearsRunning : SchedulerCall → Bool
  | .halt .clearRunning => true
  | .stop (.halt .clearRunning) => true
  | .stop .clearRunning => true
  | _ => false

namespace RecoverySystem

variable (p : RecoverySystem)

/-- The recovery of a thread moves on, or ends. -/
def setRecovery (i : ThreadId) (pc : Option RecoveryPc) : RecoverySystem :=
  { p with recoveries := Function.update p.recoveries i pc }

/-- The thread makes a call of the scheduler. -/
def call (i : ThreadId) (c : SchedulerThreads.Beginning) (pc : RecoveryPc) : Option RecoverySystem :=
  (p.threads.step (.begin i c)).map fun threads => { p with threads }.setRecovery i (some pc)

/-- The next step of `attemptRecovery`. -/
def recoverStep (i : ThreadId) : RecoveryPc → Option RecoverySystem
  | .testEnabled =>
    some (p.setRecovery i (if p.enableAutoRecovery then some .loadAttempts else none))
  | .loadAttempts =>
    some (p.setRecovery i
      (if p.maxRecoveryAttempts ≤ p.currentRecoveryAttempts then none else some .countAttempt))
  | .countAttempt =>
    some ({ p with currentRecoveryAttempts := p.currentRecoveryAttempts + 1 }.setRecovery i
      (some .countStatistic))
  | .countStatistic =>
    some ({ p with recoveryAttempts := p.recoveryAttempts + 1 }.setRecovery i (some .stop))
  | .stop => p.call i .stop .stopping
  | .stopping =>
    if (p.threads.threads i).call? = none then some (p.setRecovery i (some .sleep)) else none
  | .sleep => p.call i .start (.starting false)
  | .starting threw =>
    if (p.threads.threads i).call? = none then
      some (p.setRecovery i (if threw then none else some .succeed))
    else none
  | .succeed =>
    some ({ p with successfulRecoveries := p.successfulRecoveries + 1 }.setRecovery i none)

/-- The creation of the scheduler's thread may throw, through `start()`, into a recovery. -/
def noteThrow (move : SchedulerThreads.Move) : ThreadId → Option RecoveryPc :=
  match move with
  | .createFails i =>
    if p.recoveries i = some (.starting false) then
      Function.update p.recoveries i (some (.starting true))
    else p.recoveries
  | _ => p.recoveries

/-- One step; `none` where it waits or does not apply. -/
def step : RecoveryMove → Option RecoverySystem
  | .scheduler move =>
    -- a thread in a recovery makes no call of its own
    if (p.recoveries move.thread).isSome && !move.inCall then none
    else (p.threads.step move).map fun threads => { p with threads, recoveries := p.noteThrow move }
  | .setState state => some { p with state }
  | .resetAttempts => some { p with currentRecoveryAttempts := 0 }
  | .attempt i =>
    if (p.threads.threads i).mayCall ∧ p.recoveries i = none then
      some (p.setRecovery i (some .testEnabled))
    else none
  | .recover i => (p.recoveries i).bind (p.recoverStep i)

end RecoverySystem

/-- The record of a run. -/
structure RecoveryRecord where
  /-- the system has been `RUNNING` ever since the thread called `attemptRecovery` -/
  stayed : ThreadId → Bool := fun _ => false
  /-- `running_`, at the returns of `true` while this is so -/
  returned : List Bool := []

namespace RecoveryRecord

/-- The record after a step. -/
def record (p : RecoverySystem) (a : RecoveryMove) (q : RecoverySystem) (h : RecoveryRecord) :
    RecoveryRecord :=
  match a with
  | .attempt i => { h with stayed := Function.update h.stayed i (p.state == .running) }
  | .setState state => if state = .running then h else { h with stayed := fun _ => false }
  | .recover i =>
    if p.recoveries i = some .succeed ∧ h.stayed i = true then
      { h with returned := h.returned ++ [q.threads.running] }
    else h
  | _ => h

/-- Of a recovery the record says this from its beginning on. -/
theorem stayed_record {p q : RecoverySystem} {a : RecoveryMove} {h : RecoveryRecord} {i : ThreadId}
    (hi : (h.record p a q).stayed i = true) : a = .attempt i ∨ h.stayed i = true := by
  cases a with
  | attempt j =>
    by_cases hij : i = j
    · exact .inl (hij ▸ rfl)
    · exact .inr ((Function.update_of_ne hij ..).symm.trans hi)
  | setState state =>
    unfold record at hi
    dsimp only at hi
    split at hi
    · exact .inr hi
    · cases hi
  | recover j =>
    unfold record at hi
    dsimp only at hi
    split at hi
    · exact .inr hi
    · exact .inr hi
  | scheduler m => exact .inr hi
  | resetAttempts => exact .inr hi

end RecoveryRecord

/-- A system and the record of its run. -/
abbrev RecoveryRun := RecoverySystem × RecoveryRecord

namespace RecoveryRun

/-- **The runs of a system** of this configuration. -/
def machine (enableAutoRecovery : Bool) (maxRecoveryAttempts : ℕ) : Machine RecoveryRun RecoveryMove :=
  Machine.withHistory
    ⟨fun p => p = { enableAutoRecovery, maxRecoveryAttempts }, RecoverySystem.step⟩ {}
    RecoveryRecord.record

/-- **A recovery of a `RUNNING` system that succeeds leaves `running_` set.** -/
def Recovers (p : RecoveryRun) : Prop := ∀ running ∈ p.2.returned, running = true

end RecoveryRun

/-- `start` has stored `running_`, or found it set. -/
def SchedulerStartPc.isPast : SchedulerStartPc → Bool
  | clearPaused => true
  | spawn => true
  | unlockHandle _ => true
  | testRealTime => true
  | lockTuning => true
  | unlockTuning => true
  | unlock => true
  | _ => false

/-- The call is a `start` that has, or is over. -/
def SchedulerCall.isPast? : Option SchedulerCall → Bool
  | none => true
  | some (.start pc) => pc.isPast
  | some _ => false

/-- The thread's recovery has set `running_`, or found it set, and not returned yet. -/
def RecoverySystem.HasRestarted (p : RecoverySystem) (i : ThreadId) : Prop :=
  p.recoveries i = some .succeed ∨ p.recoveries i = some (.starting false) ∧
    SchedulerCall.isPast? (p.threads.threads i).call? = true

namespace RecoveryRun

/-- **The condition**, for recoveries of a system that has stayed `RUNNING`. -/
structure Undisturbed (p : RecoveryRun) (a : RecoveryMove) : Prop where
  /-- a recovery that comes to its `start()` is not on the scheduler's thread -/
  elsewhere : ∀ i, a = .recover i → p.1.recoveries i = some .sleep → p.2.stayed i = true →
    p.1.threads.threads i = .external none
  /-- while a recovery has restarted the scheduler and not returned yet, no other call clears
  `running_` -/
  alone : ∀ j call, a = .scheduler (.advance j) → (p.1.threads.threads j).call? = some call →
    call.clearsRunning = true → ∀ i, p.2.stayed i = true → ¬ p.1.HasRestarted i

end RecoveryRun

namespace SchedulerThreads

variable {p q : SchedulerThreads} {i j : ThreadId} {call : SchedulerCall}
  {call' : Option SchedulerCall} {m : Move}

/-! ## The other threads -/

/-- A step of a call leaves the threads that have not ended where they are. -/
theorem threads_callStep (hp : p.Inv) (hj : (p.threads j).call? = some call)
    (hcall : p.callStep j call = some (q, call')) (hi : p.threads i ≠ .finished) :
    q.threads i = p.threads i := by
  rcases (hp.effect hj hcall).worker with ⟨hsame, -⟩ | ⟨k, -, hfinished, hthreads, -⟩
  · rw [hsame]
  · have hik : i ≠ k := by
      rintro rfl
      exact hi hfinished
    rw [hthreads, Function.update_of_ne hik]

/-- **A thread that is not the scheduler's stays where it is** when another moves. -/
theorem external_frame (hp : p.Inv) (hstep : p.step m = some q)
    (hi : p.threads i = .external call') (hm : m.thread ≠ i) :
    q.threads i = .external call' := by
  have hother {r : SchedulerThreads} {j : ThreadId} {pc : ThreadPc} (hj : j ≠ i)
      (hr : r.threads i = .external call') : (r.setThread j pc).threads i = .external call' := by
    rw [threads_setThread_ne hj.symm, hr]
  cases m with
  | advance j =>
    obtain ⟨call, hj, hmap⟩ := Option.bind_eq_some_iff.mp hstep
    obtain ⟨⟨r, call''⟩, hcall, rfl⟩ := Option.map_eq_some_iff.mp hmap
    have hkept : r.threads i = p.threads i :=
      threads_callStep hp hj hcall (by rw [hi]; exact ThreadPc.noConfusion)
    exact hother hm (hkept.trans hi)
  | create j k =>
    obtain ⟨⟨-, habsent⟩, rfl⟩ := guarded hstep
    have hk : k ≠ i := by
      rintro rfl
      cases hi.symm.trans habsent
    exact hother hm (hother hk hi)
  | loop j =>
    have hstep' : p.loopStep j (p.threads j) = some q := hstep
    generalize p.threads j = pc at hstep'
    cases pc with
    | publish =>
      obtain ⟨⟩ := hstep'
      exact hother hm hi
    | test =>
      obtain ⟨⟩ := hstep'
      exact hother hm hi
    | task call =>
      cases call with
      | none =>
        obtain ⟨⟩ := hstep'
        exact hother hm hi
      | some call => cases hstep'
    | clear =>
      obtain ⟨⟩ := hstep'
      exact hother hm hi
    | absent => cases hstep'
    | external call => cases hstep'
    | turn => cases hstep'
    | finished => cases hstep'
  | _ =>
    obtain ⟨-, rfl⟩ := guarded hstep
    exact hother hm hi

/-- `start` changes `running_` at its store only. -/
theorem running_startStep {pc : SchedulerStartPc} {pc' : Option SchedulerStartPc}
    (hstep : p.startStep i pc = some (q, pc')) :
    q.running = p.running ∨ pc = .setRunning ∧ q.running = true := by
  cases pc with
  | setRunning =>
    obtain ⟨rfl, -⟩ := pair_inj hstep
    exact .inr ⟨rfl, rfl⟩
  | lock =>
    obtain ⟨-, hsome⟩ := Option.ite_none_left_eq_some.mp hstep
    obtain ⟨rfl, -⟩ := pair_inj hsome
    exact .inl rfl
  | lockHandle =>
    obtain ⟨-, hsome⟩ := Option.ite_none_left_eq_some.mp hstep
    obtain ⟨rfl, -⟩ := pair_inj hsome
    exact .inl rfl
  | lockTuning =>
    obtain ⟨-, hsome⟩ := Option.ite_none_left_eq_some.mp hstep
    obtain ⟨rfl, -⟩ := pair_inj hsome
    exact .inl rfl
  | joinStale =>
    simp only [startStep] at hstep
    split at hstep
    · obtain ⟨r, hjoin, hq⟩ := Option.map_eq_some_iff.mp hstep
      obtain ⟨rfl, -⟩ := Prod.mk.inj hq
      obtain ⟨-, rfl⟩ := joinThread_eq_some hjoin
      exact .inl rfl
    · obtain ⟨rfl, -⟩ := pair_inj hstep
      exact .inl rfl
    · obtain ⟨rfl, -⟩ := pair_inj hstep
      exact .inl rfl
  | spawn => cases hstep
  | _ =>
    obtain ⟨rfl, -⟩ := pair_inj hstep
    exact .inl rfl

/-- `stop` does at its two stores only. -/
theorem running_stopStep {pc : SchedulerStopPc} {pc' : Option SchedulerStopPc}
    (hstep : p.stopStep i pc = some (q, pc'))
    (hkeeps : (SchedulerCall.stop pc).clearsRunning = false) : q.running = p.running := by
  cases pc with
  | halt pc =>
    cases pc with
    | stamp =>
      obtain ⟨rfl, -⟩ := pair_inj hstep
      rfl
    | clearRunning => cases hkeeps
  | clearRunning => cases hkeeps
  | lock =>
    obtain ⟨-, hsome⟩ := Option.ite_none_left_eq_some.mp hstep
    obtain ⟨rfl, -⟩ := pair_inj hsome
    rfl
  | lockHandle =>
    obtain ⟨-, hsome⟩ := Option.ite_none_left_eq_some.mp hstep
    obtain ⟨rfl, -⟩ := pair_inj hsome
    rfl
  | join =>
    simp only [stopStep] at hstep
    split at hstep
    · obtain ⟨r, hjoin, hq⟩ := Option.map_eq_some_iff.mp hstep
      obtain ⟨rfl, -⟩ := Prod.mk.inj hq
      obtain ⟨-, rfl⟩ := joinThread_eq_some hjoin
      rfl
    · obtain ⟨rfl, -⟩ := pair_inj hstep
      rfl
    · obtain ⟨rfl, -⟩ := pair_inj hstep
      rfl
  | _ =>
    obtain ⟨rfl, -⟩ := pair_inj hstep
    rfl

theorem running_tuneStep {pc : SchedulerTunePc} {pc' : Option SchedulerTunePc}
    (hstep : p.tuneStep i pc = some (q, pc')) : q.running = p.running := by
  cases pc with
  | lockHandle =>
    obtain ⟨-, hsome⟩ := Option.ite_none_left_eq_some.mp hstep
    obtain ⟨rfl, -⟩ := pair_inj hsome
    rfl
  | _ =>
    obtain ⟨rfl, -⟩ := pair_inj hstep
    rfl

/-- A step that does not clear `running_` keeps it set. -/
theorem running_callStep (hcall : p.callStep j call = some (q, call'))
    (hkeeps : call.clearsRunning = false) (hrunning : p.running = true) : q.running = true := by
  cases call with
  | start pc =>
    obtain ⟨⟨r, pc'⟩, hstep, hq⟩ := Option.map_eq_some_iff.mp hcall
    obtain ⟨rfl, -⟩ := Prod.mk.inj hq
    exact (running_startStep hstep).elim (·.trans hrunning) (·.2)
  | stop pc =>
    obtain ⟨⟨r, pc'⟩, hstep, hq⟩ := Option.map_eq_some_iff.mp hcall
    obtain ⟨rfl, -⟩ := Prod.mk.inj hq
    exact (running_stopStep hstep hkeeps).trans hrunning
  | halt pc =>
    cases pc with
    | stamp =>
      obtain ⟨rfl, -⟩ := pair_inj hcall
      exact hrunning
    | clearRunning => cases hkeeps
  | pause =>
    obtain ⟨rfl, -⟩ := pair_inj hcall
    exact hrunning
  | resume =>
    obtain ⟨rfl, -⟩ := pair_inj hcall
    exact hrunning
  | tune pc =>
    obtain ⟨⟨r, pc'⟩, hstep, hq⟩ := Option.map_eq_some_iff.mp hcall
    obtain ⟨rfl, -⟩ := Prod.mk.inj hq
    exact (running_tuneStep hstep).trans hrunning

theorem running_frame (hstep : p.step m = some q)
    (hkeeps : ∀ j call, m = .advance j → (p.threads j).call? = some call →
      call.clearsRunning = false) (hrunning : p.running = true) : q.running = true := by
  cases m with
  | advance j =>
    obtain ⟨call, hj, hmap⟩ := Option.bind_eq_some_iff.mp hstep
    obtain ⟨⟨r, call''⟩, hcall, rfl⟩ := Option.map_eq_some_iff.mp hmap
    have hr : r.running = true := running_callStep hcall (hkeeps j call rfl hj) hrunning
    exact hr
  | loop j =>
    have hstep' : p.loopStep j (p.threads j) = some q := hstep
    generalize p.threads j = pc at hstep'
    cases pc with
    | task call =>
      cases call with
      | none =>
        obtain ⟨⟩ := hstep'
        exact hrunning
      | some call => cases hstep'
    | absent => cases hstep'
    | external call => cases hstep'
    | turn => cases hstep'
    | finished => cases hstep'
    | _ =>
      obtain ⟨⟩ := hstep'
      exact hrunning
  | _ =>
    obtain ⟨-, rfl⟩ := guarded hstep
    exact hrunning

/-- **Behind the store, or the test, `running_` is set**, unless the thread is the scheduler's. -/
theorem running_of_isPast {pc : SchedulerStartPc} {pc' : Option SchedulerStartPc}
    (hstep : p.startStep i pc = some (q, pc')) (hself : p.isOnThisThread i = false)
    (hrunning : pc.isPast = true → p.running = true)
    (hpast : SchedulerCall.isPast? (pc'.map .start) = true) : q.running = true := by
  have hkept (h : pc.isPast = true) (hset : pc ≠ .setRunning) : q.running = true :=
    ((running_startStep hstep).resolve_right fun hpc => hset hpc.1).trans (hrunning h)
  cases pc with
  | latch =>
    obtain ⟨-, rfl⟩ := pair_inj hstep
    cases hpast
  | selfCheck =>
    obtain ⟨-, rfl⟩ := pair_inj hstep
    rw [hself] at hpast
    cases hpast
  | lock =>
    obtain ⟨-, hsome⟩ := Option.ite_none_left_eq_some.mp hstep
    obtain ⟨-, rfl⟩ := pair_inj hsome
    cases hpast
  | testRunning =>
    obtain ⟨⟩ := hstep
    by_contra hclear
    rw [if_neg hclear] at hpast
    cases hpast
  | workerCheck =>
    obtain ⟨-, rfl⟩ := pair_inj hstep
    rw [hself] at hpast
    cases hpast
  | lockHandle =>
    obtain ⟨-, hsome⟩ := Option.ite_none_left_eq_some.mp hstep
    obtain ⟨-, rfl⟩ := pair_inj hsome
    cases hpast
  | joinStale =>
    simp only [startStep] at hstep
    split at hstep
    · obtain ⟨r, hjoin, hq⟩ := Option.map_eq_some_iff.mp hstep
      obtain ⟨-, rfl⟩ := Prod.mk.inj hq
      cases hpast
    · obtain ⟨-, rfl⟩ := pair_inj hstep
      cases hpast
    · obtain ⟨-, rfl⟩ := pair_inj hstep
      cases hpast
  | setRunning =>
    obtain ⟨rfl, -⟩ := pair_inj hstep
    rfl
  | _ => exact hkept rfl SchedulerStartPc.noConfusion

/-- A thread in a `start` of its own takes the next step of it. -/
theorem start_ownMove {pc? : Option SchedulerStartPc} (hp : p.Inv) (hstep : p.step m = some q)
    (hm : m.thread = i) (hin : m.inCall = true) (hi : p.threads i = .external (pc?.map .start)) :
    ∃ pc' : Option SchedulerStartPc, q.threads i = .external (pc'.map .start) ∧
      ((SchedulerCall.isPast? (pc?.map .start) = true → p.running = true) →
        SchedulerCall.isPast? (pc'.map .start) = true → q.running = true) := by
  have hcall : (p.threads i).call? = pc?.map .start := by rw [hi]; rfl
  have hset {r : SchedulerThreads} (call : Option SchedulerCall)
      (hr : r.threads i = .external (pc?.map .start)) :
      (r.setCall i call).threads i = .external call := by
    rw [setCall, threads_setThread_self, hr]
    rfl
  cases m with
  | advance j =>
    obtain rfl : j = i := hm
    obtain ⟨call, hj, hmap⟩ := Option.bind_eq_some_iff.mp hstep
    obtain ⟨⟨r, call'⟩, hcallStep, rfl⟩ := Option.map_eq_some_iff.mp hmap
    have hkept : r.threads j = p.threads j :=
      threads_callStep hp hj hcallStep (by rw [hi]; exact ThreadPc.noConfusion)
    cases pc? with
    | none => cases hcall.symm.trans hj
    | some pc =>
      obtain rfl := Option.some.inj (hcall.symm.trans hj)
      obtain ⟨⟨r', pc'⟩, hstart, hq⟩ := Option.map_eq_some_iff.mp hcallStep
      obtain ⟨rfl, rfl⟩ := Prod.mk.inj hq
      have hself : p.isOnThisThread j = false := by
        rw [isOnThisThread, beq_eq_false_iff_ne]
        intro hpublished
        have hpub := (hp.published j).mpr hpublished
        rw [hi] at hpub
        cases hpub
      refine ⟨pc', hset _ (hkept.trans hi), fun hrunning hpast => ?_⟩
      have hr : r'.running = true := running_of_isPast hstart hself hrunning hpast
      exact hr
  | create j k =>
    obtain rfl : j = i := hm
    obtain ⟨⟨hspawn, habsent⟩, rfl⟩ := guarded hstep
    have hjk : j ≠ k := by
      rintro rfl
      cases hi.symm.trans habsent
    refine ⟨some (.unlockHandle false), hset _ ?_, fun hrunning _ => hrunning ?_⟩
    · exact (threads_setThread_ne hjk).trans hi
    · rw [← hcall, hspawn]
      rfl
  | createFails j =>
    obtain rfl : j = i := hm
    obtain ⟨hspawn, rfl⟩ := guarded hstep
    refine ⟨some (.unlockHandle true), hset _ hi, fun hrunning _ => hrunning ?_⟩
    rw [← hcall, hspawn]
    rfl
  | _ => cases hin

/-- A thread that is in no call takes no step of one. -/
theorem thread_ne_of_idle (hstep : p.step m = some q) (hi : p.threads i = .external none)
    (hin : m.inCall = true) : m.thread ≠ i := by
  have hcall : (p.threads i).call? = none := by rw [hi]; rfl
  cases m with
  | advance j =>
    rintro rfl
    obtain ⟨call, hj, -⟩ := Option.bind_eq_some_iff.mp hstep
    cases hcall.symm.trans hj
  | create j k =>
    rintro rfl
    obtain ⟨⟨hspawn, -⟩, -⟩ := Option.ite_none_right_eq_some.mp hstep
    cases hcall.symm.trans hspawn
  | createFails j =>
    rintro rfl
    obtain ⟨hspawn, -⟩ := Option.ite_none_right_eq_some.mp hstep
    cases hcall.symm.trans hspawn
  | _ => cases hin

end SchedulerThreads

/-! ## What every such run keeps -/

namespace RecoveryRun

open SchedulerThreads

/-- **The invariant**, of the recoveries of a system that has stayed `RUNNING`. -/
structure RecoveryInv (p : RecoveryRun) : Prop where
  threads : p.1.threads.Inv
  /-- the `start()` of a recovery is not on the scheduler's thread -/
  starting : ∀ i threw, p.2.stayed i = true → p.1.recoveries i = some (.starting threw) →
    ∃ pc? : Option SchedulerStartPc, p.1.threads.threads i = .external (pc?.map .start)
  succeeding : ∀ i, p.2.stayed i = true → p.1.recoveries i = some .succeed →
    p.1.threads.threads i = .external none
  restarted : ∀ i, p.2.stayed i = true → p.1.HasRestarted i → p.1.threads.running = true
  recovers : Recovers p

variable {p q : RecoverySystem} {h h' : RecoveryRecord} {a : RecoveryMove}

/-- A step of the scheduler moves a recovery only where its `start()` throws. -/
theorem noteThrow_cases (p : RecoverySystem) (m : Move) (i : ThreadId) :
    p.noteThrow m i = p.recoveries i ∨
      p.recoveries i = some (.starting false) ∧ p.noteThrow m i = some (.starting true) := by
  cases m with
  | createFails j =>
    unfold RecoverySystem.noteThrow
    dsimp only
    split
    next hstarting =>
      by_cases hij : i = j
      · subst hij
        exact .inr ⟨hstarting, Function.update_self ..⟩
      · exact .inl (Function.update_of_ne hij ..)
    · exact .inl rfl
  | _ => exact .inl rfl

/-- A step of the scheduler, and of its calls. -/
theorem RecoveryInv.scheduler (hp : RecoveryInv (p, h)) {m : Move}
    (hG : Undisturbed (p, h) (.scheduler m)) (hstep : p.step (.scheduler m) = some q) :
    RecoveryInv (q, h) := by
  obtain ⟨hfree, hsome⟩ := Option.ite_none_left_eq_some.mp hstep
  obtain ⟨t, ht, rfl⟩ := Option.map_eq_some_iff.mp hsome
  have hinv : p.threads.Inv := hp.threads
  -- a thread in a recovery moves with its call
  have hin {i : ThreadId} {pc : RecoveryPc} (hi : p.recoveries i = some pc) (hm : m.thread = i) :
      m.inCall = true := by
    by_contra hout
    rw [hm, hi] at hfree
    exact hfree (by simpa using hout)
  have hkept {i : ThreadId} (hstayed : h.stayed i = true) (hrestarted : p.HasRestarted i) :
      t.running = true := by
    refine running_frame ht (fun j call hadvance hj => ?_) (hp.restarted i hstayed hrestarted)
    by_contra hclears
    rw [Bool.not_eq_false] at hclears
    exact hG.alone j call (congrArg _ hadvance) hj hclears i hstayed hrestarted
  have hidle {i : ThreadId} (hstayed : h.stayed i = true) (hi : p.recoveries i = some .succeed) :
      t.threads i = .external none := by
    have hnone : p.threads.threads i = .external none := hp.succeeding i hstayed hi
    refine external_frame hinv ht hnone fun hm => ?_
    exact thread_ne_of_idle ht hnone (hin hi hm) hm
  refine ⟨hinv.step ht, fun i threw hstayed hi => ?_, fun i hstayed hi => ?_,
    fun i hstayed hi => ?_, hp.recovers⟩
  · obtain ⟨threw', hi'⟩ : ∃ threw', p.recoveries i = some (.starting threw') := by
      rcases noteThrow_cases p m i with hsame | ⟨hstarting, -⟩
      · exact ⟨threw, hsame.symm.trans hi⟩
      · exact ⟨false, hstarting⟩
    obtain ⟨pc?, hpos⟩ := hp.starting i threw' hstayed hi'
    by_cases hm : m.thread = i
    · obtain ⟨pc', hpos', -⟩ := start_ownMove hinv ht hm (hin hi' hm) hpos
      exact ⟨pc', hpos'⟩
    · exact ⟨pc?, external_frame hinv ht hpos hm⟩
  · rcases noteThrow_cases p m i with hsame | ⟨-, hthrown⟩
    · exact hidle hstayed (hsame.symm.trans hi)
    · cases hthrown.symm.trans hi
  · rcases hi with hi | ⟨hi, hpast⟩
    · rcases noteThrow_cases p m i with hsame | ⟨-, hthrown⟩
      · exact hkept hstayed (.inl (hsame.symm.trans hi))
      · cases hthrown.symm.trans hi
    · rcases noteThrow_cases p m i with hsame | ⟨-, hthrown⟩
      · have hi' : p.recoveries i = some (.starting false) := hsame.symm.trans hi
        obtain ⟨pc?, hpos⟩ := hp.starting i false hstayed hi'
        have hpos : p.threads.threads i = .external (pc?.map .start) := hpos
        by_cases hm : m.thread = i
        · obtain ⟨pc', hpos', hrunning⟩ := start_ownMove hinv ht hm (hin hi' hm) hpos
          refine hrunning (fun hold => ?_) ?_
          · exact hp.restarted i hstayed (.inr ⟨hi', by rw [hpos]; exact hold⟩)
          · have hcall : (t.threads i).call? = pc'.map .start := by rw [hpos']; rfl
            rw [← hcall]
            exact hpast
        · have hsame' : t.threads i = p.threads.threads i :=
            (external_frame hinv ht hpos hm).trans hpos.symm
          exact hkept hstayed (.inr ⟨hi', by rw [← hsame']; exact hpast⟩)
      · cases hthrown.symm.trans hi

/-- A step of one thread's recovery leaves the others. -/
theorem RecoveryInv.move (hp : RecoveryInv (p, h)) {i : ThreadId} (hinv : q.threads.Inv)
    (hothers : ∀ k ≠ i, q.recoveries k = p.recoveries k)
    (hthreads : ∀ k ≠ i, ∀ call, p.threads.threads k = .external call →
      q.threads.threads k = .external call)
    (hrunning : q.threads.running = p.threads.running)
    (hstarting : ∀ threw, h.stayed i = true → q.recoveries i = some (.starting threw) →
      ∃ pc? : Option SchedulerStartPc, q.threads.threads i = .external (pc?.map .start))
    (hsucceeding : h.stayed i = true → q.recoveries i = some .succeed →
      q.threads.threads i = .external none)
    (hrestarted : h.stayed i = true → q.HasRestarted i → q.threads.running = true) :
    RecoveryInv (q, h) := by
  refine ⟨hinv, fun k threw hstayed hk => ?_, fun k hstayed hk => ?_, fun k hstayed hk => ?_,
    hp.recovers⟩
  · by_cases hki : k = i
    · subst hki
      exact hstarting threw hstayed hk
    · obtain ⟨pc?, hpos⟩ := hp.starting k threw hstayed ((hothers k hki).symm.trans hk)
      exact ⟨pc?, hthreads k hki _ hpos⟩
  · by_cases hki : k = i
    · subst hki
      exact hsucceeding hstayed hk
    · exact hthreads k hki _ (hp.succeeding k hstayed ((hothers k hki).symm.trans hk))
  · by_cases hki : k = i
    · subst hki
      exact hrestarted hstayed hk
    · change q.threads.running = true
      rw [hrunning]
      refine hp.restarted k hstayed ?_
      rcases hk with hk | ⟨hk, hpast⟩
      · exact .inl ((hothers k hki).symm.trans hk)
      · have hk' : p.recoveries k = some (.starting false) := (hothers k hki).symm.trans hk
        obtain ⟨pc?, hpos⟩ := hp.starting k false hstayed hk'
        have hsame : q.threads.threads k = p.threads.threads k :=
          (hthreads k hki _ hpos).trans hpos.symm
        refine .inr ⟨hk', ?_⟩
        rw [← hsame]
        exact hpast

/-- A step outside of the calls, before the `start()` or after the end. -/
theorem RecoveryInv.quiet (hp : RecoveryInv (p, h)) {i : ThreadId} {pc : Option RecoveryPc}
    (hthreads : q.threads = p.threads)
    (hrecoveries : q.recoveries = Function.update p.recoveries i pc)
    (hstarting : ∀ threw, pc ≠ some (.starting threw)) (hsucceed : pc ≠ some .succeed) :
    RecoveryInv (q, h) := by
  have hself : q.recoveries i = pc := by rw [hrecoveries, Function.update_self]
  refine hp.move (i := i) (hthreads ▸ hp.threads)
    (fun k hki => by rw [hrecoveries, Function.update_of_ne hki]) (fun k _ call hk => by rw [hthreads, hk])
    (by rw [hthreads]) (fun threw _ hi => absurd (hself.symm.trans hi) (hstarting threw))
    (fun _ hi => absurd (hself.symm.trans hi) hsucceed) fun _ hi => ?_
  rcases hi with hi | ⟨hi, -⟩
  · exact absurd (hself.symm.trans hi) hsucceed
  · exact absurd (hself.symm.trans hi) (hstarting false)

/-- A thread in user code makes a call: the others stay, and so does `running_`. -/
theorem begin_frame {t : SchedulerThreads} {i : ThreadId} {c : Beginning} (hinv : p.threads.Inv)
    (hstep : p.threads.step (.begin i c) = some t) :
    t.Inv ∧ (∀ k ≠ i, ∀ call, p.threads.threads k = .external call →
        t.threads k = .external call) ∧
      t.running = p.threads.running ∧
      (p.threads.threads i = .external none → t.threads i = .external (some c.call)) := by
  refine ⟨hinv.step hstep, fun k hki call hk => external_frame hinv hstep hk hki.symm, ?_, ?_⟩
  · obtain ⟨-, rfl⟩ := guarded hstep
    rfl
  · intro hi
    obtain ⟨-, rfl⟩ := guarded hstep
    rw [setCall, threads_setThread_self, hi]
    rfl

/-- A step of a recovery, but for its return. -/
theorem RecoveryInv.recover (hp : RecoveryInv (p, h)) {i : ThreadId} {pc : RecoveryPc}
    (hi : p.recoveries i = some pc) (hG : Undisturbed (p, h) (.recover i))
    (hstep : p.recoverStep i pc = some q) : RecoveryInv (q, h) := by
  cases pc with
  | testEnabled =>
    obtain ⟨⟩ := hstep
    refine hp.quiet rfl rfl (fun threw => ?_) ?_ <;> split_ifs <;> simp
  | loadAttempts =>
    obtain ⟨⟩ := hstep
    refine hp.quiet rfl rfl (fun threw => ?_) ?_ <;> split_ifs <;> simp
  | stop =>
    obtain ⟨t, ht, rfl⟩ := Option.map_eq_some_iff.mp hstep
    obtain ⟨hinv, hothers, hrunning, -⟩ := begin_frame hp.threads ht
    have hself : (Function.update p.recoveries i (some .stopping)) i = some .stopping :=
      Function.update_self ..
    refine hp.move (i := i) hinv (fun k hki => Function.update_of_ne hki ..) hothers hrunning
      (fun threw _ hi => ?_) (fun _ hi => ?_) fun _ hi => ?_
    · cases hself.symm.trans hi
    · cases hself.symm.trans hi
    · rcases hi with hi | ⟨hi, -⟩
      · cases hself.symm.trans hi
      · cases hself.symm.trans hi
  | stopping =>
    obtain ⟨-, rfl⟩ := guarded hstep
    exact hp.quiet rfl rfl (by simp) (by simp)
  | sleep =>
    obtain ⟨t, ht, rfl⟩ := Option.map_eq_some_iff.mp hstep
    obtain ⟨hinv, hothers, hrunning, hcalls⟩ := begin_frame hp.threads ht
    have hself : (Function.update p.recoveries i (some (.starting false))) i =
        some (.starting false) := Function.update_self ..
    -- a recovery of a system that has stayed `RUNNING` is elsewhere
    have hpos (hstayed : h.stayed i = true) :
        t.threads i = .external ((some SchedulerStartPc.latch).map .start) :=
      hcalls (hG.elsewhere i rfl hi hstayed)
    refine hp.move (i := i) hinv (fun k hki => Function.update_of_ne hki ..) hothers hrunning
      (fun threw hstayed _ => ⟨_, hpos hstayed⟩) (fun _ hi => ?_) fun hstayed hi => ?_
    · cases hself.symm.trans hi
    · rcases hi with hi | ⟨-, hpast⟩
      · cases hself.symm.trans hi
      · have hcall : (t.threads i).call? = some (.start .latch) := by rw [hpos hstayed]; rfl
        have hpast' : SchedulerCall.isPast? (t.threads i).call? = true := hpast
        rw [hcall] at hpast'
        cases hpast'
  | starting threw =>
    obtain ⟨hreturned, rfl⟩ := guarded hstep
    cases threw with
    | true => exact hp.quiet rfl rfl (by simp) (by simp)
    | false =>
      have hself : (Function.update p.recoveries i (some .succeed)) i = some .succeed :=
        Function.update_self ..
      refine hp.move (i := i) hp.threads (fun k hki => Function.update_of_ne hki ..)
        (fun k _ call hk => hk) rfl (fun threw _ hi => ?_) (fun hstayed _ => ?_)
        fun hstayed _ => ?_
      · cases hself.symm.trans hi
      · obtain ⟨pc?, hpos⟩ := hp.starting i false hstayed hi
        have hpos' : p.threads.threads i = .external (pc?.map .start) := hpos
        rw [hpos'] at hreturned
        change p.threads.threads i = _
        rw [hpos']
        exact congrArg _ hreturned
      · exact hp.restarted i hstayed (.inr ⟨hi, by rw [hreturned]; rfl⟩)
  | _ =>
    obtain ⟨⟩ := hstep
    exact hp.quiet rfl rfl (by simp) (by simp)

/-- A recovery begins. -/
theorem RecoveryInv.attempt (hp : RecoveryInv (p, h)) {i : ThreadId} {stayed : Bool}
    (hi : p.recoveries i = some .testEnabled) :
    RecoveryInv (p, { h with stayed := Function.update h.stayed i stayed }) := by
  have hother {k : ThreadId} {pc : RecoveryPc} (hk : p.recoveries k = some pc)
      (hpc : pc ≠ .testEnabled) (hstayed : Function.update h.stayed i stayed k = true) :
      h.stayed k = true := by
    have hki : k ≠ i := by
      rintro rfl
      exact hpc (Option.some.inj (hk.symm.trans hi))
    rwa [Function.update_of_ne hki] at hstayed
  refine ⟨hp.threads, fun k threw hstayed hk => ?_, fun k hstayed hk => ?_,
    fun k hstayed hk => ?_, hp.recovers⟩
  · exact hp.starting k threw (hother hk (by simp) hstayed) hk
  · exact hp.succeeding k (hother hk (by simp) hstayed) hk
  · refine hp.restarted k ?_ hk
    rcases hk with hk | ⟨hk, -⟩
    · exact hother hk (by simp) hstayed
    · exact hother hk (by simp) hstayed

theorem RecoveryInv.step (hp : RecoveryInv (p, h)) (hG : Undisturbed (p, h) a)
    (hstep : p.step a = some q) (hrecord : h.record p a q = h') : RecoveryInv (q, h') := by
  subst hrecord
  cases a with
  | scheduler m => exact hp.scheduler hG hstep
  | setState state =>
    obtain ⟨⟩ := hstep
    unfold RecoveryRecord.record
    dsimp only
    split
    · exact ⟨hp.threads, hp.starting, hp.succeeding, hp.restarted, hp.recovers⟩
    · refine ⟨hp.threads, fun i threw hstayed => ?_, fun i hstayed => ?_, fun i hstayed => ?_,
        hp.recovers⟩
      · cases hstayed
      · cases hstayed
      · cases hstayed
  | resetAttempts =>
    obtain ⟨⟩ := hstep
    exact ⟨hp.threads, hp.starting, hp.succeeding, hp.restarted, hp.recovers⟩
  | attempt i =>
    obtain ⟨-, rfl⟩ := guarded hstep
    exact (hp.quiet (q := p.setRecovery i (some .testEnabled)) rfl rfl (by simp) (by simp)).attempt
      (Function.update_self ..)
  | recover i =>
    obtain ⟨pc, hi, hpc⟩ := Option.bind_eq_some_iff.mp hstep
    have hq := hp.recover hi hG hpc
    unfold RecoveryRecord.record
    dsimp only
    split
    next hreturns =>
      -- the return
      obtain ⟨hsucceed, hstayed⟩ := hreturns
      obtain rfl := Option.some.inj (hi.symm.trans hsucceed)
      refine ⟨hq.threads, hq.starting, hq.succeeding, hq.restarted, fun running hmem => ?_⟩
      rcases List.mem_append.mp hmem with hold | hnew
      · exact hq.recovers running hold
      · obtain ⟨⟩ := hpc
        rw [List.mem_singleton.mp hnew]
        exact hp.restarted i hstayed (.inl hsucceed)
    · exact hq

/-- **A recovery that nobody disturbs leaves `running_` set**, in every run. -/
theorem recovers_of_undisturbed {enableAutoRecovery : Bool} {maxRecoveryAttempts : ℕ}
    {p : RecoveryRun} (hr : (machine enableAutoRecovery maxRecoveryAttempts).ReachableUnder
      Undisturbed p) : Recovers p := by
  have hinv : RecoveryInv p := by
    refine Machine.ReachableUnder.invariant (I := RecoveryInv) ⟨?_, ?_⟩ hr
    · rintro ⟨s, h⟩ ⟨hs, hh⟩
      obtain rfl : s = _ := hs
      obtain rfl : h = _ := hh
      refine ⟨inv_init, fun i threw hstayed => ?_, fun i hstayed => ?_, fun i hstayed => ?_,
        fun running hmem => ?_⟩
      · cases hstayed
      · cases hstayed
      · cases hstayed
      · cases hmem
    · rintro ⟨s, h⟩ a ⟨t, h'⟩ hI hG hstep
      obtain ⟨hact, hrecord⟩ := Machine.withHistory_step.mp hstep
      exact hI.step hG hact hrecord
  exact hinv.recovers

/-! ## Two recoveries -/

/-- The moves of one thread that recovers elsewhere, by itself. -/
def oneRecovery (p : RecoveryRun) : RecoveryMove → Bool
  | .attempt i => i == 0
  | .recover i => p.1.threads.threads i == .external none
  | .scheduler (.advance j) =>
    ((p.1.threads.threads j).call?.all fun call => !call.clearsRunning) ||
      p.1.recoveries 0 == some .stopping
  | _ => true

/-- Then the condition holds. -/
theorem undisturbed_of_oneRecovery {s : RecoveryRun} {a : RecoveryMove}
    (honly : ∀ i, s.2.stayed i = true → i = 0) (hone : oneRecovery s a = true) : Undisturbed s a := by
  refine ⟨?_, ?_⟩
  · rintro i rfl - -
    exact beq_iff_eq.mp hone
  · rintro j call rfl hj hclears i hstayed hrestarted
    obtain rfl := honly i hstayed
    have hstopping : s.1.recoveries 0 = some .stopping := by
      simpa [oneRecovery, hj, hclears] using hone
    rcases hrestarted with hrestarted | ⟨hrestarted, -⟩
    · cases hrestarted.symm.trans hstopping
    · cases hrestarted.symm.trans hstopping

/-- A thread outside recovers a system that is `RUNNING`. -/
def recoveryOutside : List RecoveryMove :=
  [.scheduler (.appear 0), .setState .running, .attempt 0] ++ List.replicate 5 (.recover 0) ++
    List.replicate 10 (.scheduler (.advance 0)) ++ List.replicate 2 (.recover 0) ++
    List.replicate 9 (.scheduler (.advance 0)) ++ [.scheduler (.create 0 1)] ++
    List.replicate 3 (.scheduler (.advance 0)) ++ List.replicate 2 (.recover 0)

/-- There `running_` is set at the return. -/
theorem recovers_recoveryOutside : ∃ p, (machine true 3).ReachableUnder Undisturbed p ∧
    p.2.returned.length = 1 ∧ Recovers p := by
  have hchecks : (machine true 3).checks oneRecovery
      ({ enableAutoRecovery := true, maxRecoveryAttempts := 3 }, {}) recoveryOutside = true := by
    decide +kernel
  have hrun : ((machine true 3).exec ({ enableAutoRecovery := true, maxRecoveryAttempts := 3 }, {})
      recoveryOutside).any (fun p => decide (p.2.returned.length = 1)) = true := by
    decide +kernel
  obtain ⟨p, hp, hend⟩ := (Option.any_eq_true _ _).mp hrun
  have hinit : (machine true 3).init ({ enableAutoRecovery := true, maxRecoveryAttempts := 3 }, {}) :=
    ⟨rfl, rfl⟩
  have hallowed := (Machine.allowed_of_checks (fun _ _ h => h) hchecks).of_invariant
    (I := fun s => ∀ i, s.2.stayed i = true → i = 0) ?_
    (fun _ _ honly hone => undisturbed_of_oneRecovery honly hone) (fun i hi => by cases hi)
  · have hr := (Machine.ReachableUnder.init hinit).exec hallowed hp
    exact ⟨p, hr, of_decide_eq_true hend, recovers_of_undisturbed hr⟩
  · rintro ⟨s, h⟩ a ⟨t, h'⟩ honly hone hstep i hi
    obtain ⟨-, hrecord⟩ := Machine.withHistory_step.mp hstep
    rw [← hrecord] at hi
    rcases RecoveryRecord.stayed_record hi with rfl | hold
    · exact beq_iff_eq.mp hone
    · exact honly i hold

/-- A task recovers the system from the scheduler's thread. -/
def recoveryInTask : List RecoveryMove :=
  [.scheduler (.appear 0), .scheduler (.begin 0 .start)] ++
    List.replicate 9 (.scheduler (.advance 0)) ++ [.scheduler (.create 0 1)] ++
    List.replicate 3 (.scheduler (.advance 0)) ++ List.replicate 2 (.scheduler (.loop 1)) ++
    [.scheduler (.enterTask 1), .setState .running, .attempt 1] ++
    List.replicate 5 (.recover 1) ++ List.replicate 3 (.scheduler (.advance 1)) ++
    List.replicate 2 (.recover 1) ++ List.replicate 2 (.scheduler (.advance 1)) ++
    List.replicate 2 (.recover 1)

/-- **The scheduler is halted, and the recovery has succeeded.** -/
theorem recoveryInTask_halted :
    ¬ ∀ p, (machine true 3).Reachable p → Recovers p := by
  intro hall
  have hrun : ((machine true 3).exec ({ enableAutoRecovery := true, maxRecoveryAttempts := 3 }, {})
      recoveryInTask).any (fun p => decide (p.2.returned = [false] ∧ p.1.state = .running ∧
        p.1.successfulRecoveries = 1)) = true := by
    decide +kernel
  obtain ⟨p, hp, hend⟩ := (Option.any_eq_true _ _).mp hrun
  obtain ⟨hreturned, -, -⟩ := of_decide_eq_true hend
  have hp' : (machine true 3).Reachable p := Machine.Reachable.exec (.init ⟨rfl, rfl⟩) hp
  have hfalse : false = true := hall p hp' false (by rw [hreturned]; exact List.mem_singleton_self _)
  cases hfalse

end RecoveryRun

end AxonVex
