import AxonVex.Machinery.WorkerSafety

/-!
# Safety/Lifecycle — `start` and `stop` of `SafetyManager` and `Watchdog`

    bool start() {                                  void stop() {
      lock_guard lifecycle(lifecycleMutex_);          running_.store(false);
      if (running_.exchange(true)) return true;       if (workerId_ == this_thread) return;
      …                                               lock_guard lifecycle(lifecycleMutex_);
      worker_ = std::thread(…);                       if (worker_.joinable()) worker_.join();
      return true;                                    workerId_.store({});
    }                                               }

Both classes run a loop on `running_` and call foreign code in it: policies and handlers, which may
call `start` and `stop` themselves.  `start` assigns over `worker_` without a look at it, and sets
`running_` again whoever has cleared it; `start_stop_safe` says when neither does harm.
-/

namespace AxonVex

open Machinery

/-! ## SafetyManager -/

namespace SafetyManager

/-- The atomic flags. -/
inductive Flag
  | running
  | emergencyStopped
  deriving DecidableEq, Repr

/-- The operations that write them.  An evaluation cycle, of the loop or of a call of
`evaluateAll()`, does so through `triggerEmergencyStop()` alone. -/
inductive Call
  | start
  | stop
  | triggerEmergencyStop
  | resetEmergencyStop
  deriving DecidableEq, Repr

def start : List (Stmt Flag) :=
  [.lock, .returnIfExchanged .running, .store .emergencyStopped false, .spawn, .unlock]

def stop : List (Stmt Flag) :=
  [.store .running false, .returnOnWorker, .lock, .ifJoinable 1, .join, .clearId, .unlock]

/-- What follows the exchange (statistics, handlers, the callback) is foreign code. -/
def triggerEmergencyStop : List (Stmt Flag) := [.returnIfExchanged .emergencyStopped]

def resetEmergencyStop : List (Stmt Flag) :=
  [.returnUnless .emergencyStopped, .store .emergencyStopped false]

/-- The manager and its evaluation worker. -/
def manager : WorkerClass Flag Call where
  code
    | .start => start
    | .stop => stop
    | .triggerEmergencyStop => triggerEmergencyStop
    | .resetEmergencyStop => resetEmergencyStop
  loop := [.running]

theorem manager_disciplined : manager.Disciplined := by
  intro c
  cases c <;> exact ⟨rfl, rfl, rfl, rfl, rfl⟩

end SafetyManager

/-! ## Watchdog -/

namespace Watchdog

/-- The atomic flag. -/
inductive Flag
  | running
  deriving DecidableEq, Repr

inductive Call
  | start
  | stop
  deriving DecidableEq, Repr

/-- The deadline is written under another mutex. -/
def start : List (Stmt Flag) := [.lock, .returnIfExchanged .running, .spawn, .unlock]

def stop : List (Stmt Flag) :=
  [.store .running false, .returnOnWorker, .lock, .ifJoinable 1, .join, .clearId, .unlock]

/-- The watchdog and its worker. -/
def watchdog : WorkerClass Flag Call where
  code
    | .start => start
    | .stop => stop
  loop := [.running]

theorem watchdog_disciplined : watchdog.Disciplined := by
  intro c
  cases c <;> exact ⟨rfl, rfl, rfl, rfl, rfl⟩

end Watchdog

/-! ## Both -/

/-- **`start` and `stop` of the manager and of the watchdog are safe** in the runs in which each
`start` that finds `running_` clear finds `worker_` not joinable, and no `stop` of another thread
between its clear of `running_` and the mutex. -/
theorem start_stop_safe {p : Workers SafetyManager.Flag} {q : Workers Watchdog.Flag}
    (hp : SafetyManager.manager.machine.ReachableUnder SafetyManager.manager.Undisturbed p)
    (hq : Watchdog.watchdog.machine.ReachableUnder Watchdog.watchdog.Undisturbed q) :
    SafetyManager.manager.Safe p ∧ Watchdog.watchdog.Safe q :=
  ⟨WorkerClass.safe SafetyManager.manager_disciplined hp,
    WorkerClass.safe Watchdog.watchdog_disciplined hq⟩

/-- After a first `start` of each by the thread `0`: the worker is the thread `1`. -/
theorem start_stop_safe_started :
    ∃ p q, SafetyManager.manager.machine.exec {} (.arrive 0 :: .call 0 .start ::
        (List.replicate 3 (.step 0) ++ [.spawn 0 1])) = some p ∧ p.handle = some 1 ∧
      Watchdog.watchdog.machine.exec {} (.arrive 0 :: .call 0 .start ::
        (List.replicate 2 (.step 0) ++ [.spawn 0 1])) = some q ∧ q.handle = some 1 ∧
      SafetyManager.manager.Safe p ∧ Watchdog.watchdog.Safe q :=
  ⟨_, _, rfl, rfl, rfl, rfl, start_stop_safe
    (.exec (.init rfl) (WorkerClass.allowed_first_call 0 .start 3 1) rfl)
    (.exec (.init rfl) (WorkerClass.allowed_first_call 0 .start 2 1) rfl)⟩

set_option maxRecDepth 4000 in
/-- A policy stops the manager, and `start` of another thread assigns over the handle it left; a
`start` of the watchdog revives the loop that a `stop` is about to join. -/
theorem start_stop_unsafe :
    (¬ ∀ p, SafetyManager.manager.machine.Reachable p → SafetyManager.manager.Safe p) ∧
    ¬ ∀ p, Watchdog.watchdog.machine.Reachable p → Watchdog.watchdog.Safe p := by
  constructor
  · intro h
    have hrun : (SafetyManager.manager.machine.exec {} [.arrive 0, .call 0 .start, .step 0, .step 0,
        .step 0, .spawn 0 1, .step 0, .step 1, .step 1, .step 1, .call 1 .stop, .step 1, .step 1,
        .call 0 .start, .step 0, .step 0, .step 0]).any (fun p =>
          (p.threads 0).rest? == some [.spawn, .unlock] && p.handle == some 1) = true := by decide
    obtain ⟨p, hp, hbad⟩ := (Option.any_eq_true _ _).mp hrun
    rw [Bool.and_eq_true, beq_iff_eq, beq_iff_eq] at hbad
    have hnone := (h p (.exec (.init rfl) hp)).notOverwritten 0 _ hbad.1
    rw [hnone] at hbad
    exact absurd hbad.2 (by simp)
  · intro h
    have hrun : (Watchdog.watchdog.machine.exec {} [.arrive 0, .arrive 1, .call 0 .stop, .step 0,
        .call 1 .start, .step 1, .step 1, .spawn 1 2, .step 1, .step 0, .step 0, .step 0]).any
        (fun p => (p.threads 0).rest? == some [.join, .clearId, .unlock] &&
          p.allSet Watchdog.watchdog.loop) = true := by decide
    obtain ⟨p, hp, hbad⟩ := (Option.any_eq_true _ _).mp hrun
    rw [Bool.and_eq_true, beq_iff_eq] at hbad
    have hends := (h p (.exec (.init rfl) hp)).joinEnds 0 _ hbad.1
    rw [hends] at hbad
    exact absurd hbad.2 (by simp)

end AxonVex
