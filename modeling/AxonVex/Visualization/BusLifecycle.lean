import AxonVex.Machinery.WorkerSafety

/-!
# Visualization/BusLifecycle — `start` and `stop` of `TelemetryBus`

`start` refuses on the egress thread, joins a worker that a self-stop has left, and only then sets
`running_`.  What it does not do is look for a `stop` that has cleared `running_` and is waiting for
the mutex: that `stop` joins the new worker, whose `running_` nobody clears
(`start_revives_bus`).  Without such a `start` both are safe (`bus_safe`).
-/

namespace AxonVex

open Machinery

namespace TelemetryBus

/-- The atomic flag. -/
inductive Flag
  | running
  deriving DecidableEq, Repr

inductive Call
  | start
  | stop
  deriving DecidableEq, Repr

/-- `running_` is set after the join: a worker in its last callback must not find it set again. -/
def start : List (Stmt Flag) :=
  [.returnOnWorker, .lock, .returnIf [.running], .ifJoinable 2, .join, .clearId,
    .store .running true, .spawn, .unlock]

def stop : List (Stmt Flag) :=
  [.store .running false, .returnOnWorker, .lock, .ifJoinable 1, .join, .clearId, .unlock]

/-- The bus and its egress thread; after the loop it dispatches what is left in the queue. -/
def bus : WorkerClass Flag Call where
  code
    | .start => start
    | .stop => stop
  loop := [.running]
  drains := true

theorem bus_disciplined : bus.Disciplined := by
  intro c
  cases c <;> exact ⟨rfl, rfl, rfl, rfl, rfl⟩

/-- **`start` and `stop` of the bus are safe** in the runs in which no `start` sets `running_` while
a `stop` of another thread is between its clear of `running_` and the mutex. -/
theorem bus_safe {p : Workers Flag} (h : bus.machine.ReachableUnder bus.Undisturbed p) :
    bus.Safe p :=
  WorkerClass.safe bus_disciplined h

/-- After a first `start` by the thread `0`: the worker is the thread `1`. -/
theorem bus_safe_started : ∃ p, bus.machine.exec {} (.arrive 0 :: .call 0 .start ::
    (List.replicate 5 (.step 0) ++ [.spawn 0 1])) = some p ∧ p.handle = some 1 ∧ bus.Safe p :=
  ⟨_, rfl, rfl, bus_safe
    (.exec (.init rfl) (WorkerClass.allowed_first_call 0 .start 5 1) rfl)⟩

set_option maxRecDepth 4000 in
/-- A `start` revives the bus that a `stop` is about to join. -/
theorem start_revives_bus : ¬ ∀ p, bus.machine.Reachable p → bus.Safe p := by
  intro h
  have hrun : (bus.machine.exec {} [.arrive 0, .arrive 1, .call 0 .stop, .step 0, .call 1 .start,
      .step 1, .step 1, .step 1, .step 1, .step 1, .spawn 1 2, .step 1, .step 0, .step 0,
      .step 0]).any (fun p => (p.threads 0).rest? == some [.join, .clearId, .unlock] &&
        p.allSet bus.loop) = true := by decide
  obtain ⟨p, hp, hbad⟩ := (Option.any_eq_true _ _).mp hrun
  rw [Bool.and_eq_true, beq_iff_eq] at hbad
  have hends := (h p (.exec (.init rfl) hp)).joinEnds 0 _ hbad.1
  rw [hends] at hbad
  exact absurd hbad.2 (by simp)

end TelemetryBus

end AxonVex
