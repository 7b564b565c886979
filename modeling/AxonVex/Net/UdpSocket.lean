import AxonVex.Machinery.WorkerSafety

/-!
# Net/UdpSocket — `start` and `stop` of `UdpSocket`

The receive loop runs while `running_` and `connectionAlive_` are set.  It clears the second itself
when `recvfrom` fails, and on its way out.  `start` reaps a worker that has died, closes its socket
and opens another; `stop` joins the worker, then closes.  Nothing wakes a blocked `recvfrom`, so a
`stop` returns because the condition of the loop is false, which a `start` that has just set both
flags undoes (`start_revives_socket`); without such a `start` both are safe (`socket_safe`).
-/

namespace AxonVex

open Machinery

namespace UdpSocket

/-- The atomic flags. -/
inductive Flag
  | running
  | connectionAlive
  deriving DecidableEq, Repr

inductive Call
  | start
  | stop
  deriving DecidableEq, Repr

def start : List (Stmt Flag) :=
  [.returnOnWorker, .lock, .returnIf [.running, .connectionAlive],
    .ifJoinable 3, .store .running false, .join, .clearId,
    .store .running false, .close, .openOrReturn,
    .store .connectionAlive true, .store .running true, .spawn, .unlock]

def stop : List (Stmt Flag) :=
  [.store .running false, .returnOnWorker, .lock, .ifJoinable 1, .join, .clearId, .close, .unlock]

/-- The socket and its receive worker.  Message callbacks run in the loop, the error callback for a
failed `recvfrom` after it. -/
def socket : WorkerClass Flag Call where
  code
    | .start => start
    | .stop => stop
  loop := [.running, .connectionAlive]
  fault := some .connectionAlive
  exit := [.connectionAlive]

theorem socket_disciplined : socket.Disciplined := by
  intro c
  cases c <;> exact ⟨rfl, rfl, rfl, rfl, rfl⟩

/-- **`start` and `stop` of the socket are safe** in the runs in which no `start` makes the
condition of the loop true while a `stop` of another thread is between its clear of `running_` and
the mutex. -/
theorem socket_safe {p : Workers Flag} (h : socket.machine.ReachableUnder socket.Undisturbed p) :
    socket.Safe p :=
  WorkerClass.safe socket_disciplined h

/-- After a first `start` by the thread `0`: the worker is the thread `1`. -/
theorem socket_safe_started : ∃ p, socket.machine.exec {} (.arrive 0 :: .call 0 .start ::
    (List.replicate 9 (.step 0) ++ [.spawn 0 1])) = some p ∧ p.handle = some 1 ∧ socket.Safe p :=
  ⟨_, rfl, rfl, socket_safe
    (.exec (.init rfl) (WorkerClass.allowed_first_call 0 .start 9 1) rfl)⟩

set_option maxRecDepth 4000 in
/-- A `start` revives the socket that a `stop` is about to join. -/
theorem start_revives_socket : ¬ ∀ p, socket.machine.Reachable p → socket.Safe p := by
  intro h
  have hrun : (socket.machine.exec {} ([.arrive 0, .arrive 1, .call 0 .stop, .step 0,
      .call 1 .start] ++ List.replicate 9 (.step 1) ++ [.spawn 1 2, .step 1, .step 0, .step 0,
      .step 0])).any (fun p => (p.threads 0).rest? == some [.join, .clearId, .close, .unlock] &&
        p.allSet socket.loop) = true := by decide
  obtain ⟨p, hp, hbad⟩ := (Option.any_eq_true _ _).mp hrun
  rw [Bool.and_eq_true, beq_iff_eq] at hbad
  have hends := (h p (.exec (.init rfl) hp)).joinEnds 0 _ hbad.1
  rw [hends] at hbad
  exact absurd hbad.2 (by simp)

end UdpSocket

end AxonVex
