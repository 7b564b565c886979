import Mathlib.Data.Nat.Notation

/-!
# Core/WorkerThread — one thread handle and the loop behind it

`detail::WorkerThread` owns the `std::thread` of one loop.  The handle is empty, joinable with the
loop still running, or joinable with the loop gone; `P` is what the model keeps of a running loop
(where it stands and its locals).

Three threads belong to a system — event dispatch, monitor and scheduler — and every other thread
that calls into it is external.  `isOnThisThread()` asks whether the caller is the loop itself.
-/

namespace AxonVex

/-- The threads that call into a system: its three workers, and any number of external ones. -/
inductive Thread
  | external (n : ℕ)
  | dispatch
  | monitor
  | scheduler
  deriving DecidableEq, Repr

/-- The handle of a worker. -/
inductive WorkerThread (P : Type*)
  /-- no handle, or one that has been joined -/
  | empty
  /-- joinable, the loop running at `pc` -/
  | running (pc : P)
  /-- joinable, the loop has returned -/
  | exited
  deriving DecidableEq, Repr

namespace WorkerThread

variable {P : Type*} (w : WorkerThread P)

/-- `joinable()`. -/
def joinable : Bool :=
  match w with
  | empty => false
  | running _ => true
  | exited => true

/-- The loop has not returned. -/
def alive : Bool :=
  match w with
  | empty => false
  | running _ => true
  | exited => false

/-- Where the running loop stands. -/
def pc? : Option P :=
  match w with
  | empty => none
  | running pc => some pc
  | exited => none

@[simp] theorem alive_empty : (empty : WorkerThread P).alive = false := rfl
@[simp] theorem alive_running (pc : P) : (running pc).alive = true := rfl
@[simp] theorem alive_exited : (exited : WorkerThread P).alive = false := rfl
@[simp] theorem pc?_empty : (empty : WorkerThread P).pc? = none := rfl
@[simp] theorem pc?_running (pc : P) : (running pc).pc? = some pc := rfl
@[simp] theorem pc?_exited : (exited : WorkerThread P).pc? = none := rfl

/-- A loop that has returned left a handle, or none was ever there. -/
theorem not_alive_iff : w.alive = false ↔ w = empty ∨ w = exited := by
  cases w <;> simp

end WorkerThread

end AxonVex
