import AxonVex.Machinery.Machine
import Mathlib.Data.List.Infix
import Mathlib.Data.Nat.ModEq

/-!
# Machinery/BoundedFifo — a first-in first-out queue of bounded length, as an abstract machine

The state is the list of what is in the queue.  An operation carries its answer: `pop x` says that
`x` came out, `full` that an item was refused.  What a run pushes is what it pops, followed by what
is in the queue at its end.
-/

namespace Machinery

/-- An operation on a queue, with its answer. -/
inductive FifoOp (R : Type*)
  | push (x : R)
  /-- an item is refused -/
  | full
  | pop (x : R)
  | peek (x : R)
  /-- nothing comes out -/
  | empty
  deriving DecidableEq, Repr

namespace FifoOp

variable {R : Type*}

def pushed? : FifoOp R → Option R
  | push x => some x
  | _ => none

def popped? : FifoOp R → Option R
  | pop x => some x
  | _ => none

end FifoOp

variable {R : Type*} {n : ℕ} {q r : List R} {ops : List (FifoOp R)} {op : FifoOp R}

/-- What a run pushes. -/
def pushes (ops : List (FifoOp R)) : List R := ops.filterMap FifoOp.pushed?

/-- What a run pops. -/
def pops (ops : List (FifoOp R)) : List R := ops.filterMap FifoOp.popped?

@[simp] theorem pushes_snoc : pushes (ops ++ [op]) = pushes ops ++ op.pushed?.toList := by
  cases op <;> simp [pushes, FifoOp.pushed?]

@[simp] theorem pops_snoc : pops (ops ++ [op]) = pops ops ++ op.popped?.toList := by
  cases op <;> simp [pops, FifoOp.popped?]

/-- Whether the queue, of at most `n` items, allows the operation. -/
inductive FifoOp.Allowed (n : ℕ) : FifoOp R → List R → List R → Prop
  | push {q : List R} (x : R) : q.length < n → Allowed n (.push x) q (q ++ [x])
  | full {q : List R} : q.length = n → Allowed n .full q q
  | pop {q : List R} (x : R) : Allowed n (.pop x) (x :: q) q
  | peek {q : List R} (x : R) : Allowed n (.peek x) (x :: q) (x :: q)
  | empty : Allowed n .empty [] []

/-- **The runs of the queue**: `Fifo n ops q` says that the operations `ops`, one after the other
from the empty queue on, leave `q`. -/
inductive Fifo (n : ℕ) : List (FifoOp R) → List R → Prop
  | nil : Fifo n [] []
  | snoc {ops : List (FifoOp R)} {op : FifoOp R} {q r : List R} :
      Fifo n ops q → op.Allowed n q r → Fifo n (ops ++ [op]) r

/-- **First in, first out.** -/
theorem Fifo.pushes_eq (h : Fifo n ops q) : pushes ops = pops ops ++ q := by
  induction h with
  | nil => rfl
  | snoc _ hop ih =>
    rw [pushes_snoc, pops_snoc, ih]
    cases hop <;> simp [FifoOp.pushed?, FifoOp.popped?]

theorem Fifo.length_le (h : Fifo n ops q) : q.length ≤ n := by
  induction h with
  | nil => exact Nat.zero_le n
  | snoc _ hop ih =>
    cases hop with
    | push x hlt =>
      rw [List.length_append, List.length_singleton]
      exact hlt
    | full _ => exact ih
    | pop x => exact (Nat.le_succ _).trans ih
    | peek x => exact ih
    | empty => exact ih

/-- What comes out is a prefix of what went in. -/
theorem Fifo.pops_prefix (h : Fifo n ops q) : pops ops <+: pushes ops :=
  ⟨q, h.pushes_eq.symm⟩

/-- Places of a ring, less than a round apart, are different. -/
theorem ring_inj {n p i j : ℕ} (hi : i < n) (hj : j < n) (hsame : (p + i) % n = (p + j) % n) :
    i = j :=
  (Nat.ModEq.add_left_cancel' p hsame).eq_of_lt_of_lt hi hj

end Machinery
