import Mathlib.Order.Defs.LinearOrder
import Mathlib.Order.Lattice

/-!
# Core/Lifecycle — the state enumeration, the transition table, the shutdown latch

`LifecycleController` owns the state of the system and the shutdown latch.  Its table decides which
transitions are taken; two facts about the table carry most of what follows:

* `transition_fatalError` — the transition to `FATAL_ERROR` is never refused.
* `shutdownRequested_of_stopping_le` — from `STOPPING` on, in the order of the enumeration, the
  loops of the workers see `shutdownRequested()`, whatever the latch says.
-/

namespace AxonVex

/-! ## The states -/

/-- `SystemState`, in the order of the enumeration. -/
inductive SystemState
  | uninitialized | initializing | initialized | starting | running | pausing | paused | resuming
  | stopping | stopped | error | fatalError
  deriving DecidableEq, Repr

namespace SystemState

/-- The underlying value of the enumerator. -/
def value : SystemState → ℕ
  | uninitialized => 0
  | initializing => 1
  | initialized => 2
  | starting => 3
  | running => 4
  | pausing => 5
  | paused => 6
  | resuming => 7
  | stopping => 8
  | stopped => 9
  | error => 10
  | fatalError => 11

theorem value_injective : Function.Injective value := by
  intro s t h
  cases s <;> cases t <;> first | rfl | exact absurd h (by decide)

/-- Enumerators compare by their values. -/
instance : LinearOrder SystemState := LinearOrder.lift' value value_injective

/-- `to_string(SystemState)`. -/
def toString : SystemState → String
  | uninitialized => "UNINITIALIZED"
  | initializing => "INITIALIZING"
  | initialized => "INITIALIZED"
  | starting => "STARTING"
  | running => "RUNNING"
  | pausing => "PAUSING"
  | paused => "PAUSED"
  | resuming => "RESUMING"
  | stopping => "STOPPING"
  | stopped => "STOPPED"
  | error => "ERROR"
  | fatalError => "FATAL_ERROR"

end SystemState

/-! ## The transition table -/

open SystemState in
/-- The table of `LifecycleController::transition`: `FATAL_ERROR` is legal from every state, and
`ERROR` leads anywhere. -/
def validTransition (currentState newState : SystemState) : Bool :=
  if newState = fatalError then true
  else match currentState with
    | uninitialized => newState = initializing
    | initializing => newState = initialized || newState = error
    | initialized => newState = starting
    | starting => newState = running || newState = error
    | running => newState = pausing || newState = stopping || newState = error
    | pausing => newState = paused || newState = error
    | paused => newState = resuming || newState = stopping || newState = error
    | resuming => newState = running || newState = error
    | stopping => newState = stopped
    | stopped => newState = starting || newState = uninitialized
    | error => true
    | fatalError => newState = uninitialized

/-- `LifecycleController`: the state and the shutdown latch. -/
structure LifecycleController where
  currentState : SystemState := .uninitialized
  isShuttingDown : Bool := false
  deriving DecidableEq, Repr

namespace LifecycleController

variable (c : LifecycleController) (newState : SystemState)

/-- `LifecycleController::transition`, without its hooks: the stored state, and whether the table
has the transition. -/
def transition : LifecycleController × Bool :=
  if validTransition c.currentState newState then ({ c with currentState := newState }, true)
  else (c, false)

/-- `clearShutdownLatch()`. -/
def clearShutdownLatch : LifecycleController := { c with isShuttingDown := false }

/-- `requestShutdown()`. -/
def requestShutdown : LifecycleController := { c with isShuttingDown := true }

/-- `shutdownRequested()`: the latch, or a state from `STOPPING` on. -/
def shutdownRequested : Bool := c.isShuttingDown || decide (SystemState.stopping ≤ c.currentState)

@[simp] theorem transition_snd :
    (c.transition newState).2 = validTransition c.currentState newState := by
  unfold transition
  split <;> simp_all

@[simp] theorem transition_isShuttingDown :
    (c.transition newState).1.isShuttingDown = c.isShuttingDown := by
  unfold transition
  split <;> rfl

variable {c newState}

/-- A transition of the table stores the new state. -/
theorem transition_of_valid (h : validTransition c.currentState newState = true) :
    c.transition newState = ({ c with currentState := newState }, true) := if_pos h

/-- A refused transition stores nothing. -/
theorem transition_of_not_valid (h : validTransition c.currentState newState = false) :
    c.transition newState = (c, false) := if_neg (by simp [h])

/-- **`FATAL_ERROR` is never refused.** -/
@[simp] theorem transition_fatalError :
    c.transition .fatalError = ({ c with currentState := .fatalError }, true) := rfl

/-- **From `STOPPING` on the workers see the shutdown**, even with the latch clear. -/
theorem shutdownRequested_of_stopping_le (h : SystemState.stopping ≤ c.currentState) :
    c.shutdownRequested = true := by
  simp [shutdownRequested, h]

@[simp] theorem shutdownRequested_requestShutdown : c.requestShutdown.shutdownRequested = true := by
  simp [shutdownRequested, requestShutdown]

@[simp] theorem requestShutdown_currentState : c.requestShutdown.currentState = c.currentState :=
  rfl

@[simp] theorem clearShutdownLatch_currentState :
    c.clearShutdownLatch.currentState = c.currentState := rfl

end LifecycleController

end AxonVex
