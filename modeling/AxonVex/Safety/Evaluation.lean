import AxonVex.Machinery.Machine
import AxonVex.Machinery.Table
import Mathlib.Data.Finset.Card
import Mathlib.Order.Bounds.Basic

/-!
# Safety/Evaluation — `evaluateAll` of `SafetyManager`

    SafetyLevel evaluateAll() {
      if (evaluatingThread_ == this_thread) return cycleWorst_;
      lock_guard cycleLock(evaluationMutex_);
      CycleOwner owner(*this);           // cycleWorst_ = NOMINAL, evaluatingThread_ = this_thread
      snapshot = policies_;
      for (entry : snapshot) { …; result = policy->evaluate(); …; dispatch(event); … }
      evaluationCycles++;
      return worst;                      // evaluatingThread_ = {}, unlock
    }

Policies, handlers and the emergency callback are foreign code, which may throw and may call the
manager back.  A thread is therefore in a stack of calls.  The one call that holds
`evaluationMutex_` is kept apart, as the *cycle*: a thread that runs it has the calls it makes from
inside above it, and below it those it was in before.  The mutexes of the policies, the handlers and
the statistics are never held while foreign code runs, and what they guard is one step.
-/

namespace AxonVex

open Machinery

/-! ## Levels, results, events -/

inductive SafetyLevel
  | nominal
  | advisory
  | caution
  | warning
  | critical
  | emergency
  deriving DecidableEq, Repr

namespace SafetyLevel

def toNat : SafetyLevel → ℕ
  | nominal => 0
  | advisory => 1
  | caution => 2
  | warning => 3
  | critical => 4
  | emergency => 5

theorem toNat_injective : Function.Injective toNat := by
  intro a b h
  cases a <;> cases b <;> first | rfl | exact absurd h (by decide)

instance : LinearOrder SafetyLevel := LinearOrder.lift' toNat toNat_injective

theorem nominal_le (l : SafetyLevel) : nominal ≤ l := Nat.zero_le _

theorem le_emergency (l : SafetyLevel) : l ≤ emergency := by
  cases l <;> decide

end SafetyLevel

structure PolicyResult where
  level : SafetyLevel := .nominal
  description : String := ""
  deriving DecidableEq, Repr

structure SafetyEvent where
  level : SafetyLevel
  source : String
  description : String
  deriving DecidableEq, Repr

structure SafetyManagerStatistics where
  evaluationCycles : ℕ := 0
  emergencyStopCount : ℕ := 0
  policyViolations : ℕ := 0
  worstLevelSeen : SafetyLevel := .nominal
  deriving DecidableEq, Repr

namespace Evaluation

/-- What `policy->evaluate()` does. -/
inductive Reply
  | returns (result : PolicyResult)
  /-- it throws a `std::exception` -/
  | throws (what : String)
  | throwsOther
  deriving DecidableEq, Repr

/-- What the cycle makes of it. -/
def Reply.result : Reply → PolicyResult
  | returns result => result
  | throws what => { level := .critical, description := "policy evaluate() threw: " ++ what }
  | throwsOther =>
    { level := .critical, description := "policy evaluate() threw a non-standard exception" }

/-- A policy under its name. -/
abbrev Entry := String × ℕ

/-- A policy that has been evaluated: what is left of the loop after it, and `worst`. -/
structure Found where
  entry : Entry
  result : PolicyResult
  rest : List Entry
  worst : SafetyLevel
  deriving DecidableEq, Repr

/-- The event of a violation. -/
def Found.event (f : Found) : SafetyEvent :=
  { level := f.result.level, source := f.entry.1, description := f.result.description }

def Found.reason (f : Found) : String := f.entry.1 ++ ": " ++ f.result.description

/-! ## The calls a thread is in -/

/-- `dispatch(event)`: it copies `handlers_`, and calls one after the other. -/
inductive Dispatch
  | copyHandlers (event : SafetyEvent)
  | notify (event : SafetyEvent) (todo : List ℕ)
  /-- a handler runs -/
  | handling (event : SafetyEvent) (todo : List ℕ)
  deriving DecidableEq, Repr

namespace Dispatch

/-- The next step of a dispatch; none when it has called them all. -/
def next (handlers : List ℕ) : Dispatch → Option Dispatch
  | copyHandlers event => some (notify event handlers)
  | notify event (_ :: todo) => some (handling event todo)
  | notify _ [] => none
  | handling .. => none

/-- The handler returns, or throws. -/
def handled : Dispatch → Option Dispatch
  | handling event todo => some (notify event todo)
  | _ => none

/-- A handler runs. -/
def calling : Dispatch → Bool
  | handling .. => true
  | _ => false

end Dispatch

/-- `triggerEmergencyStop(reason)`. -/
inductive TripPc
  | exchange
  | stats
  | dispatching (d : Dispatch)
  | lockCallback
  /-- the emergency callback runs -/
  | callback
  | unlockCallback
  deriving DecidableEq, Repr

/-- `resetEmergencyStop()`. -/
inductive ResetPc
  | load
  | store
  | dispatching (d : Dispatch)
  deriving DecidableEq, Repr

/-- `start()`. -/
inductive StartPc
  | exchange
  | store
  deriving DecidableEq, Repr

/-- A call, but for a cycle. -/
inductive Frame
  /-- `evaluateAll()`, about to look who runs the cycle -/
  | check
  /-- about to return `cycleWorst_` -/
  | readWorst
  /-- about to lock `evaluationMutex_` -/
  | lock
  | trip (reason : String) (pc : TripPc)
  | reset (pc : ResetPc)
  | start (pc : StartPc)
  deriving DecidableEq, Repr

/-- Foreign code runs in the call. -/
def Frame.calling : Frame → Bool
  | trip _ (.dispatching d) => d.calling
  | trip _ .callback => true
  | reset (.dispatching d) => d.calling
  | _ => false

/-- Where a cycle stands. -/
inductive CyclePc
  | clearWorst
  | setOwner
  | snapshot
  /-- at the head of the loop -/
  | next (rest : List Entry) (worst : SafetyLevel)
  /-- a policy runs -/
  | evaluating (entry : Entry) (rest : List Entry) (worst : SafetyLevel)
  /-- about to count a violation -/
  | count (f : Found)
  | dispatching (f : Found) (d : Dispatch)
  /-- about to test the result for `EMERGENCY` -/
  | escalate (f : Found)
  | clearOwner (worst : SafetyLevel)
  | unlock (worst : SafetyLevel)
  deriving DecidableEq, Repr

/-- Foreign code runs in the cycle. -/
def CyclePc.calling : CyclePc → Bool
  | evaluating .. => true
  | dispatching _ d => d.calling
  | _ => false

/-- The call that holds `evaluationMutex_`. -/
structure Cycle where
  thread : ℕ
  pc : CyclePc
  /-- the calls its thread was in before -/
  below : List Frame
  deriving DecidableEq, Repr

/-- What foreign code calls. -/
inductive Call
  | evaluateAll
  | triggerEmergencyStop (reason : String)
  | resetEmergencyStop
  | start
  | stop
  | addPolicy (name : String) (policy : ℕ)
  | removePolicy (name : String)
  | setEnabled (policy : ℕ) (enabled : Bool)
  | registerHandler (handler : ℕ)
  | unregisterHandler (handler : ℕ)
  | setEmergencyCallback (given : Bool)
  deriving DecidableEq, Repr

/-- What happens. -/
inductive Label
  | call (thread : ℕ) (c : Call)
  | step (thread : ℕ)
  /-- the cycle copies `policies_`, in the order of the hash map -/
  | snapshot (thread : ℕ) (order : List Entry)
  | reply (thread : ℕ) (r : Reply)
  /-- a handler returns, or throws -/
  | handled (thread : ℕ)
  /-- the emergency callback returns, or throws -/
  | hookReturns (thread : ℕ)
  deriving DecidableEq, Repr

end Evaluation

open Evaluation

/-- A `SafetyManager` and the threads that call it. -/
structure Evaluation where
  policies_ : Table String ℕ := ∅
  /-- what `isEnabled()` of a policy says -/
  enabled_ : ℕ → Bool := fun _ => true
  handlers_ : List ℕ := []
  running_ : Bool := false
  emergencyStopped_ : Bool := false
  /-- whether one is set -/
  emergencyCallback_ : Bool := false
  /-- the thread that holds it -/
  emergencyCallbackMutex_ : Option ℕ := none
  cycle : Option Cycle := none
  evaluatingThread_ : Option ℕ := none
  cycleWorst_ : SafetyLevel := .nominal
  stats_ : SafetyManagerStatistics := {}
  /-- the calls of a thread, the last one first; of the thread of the cycle, those made inside it -/
  threads : ℕ → List Frame := fun _ => []

namespace Evaluation

variable (s : Evaluation)

/-- The thread that holds `evaluationMutex_`. -/
def owner : Option ℕ := s.cycle.map Cycle.thread

/-- The cycle, where the thread is in no call made inside it. -/
def inCycle (t : ℕ) : Option Cycle :=
  if (s.threads t).isEmpty then s.cycle.filter fun c => c.thread == t else none

/-- Foreign code runs on the thread: its own, a policy, a handler or the callback. -/
def userCode (t : ℕ) : Bool :=
  match s.threads t with
  | frame :: _ => frame.calling
  | [] => (s.inCycle t).all fun c => c.pc.calling

def setFrames (t : ℕ) (frames : List Frame) : Evaluation :=
  { s with threads := Function.update s.threads t frames }

def goTo (c : Cycle) (pc : CyclePc) : Evaluation := { s with cycle := some { c with pc := pc } }

def perform (t : ℕ) : Call → Option Evaluation
  | .evaluateAll => some (s.setFrames t (.check :: s.threads t))
  | .triggerEmergencyStop reason => some (s.setFrames t (.trip reason .exchange :: s.threads t))
  | .resetEmergencyStop => some (s.setFrames t (.reset .load :: s.threads t))
  | .start => some (s.setFrames t (.start .exchange :: s.threads t))
  | .stop => some { s with running_ := false }
  | .addPolicy name policy => some { s with policies_ := s.policies_.insert name policy }
  | .removePolicy name => some { s with policies_ := s.policies_.erase name }
  | .setEnabled policy enabled =>
    some { s with enabled_ := Function.update s.enabled_ policy enabled }
  | .registerHandler handler => some { s with handlers_ := s.handlers_ ++ [handler] }
  | .unregisterHandler handler => some { s with handlers_ := s.handlers_.erase handler }
  | .setEmergencyCallback given =>
    if s.emergencyCallbackMutex_.isNone then some { s with emergencyCallback_ := given } else none

def tripStep (t : ℕ) (reason : String) (rest : List Frame) : TripPc → Option Evaluation
  | .exchange =>
    if s.emergencyStopped_ then some (s.setFrames t rest)
    else some ({ s with emergencyStopped_ := true }.setFrames t (.trip reason .stats :: rest))
  | .stats =>
    let stats := { s.stats_ with
      emergencyStopCount := s.stats_.emergencyStopCount + 1, worstLevelSeen := .emergency }
    let event := { level := .emergency, source := "SafetyManager", description := "E-STOP: " ++ reason }
    some ({ s with stats_ := stats }.setFrames t
      (.trip reason (.dispatching (.copyHandlers event)) :: rest))
  | .dispatching (.notify _ []) => some (s.setFrames t (.trip reason .lockCallback :: rest))
  | .dispatching d =>
    (d.next s.handlers_).map fun d => s.setFrames t (.trip reason (.dispatching d) :: rest)
  | .lockCallback =>
    if s.emergencyCallbackMutex_.isNone then
      some ({ s with emergencyCallbackMutex_ := some t }.setFrames t
        (.trip reason (if s.emergencyCallback_ then .callback else .unlockCallback) :: rest))
    else none
  | .callback => none
  | .unlockCallback => some ({ s with emergencyCallbackMutex_ := none }.setFrames t rest)

def resetStep (t : ℕ) (rest : List Frame) : ResetPc → Option Evaluation
  | .load => some (s.setFrames t (if s.emergencyStopped_ then .reset .store :: rest else rest))
  | .store =>
    let event := { level := .nominal, source := "SafetyManager", description := "E-STOP reset" }
    some ({ s with emergencyStopped_ := false }.setFrames t
      (.reset (.dispatching (.copyHandlers event)) :: rest))
  | .dispatching (.notify _ []) => some (s.setFrames t rest)
  | .dispatching d =>
    (d.next s.handlers_).map fun d => s.setFrames t (.reset (.dispatching d) :: rest)

def startStep (t : ℕ) (rest : List Frame) : StartPc → Option Evaluation
  | .exchange =>
    some ({ s with running_ := true }.setFrames t (if s.running_ then rest else .start .store :: rest))
  | .store => some ({ s with emergencyStopped_ := false }.setFrames t rest)

/-- A thread steps in the last of its calls. -/
def execute (t : ℕ) (rest : List Frame) : Frame → Option Evaluation
  | .check =>
    some (s.setFrames t ((if s.evaluatingThread_ = some t then .readWorst else .lock) :: rest))
  | .readWorst => some (s.setFrames t rest)
  | .lock =>
    if s.cycle.isNone then
      some ({ s with cycle := some { thread := t, pc := .clearWorst, below := rest } }.setFrames t [])
    else none
  | .trip reason pc => s.tripStep t reason rest pc
  | .reset pc => s.resetStep t rest pc
  | .start pc => s.startStep t rest pc

/-- `stats_` after a violation. -/
def counted (level : SafetyLevel) : SafetyManagerStatistics :=
  { s.stats_ with
    policyViolations := s.stats_.policyViolations + 1
    worstLevelSeen := if s.stats_.worstLevelSeen < level then level else s.stats_.worstLevelSeen }

/-- The cycle steps. -/
def cycleStep (c : Cycle) : Option Evaluation :=
  match c.pc with
  | .clearWorst => some ({ s with cycleWorst_ := .nominal }.goTo c .setOwner)
  | .setOwner => some ({ s with evaluatingThread_ := some c.thread }.goTo c .snapshot)
  | .snapshot => none
  | .next [] worst =>
    let stats := { s.stats_ with evaluationCycles := s.stats_.evaluationCycles + 1 }
    some ({ s with stats_ := stats }.goTo c (.clearOwner worst))
  | .next (entry :: rest) worst =>
    some (s.goTo c (if s.enabled_ entry.2 then .evaluating entry rest worst else .next rest worst))
  | .evaluating .. => none
  | .count f =>
    some ({ s with stats_ := s.counted f.result.level }.goTo c (.dispatching f (.copyHandlers f.event)))
  | .dispatching f (.notify _ []) => some (s.goTo c (.escalate f))
  | .dispatching f d => (d.next s.handlers_).map fun d => s.goTo c (.dispatching f d)
  | .escalate f =>
    let s := s.goTo c (.next f.rest f.worst)
    some (if f.result.level = .emergency then
      s.setFrames c.thread [.trip f.reason .exchange] else s)
  | .clearOwner worst => some ({ s with evaluatingThread_ := none }.goTo c (.unlock worst))
  | .unlock _ => some ({ s with cycle := none }.setFrames c.thread c.below)

/-- The policies under their names. -/
def entries : List Entry := s.policies_.entries.map fun e => (e.1, e.2)

def takeSnapshot (order : List Entry) (c : Cycle) : Option Evaluation :=
  if c.pc = .snapshot ∧ order.Perm s.entries then some (s.goTo c (.next order .nominal)) else none

/-- The policy has returned, or thrown. -/
def takeReply (r : Reply) (c : Cycle) : Option Evaluation :=
  match c.pc with
  | .evaluating entry rest worst =>
    let result := r.result
    let f : Found :=
      { entry, result, rest, worst := if worst < result.level then result.level else worst }
    let s := if worst < result.level then { s with cycleWorst_ := result.level } else s
    some (s.goTo c (if .nominal < result.level then .count f else .escalate f))
  | _ => none

def takeHandled (c : Cycle) : Option Evaluation :=
  match c.pc with
  | .dispatching f d => d.handled.map fun d => s.goTo c (.dispatching f d)
  | _ => none

/-- The handler that a call runs returns. -/
def Frame.handled : Frame → Option Frame
  | trip reason (.dispatching d) => d.handled.map fun d => trip reason (.dispatching d)
  | reset (.dispatching d) => d.handled.map fun d => reset (.dispatching d)
  | _ => none

def step : Label → Option Evaluation
  | .call t c => if s.userCode t then s.perform t c else none
  | .step t => match s.threads t with
    | frame :: rest => s.execute t rest frame
    | [] => (s.inCycle t).bind s.cycleStep
  | .snapshot t order => (s.inCycle t).bind (s.takeSnapshot order)
  | .reply t r => (s.inCycle t).bind (s.takeReply r)
  | .handled t => match s.threads t with
    | frame :: rest => frame.handled.map fun frame => s.setFrames t (frame :: rest)
    | [] => (s.inCycle t).bind s.takeHandled
  | .hookReturns t => match s.threads t with
    | .trip reason .callback :: rest => some (s.setFrames t (.trip reason .unlockCallback :: rest))
    | _ => none

def machine : Machine Evaluation Label where
  init s := s = {}
  step := step

/-- All calls have returned. -/
def Returned : Prop := s.cycle = none ∧ ∀ t, s.threads t = []

end Evaluation

end AxonVex
