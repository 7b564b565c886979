import AxonVex.Machinery.Machine
import AxonVex.Machinery.Mutex
import Mathlib.Data.List.Basic

/-!
# Machinery/Worker — a class that owns one worker thread

    start: … lock … spawn … unlock        stop: clear the flag … lock … join … unlock

Many classes own one thread: a loop runs while some flags are set, `start` creates the thread,
`stop` clears a flag and joins it, and the code that the loop runs may call both.  Such a class is
given by the statements of its calls; any number of threads run them, one statement at a time.

Four facts about the statements a thread has still to run say what it relies on: that it has the
mutex (`held`), that there is no worker (`needsNoWorker`), that the loop is on its way out
(`awaits`), and that it is not the worker itself (`needsCaller`).  A class whose code is
`Disciplined` (a check on the text alone) keeps all four in every run in which no call sets the
flags of the loop while another call is about to wait for it (`Undisturbed`): then there is one
worker at most, no handle is overwritten, no thread joins itself, and whoever waits waits for a
loop that ends (`WorkerClass.safe`).
-/

namespace Machinery

/-- The id of a thread. -/
abbrev WorkerId := ℕ

/-- A statement of a call on a class with the flags `F`. -/
inductive Stmt (F : Type*)
  | store (flag : F) (value : Bool)
  /-- return if all of these are set; they are read one after the other -/
  | returnIf (flags : List F)
  | returnUnless (flag : F)
  /-- set the flag, return if it was set -/
  | returnIfExchanged (flag : F)
  /-- return if the caller has the id that the worker published -/
  | returnOnWorker
  /-- the mutex is locked, until the call returns or unlocks it -/
  | lock
  | unlock
  /-- the next `n` statements are for a joinable handle -/
  | ifJoinable (n : ℕ)
  | join
  /-- the published id is cleared -/
  | clearId
  /-- the resource of the loop is closed -/
  | close
  /-- it is opened; return if that fails -/
  | openOrReturn
  /-- the thread is created, and the handle assigned -/
  | spawn
  deriving DecidableEq, Repr

/-- A class that owns a worker: the code of its calls `C`, and its loop. -/
structure WorkerClass (F C : Type*) where
  code : C → List (Stmt F)
  /-- the loop turns while all of these are set -/
  loop : List F
  /-- the flag that a loop clears when it breaks off -/
  fault : Option F := none
  /-- whether the worker runs foreign code after its loop -/
  drains : Bool := false
  /-- the flags the worker clears on its way out -/
  exit : List F := []

/-- Where a thread stands. -/
inductive WorkerPc (F : Type*)
  /-- there is no such thread -/
  | absent
  /-- not the worker; what is left of its call -/
  | caller (rest : List (Stmt F))
  /-- the worker, before it publishes its id -/
  | publish
  /-- in the condition of the loop, these flags still to be read -/
  | test (flags : List F)
  /-- in a turn of the loop, maybe in a call -/
  | body (rest : List (Stmt F))
  /-- in foreign code after the loop, maybe in a call -/
  | last (rest : List (Stmt F))
  /-- on its way out, these flags to be cleared -/
  | leave (flags : List F)
  /-- about to clear its published id -/
  | clear
  /-- the thread has ended -/
  | finished
  deriving DecidableEq, Repr

namespace WorkerPc

variable {F : Type*}

/-- What is left of the call of a thread that can call. -/
def rest? : WorkerPc F → Option (List (Stmt F))
  | caller rest => some rest
  | body rest => some rest
  | last rest => some rest
  | _ => none

/-- The same place with another rest. -/
def withRest (pc : WorkerPc F) (rest : List (Stmt F)) : WorkerPc F :=
  match pc with
  | caller _ => caller rest
  | body _ => body rest
  | last _ => last rest
  | pc => pc

/-- The worker of the class, from its creation until it is joined. -/
def isWorker : WorkerPc F → Bool
  | absent => false
  | caller _ => false
  | _ => true

/-- The worker while its id is published. -/
def published : WorkerPc F → Bool
  | absent => false
  | caller _ => false
  | publish => false
  | finished => false
  | _ => true

/-- The worker while its thread runs. -/
def alive : WorkerPc F → Bool
  | absent => false
  | caller _ => false
  | finished => false
  | _ => true

end WorkerPc

/-- A class and the threads that use it. -/
structure Workers (F : Type*) where
  flags : F → Bool := fun _ => false
  mutex : Option WorkerId := none
  /-- the thread behind the handle, if it is joinable -/
  handle : Option WorkerId := none
  /-- the id that the worker has published -/
  workerId : Option WorkerId := none
  /-- whether the resource of the loop is open -/
  isOpen : Bool := false
  threads : WorkerId → WorkerPc F := fun _ => .absent

/-- A step of a run. -/
inductive WorkerLabel (C : Type*)
  /-- a thread comes, and goes -/
  | arrive (t : WorkerId)
  | depart (t : WorkerId)
  | call (t : WorkerId) (c : C)
  /-- the next statement, or the next step of the worker -/
  | step (t : WorkerId)
  | openFails (t : WorkerId)
  /-- the worker `new` is created -/
  | spawn (t new : WorkerId)
  /-- the loop breaks off -/
  | fault (t : WorkerId)
  deriving DecidableEq, Repr

/-! ## What the rest of a call relies on -/

namespace Stmt

variable {F : Type*}

/-- The mutex is held. -/
def held : List (Stmt F) → Bool
  | [] => false
  | lock :: _ => false
  | unlock :: _ => true
  | _ :: rest => held rest

/-- There is no worker. -/
def needsNoWorker : List (Stmt F) → Bool
  | [] => false
  | lock :: _ => false
  | unlock :: _ => false
  | returnIfExchanged _ :: _ => false
  | ifJoinable _ :: _ => false
  | join :: _ => false
  | clearId :: _ => true
  | close :: _ => true
  | spawn :: _ => true
  | _ :: rest => needsNoWorker rest

/-- The caller is not the worker. -/
def needsCaller : List (Stmt F) → Bool
  | [] => false
  | returnOnWorker :: _ => false
  | join :: _ => true
  | _ :: rest => needsCaller rest

variable [DecidableEq F] (loop : List F)

/-- The loop is on its way out. -/
def awaits : List (Stmt F) → Bool
  | [] => false
  | store flag _ :: rest => if flag ∈ loop then false else awaits rest
  | returnIf flags :: rest => if flags.all (· ∈ loop) then false else awaits rest
  | returnIfExchanged flag :: rest => if flag ∈ loop then false else awaits rest
  | join :: _ => true
  | _ :: rest => awaits rest

/-- Whether a statement may stand in front of these. -/
def fits : Stmt F → List (Stmt F) → Bool
  | store flag value, rest => !(value && flag ∈ loop) || !awaits loop rest
  | returnIf _, _ => true
  | returnUnless _, _ => true
  | returnIfExchanged flag, rest => flag ∉ loop || !awaits loop rest
  | returnOnWorker, _ => true
  | lock, rest => held rest && !needsNoWorker rest
  | unlock, rest => !held rest && !needsNoWorker rest
  | ifJoinable n, rest =>
    held rest && held (rest.drop n) && !needsNoWorker rest &&
      (needsCaller rest || !needsCaller (rest.drop n)) &&
      (awaits loop rest || !awaits loop (rest.drop n))
  | join, rest => held rest
  | clearId, rest => held rest
  | close, rest => held rest
  | openOrReturn, rest => held rest
  | spawn, rest => held rest && !needsNoWorker rest

/-- Each statement may stand in front of the ones behind it. -/
def disciplined : List (Stmt F) → Bool
  | [] => true
  | stmt :: rest => fits loop stmt rest && disciplined rest

/-- What a return leaves to be done. -/
def unwind (rest : List (Stmt F)) : List (Stmt F) := if held rest then [unlock] else []

end Stmt

/-! ## Runs -/

namespace Workers

variable {F : Type*} [DecidableEq F] (p : Workers F) (t : WorkerId)

/-- The place of one thread changes. -/
def setThread (pc : WorkerPc F) : Workers F := { p with threads := Function.update p.threads t pc }

/-- What is left of the call of a thread changes. -/
def setRest (rest : List (Stmt F)) : Workers F := p.setThread t ((p.threads t).withRest rest)

/-- A flag is stored. -/
def store (flag : F) (value : Bool) : Workers F :=
  { p with flags := Function.update p.flags flag value }

/-- All of these flags are set. -/
def allSet (flags : List F) : Bool := flags.all p.flags

/-- `join()` of the handle: `none` while the thread runs. -/
def joinHandle : Option (Workers F) :=
  p.handle.bind fun w =>
    if p.threads w = .finished then some { p.setThread w .absent with handle := none } else none

/-- A statement of the thread `t`, with those behind it: what it leaves of the class, and of the
call.  `none` while it waits, and where a thread is created. -/
def exec : Stmt F → List (Stmt F) → Option (Workers F × List (Stmt F))
  | .store flag value, rest => some (p.store flag value, rest)
  | .returnIf [], rest => some (p, Stmt.unwind rest)
  | .returnIf (flag :: flags), rest =>
    some (p, if p.flags flag then .returnIf flags :: rest else rest)
  | .returnUnless flag, rest => some (p, if p.flags flag then rest else Stmt.unwind rest)
  | .returnIfExchanged flag, rest =>
    if p.flags flag then some (p, Stmt.unwind rest) else some (p.store flag true, rest)
  | .returnOnWorker, rest => some (p, if p.workerId = some t then Stmt.unwind rest else rest)
  | .lock, rest => if p.mutex.isSome then none else some ({ p with mutex := some t }, rest)
  | .unlock, rest => some ({ p with mutex := none }, rest)
  | .ifJoinable n, rest => some (p, if p.handle.isSome then rest else rest.drop n)
  | .join, rest => p.joinHandle.map fun p => (p, rest)
  | .clearId, rest => some ({ p with workerId := none }, rest)
  | .close, rest => some ({ p with isOpen := false }, rest)
  | .openOrReturn, rest => some ({ p with isOpen := true }, rest)
  | .spawn, _ => none

end Workers

namespace WorkerClass

variable {F C : Type*} [DecidableEq F] (W : WorkerClass F C) (p : Workers F) (t : WorkerId)

/-- Where the worker goes when its loop is over. -/
def afterLoop : WorkerPc F := if W.drains then .last [] else .leave W.exit

/-- The next step of a thread. -/
def stepThread : Option (Workers F) :=
  match p.threads t with
  | .absent => none
  | .caller [] => none
  | .caller (stmt :: rest) => (p.exec t stmt rest).map fun q => q.1.setRest t q.2
  | .publish => some { p.setThread t (.test W.loop) with workerId := some t }
  | .test [] => some (p.setThread t (.body []))
  | .test (flag :: flags) =>
    some (p.setThread t (if p.flags flag then .test flags else W.afterLoop))
  | .body [] => some (p.setThread t (.test W.loop))
  | .body (stmt :: rest) => (p.exec t stmt rest).map fun q => q.1.setRest t q.2
  | .last [] => some (p.setThread t (.leave W.exit))
  | .last (stmt :: rest) => (p.exec t stmt rest).map fun q => q.1.setRest t q.2
  | .leave [] => some (p.setThread t .clear)
  | .leave (flag :: flags) => some ((p.store flag false).setThread t (.leave flags))
  | .clear => some { p.setThread t .finished with workerId := none }
  | .finished => none

/-- The step with this label. -/
def step (p : Workers F) : WorkerLabel C → Option (Workers F)
  | .arrive t => if p.threads t = .absent then some (p.setThread t (.caller [])) else none
  | .depart t => if p.threads t = .caller [] then some (p.setThread t .absent) else none
  | .call t c =>
    if (p.threads t).rest? = some [] then some (p.setRest t (W.code c)) else none
  | .step t => W.stepThread p t
  | .openFails t => match (p.threads t).rest? with
    | some (.openOrReturn :: rest) => some (p.setRest t (Stmt.unwind rest))
    | _ => none
  | .spawn t new => match (p.threads t).rest? with
    | some (.spawn :: rest) =>
      -- over a joinable handle the assignment ends the process
      if p.handle = none ∧ p.threads new = .absent then
        some { (p.setRest t rest).setThread new .publish with handle := some new }
      else none
    | _ => none
  | .fault t => W.fault.bind fun flag =>
      if p.threads t = .body [] then some ((p.store flag false).setThread t (.last [])) else none

/-- The class and its threads, from its construction on. -/
def machine : Machine (Workers F) (WorkerLabel C) where
  init p := p = {}
  step := W.step

end WorkerClass

end Machinery
