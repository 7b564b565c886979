import AxonVex.Core.ThreadSafeQueue
import AxonVex.Spec.SystemSpec

/-!
# Logging/Logger — `log`, the message queue and the processing thread

    log:             level?  allocate  write  enqueue …  count           any thread
    processingLoop:  while !shutdown_requested_ { tryDequeue …; process; deallocate }
                     while (true) { dequeue …, until nothing is there; process; deallocate }
    stop:            shutdown_requested_ ← true;  join;  running_ ← false

A message is written into a block of the pool, and the queue carries the pointer.  The pool hands
out a block that is in use by nobody, or none (`Core/MemoryPool`).  Each step in the queue is one of
`Machinery/TicketRing`.  The calls of `start` and `stop` follow one another; the outputs are
registered before the run, and what they do in `write` may call `log`.  Positions, numbers and the
statistics are counted without a bound.
-/

namespace AxonVex

open Machinery

/-- The number of a level. -/
def LogLevel.value : LogLevel → ℕ
  | debug => 0
  | info => 1
  | warning => 2
  | error => 3
  | critical => 4

/-- A message, without its time and its thread. -/
structure LogMessage where
  level : LogLevel
  category : String
  message : String
  file : String := ""
  line : ℤ := 0
  function : String := ""
  deriving DecidableEq, Repr

namespace Logging

/-- The id of a thread. -/
abbrev LogThread := ℕ

/-- A call of `log` that has got a block: which one of its thread it is. -/
structure LogCall where
  thread : LogThread
  number : ℕ
  message : LogMessage
  deriving DecidableEq, Repr

/-- A `LogMessage*`; which call it is of is looked at by nobody. -/
structure Pointer where
  block : ℕ
  call : LogCall
  deriving DecidableEq, Repr

/-- Where a thread stands in `log`. -/
inductive LogPc
  | out
  /-- about to allocate -/
  | allocate (message : LogMessage)
  /-- about to write the message into its block -/
  | initialize_ (p : Pointer)
  | enqueues
  /-- the queue was full -/
  | deallocate (p : Pointer)
  /-- about to count the message as dropped -/
  | drop
  /-- about to count it as logged -/
  | count (c : LogCall)
  deriving DecidableEq, Repr

/-- The loop until the shutdown, or the drain after it. -/
inductive Mode
  | turn
  | drain
  deriving DecidableEq, Repr

/-- Where the processing thread stands. -/
inductive Loop
  /-- there is none -/
  | absent
  /-- about to read `shutdown_requested_` -/
  | test
  /-- about to call `dequeue` -/
  | poll (m : Mode)
  | dequeues (m : Mode)
  /-- in `processMessage`: the output `i` comes next -/
  | writes (m : Mode) (p : Pointer) (i : ℕ)
  /-- about to deallocate the message -/
  | frees (m : Mode) (p : Pointer)
  | finished
  deriving DecidableEq, Repr

/-- Where the call of `start` or of `stop` stands. -/
inductive Control
  | idle
  /-- in `start`: `running_` is set, `shutdown_requested_` to be cleared -/
  | clears
  /-- about to create the thread -/
  | spawns
  /-- in `stop`: about to request the shutdown -/
  | requests
  | joins
  /-- about to clear `running_` -/
  | ends
  deriving DecidableEq, Repr

/-- What an output was given: the message as it stands in its block then. -/
structure Written where
  call : LogCall
  content : Option LogMessage
  deriving DecidableEq, Repr

end Logging

open Logging in
/-- `Logger`: its queue and its pool, and where the threads stand. -/
structure MessageLogger where
  /-- the number of outputs -/
  outputs : ℕ
  running_ : Bool := false
  shutdown_requested_ : Bool := false
  min_level_ : LogLevel := .info
  message_queue_ : TicketRing LogThread Pointer
  /-- the blocks of the pool that are in use -/
  allocated : ℕ → Bool := fun _ => false
  /-- what stands in a block -/
  memory : ℕ → Option LogMessage := fun _ => none
  logging : LogThread → LogPc := fun _ => .out
  /-- how many calls of a thread have got a block -/
  called : LogThread → ℕ := fun _ => 0
  messages_logged : ℕ := 0
  messages_dropped : ℕ := 0
  control : Control := .idle
  loop : Loop := .absent
  /-- the processing thread -/
  worker : LogThread := 0
  /-- what each output was given -/
  written : ℕ → List Written := fun _ => []

namespace Logging

/-- A step of a run. -/
inductive Label
  /-- a call of `log`: the level is looked at -/
  | log (t : LogThread) (message : LogMessage)
  /-- the pool hands out a block, or none -/
  | allocate (t : LogThread) (block : Option ℕ)
  /-- the next step in `log`, outside the pool and the queue -/
  | step (t : LogThread)
  /-- a step in the queue -/
  | queue (t : LogThread) (spurious : Bool)
  /-- the queue returns -/
  | returns (t : LogThread)
  | setLevel (level : LogLevel)
  | start
  | stop
  /-- the next step of `start` or of `stop` -/
  | control
  /-- `start` creates the processing thread -/
  | spawn (t : LogThread)
  /-- the next step of the processing thread -/
  | loop
  /-- `tryDequeue` gives up -/
  | timeout
  deriving DecidableEq, Repr

end Logging

namespace MessageLogger

open Logging

variable (s : MessageLogger) (t : LogThread)

/-- The thread is in no `log`, and not in the queue. -/
def quiet : Bool := decide (s.logging t = .out) && (s.message_queue_.pcs t).isOut

/-- The processing thread, in the `write` of an output. -/
def inWrite : Bool :=
  match s.loop with
  | .writes _ _ i => decide (i < s.outputs)
  | _ => false

/-- The thread may call `log`: the processing thread may in the `write` of an output. -/
def mayLog : Bool :=
  s.quiet t && (!decide (t = s.worker) || decide (s.loop = .absent) || s.inWrite)

/-- The place of a thread in `log` changes. -/
def goto (pc : LogPc) : MessageLogger := { s with logging := Function.update s.logging t pc }

/-- The pool hands out a block, or none. -/
def allocate (block : Option ℕ) : Option MessageLogger :=
  match s.logging t, block with
  | .allocate message, some b =>
    if s.allocated b then none
    else some { s.goto t (.initialize_ ⟨b, t, s.called t, message⟩) with
      allocated := Function.update s.allocated b true
      called := Function.update s.called t (s.called t + 1) }
  | .allocate _, none => some (s.goto t .drop)
  | _, _ => none

/-- The next step in `log`. -/
def logStep : Option MessageLogger :=
  match s.logging t with
  | .initialize_ p =>
    (s.message_queue_.step (.enqueue t p)).map fun q =>
      { s.goto t .enqueues with
        message_queue_ := q
        memory := Function.update s.memory p.block (some p.call.message) }
  | .deallocate p =>
    some { s.goto t .drop with allocated := Function.update s.allocated p.block false }
  | .drop => some { s.goto t .out with messages_dropped := s.messages_dropped + 1 }
  | .count _ => some { s.goto t .out with messages_logged := s.messages_logged + 1 }
  | _ => none

/-- What becomes of the processing thread when its dequeue returns. -/
def afterDequeue (m : Mode) : Option Pointer → Loop
  | some p => .writes m p 0
  | none => if m = .turn then .poll .turn else .finished

/-- The queue returns to the thread. -/
def queueReturns : Option MessageLogger :=
  match s.message_queue_.pcs t with
  | .enqueued p accepted =>
    (s.message_queue_.step (.leave t)).map fun q =>
      { s.goto t (if accepted then .count p.call else .deallocate p) with message_queue_ := q }
  | .dequeued item =>
    match s.loop with
    | .dequeues m =>
      (s.message_queue_.step (.leave t)).map fun q =>
        { s with message_queue_ := q, loop := afterDequeue m item }
    | _ => none
  | _ => none

/-- The next step of `start` or of `stop`. -/
def controlStep : Option MessageLogger :=
  match s.control with
  | .clears => some { s with shutdown_requested_ := false, control := .spawns }
  | .requests => some { s with shutdown_requested_ := true, control := .joins }
  | .joins =>
    match s.loop with
    | .absent => some { s with control := .ends }
    | .finished => some { s with loop := .absent, control := .ends }
    | _ => none
  | .ends => some { s with running_ := false, control := .idle }
  | _ => none

/-- The next step of the processing thread. -/
def loopStep : Option MessageLogger :=
  match s.loop with
  | .test => some { s with loop := .poll (if s.shutdown_requested_ then .drain else .turn) }
  | .poll m =>
    (s.message_queue_.step (.dequeue s.worker)).map fun q =>
      { s with message_queue_ := q, loop := .dequeues m }
  | .writes m p i =>
    if s.quiet s.worker then
      if i < s.outputs then
        some { s with
          written := Function.update s.written i
            (s.written i ++ [⟨p.call, s.memory p.block⟩])
          loop := .writes m p (i + 1) }
      else some { s with loop := .frees m p }
    else none
  | .frees m p =>
    some { s with
      allocated := Function.update s.allocated p.block false
      loop := if m = .turn then .test else .poll .drain }
  | _ => none

/-- The step with this label. -/
def step (s : MessageLogger) : Label → Option MessageLogger
  | .log t message =>
    if s.mayLog t then
      -- below `min_level_` the call returns at once
      some (if message.level.value < s.min_level_.value then s else s.goto t (.allocate message))
    else none
  | .allocate t block => s.allocate t block
  | .step t => s.logStep t
  | .queue t spurious =>
    (s.message_queue_.step (.step t spurious)).map fun q => { s with message_queue_ := q }
  | .returns t => s.queueReturns t
  | .setLevel level => some { s with min_level_ := level }
  | .start =>
    if s.control = .idle then
      some (if s.running_ then s else { s with running_ := true, control := .clears })
    else none
  | .stop =>
    if s.control = .idle then some (if s.running_ then { s with control := .requests } else s)
    else none
  | .control => s.controlStep
  | .spawn t =>
    if s.control = .spawns ∧ s.quiet t then
      some { s with loop := .test, worker := t, control := .idle }
    else none
  | .loop => s.loopStep
  | .timeout => if s.loop = .poll .turn then some { s with loop := .test } else none

end MessageLogger

namespace Logging

/-! ## Runs and what happens in them -/

/-- The run so far. -/
structure History where
  /-- how many calls of `log` have passed the level -/
  passed : ℕ := 0
  /-- the calls whose message was accepted, and which have returned -/
  accepted : List LogCall := []
  /-- those when `stop` was called last -/
  before : List LogCall := []
  /-- the messages that were processed -/
  processed : List Pointer := []
  /-- for each `stop` of the running logger, when it returned: the calls that had been accepted
  before it was called, and that were not written exactly once to every output -/
  left : List (List LogCall) := []

/-- The call was written exactly once to every output. -/
def writtenOnce (s : MessageLogger) (c : LogCall) : Bool :=
  (List.range s.outputs).all fun i => ((s.written i).map Written.call).count c == 1

/-- What a step adds to the run. -/
def record (s : MessageLogger) : Label → MessageLogger → History → History
  | .log _ message, _, h =>
    if message.level.value < s.min_level_.value then h else { h with passed := h.passed + 1 }
  | .step t, _, h => match s.logging t with
    | .count c => { h with accepted := h.accepted ++ [c] }
    | _ => h
  | .stop, _, h => if s.running_ then { h with before := h.accepted } else h
  | .control, s', h =>
    if s.control = .ends then
      { h with left := h.left ++ [h.before.filter fun c => !writtenOnce s' c] }
    else h
  | .loop, _, h => match s.loop with
    | .frees _ p => { h with processed := h.processed ++ [p] }
    | _ => h
  | _, _, h => h

/-- The logger with so many outputs and a queue of this capacity, from its construction on. -/
def logger (outputs : ℕ) (capacity : QueueCapacity) : Machine MessageLogger Label where
  init s := s = { outputs := outputs, message_queue_ := { capacity := capacity.capacity_ } }
  step := MessageLogger.step

/-- The logger, with the run so far. -/
def observed (outputs : ℕ) (capacity : QueueCapacity) : Machine (MessageLogger × History) Label :=
  (logger outputs capacity).withHistory {} record

end Logging

end AxonVex
