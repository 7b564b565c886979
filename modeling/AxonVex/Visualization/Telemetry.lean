import AxonVex.Core.ThreadSafeQueue
import AxonVex.Visualization.BusLifecycle

/-!
# Visualization/Telemetry — `publish`, the queue and the egress thread

    publish:  running_?  enqueue …                                        any thread
    run:      while running_ { tryDequeue …; dispatch }                    the egress thread
              for (;;) { dequeue …, until nothing is there; dispatch }

The bus of `Visualization/BusLifecycle` with its queue: `publish` looks at `running_` once, before it
enqueues; the egress thread takes the records out, gives each frame the next number of its channel
and hands it to the subscribers, whose callbacks may call `publish`, `start` and `stop`.  Each step
in the queue is one of `Machinery/TicketRing`.  Positions and numbers are counted without a bound.
-/

namespace AxonVex

open Machinery

namespace TelemetryBus

structure Record where
  channel : String
  timestampNs : ℕ
  payload : List UInt8
  deriving DecidableEq, Repr

/-- A record in the queue; which `publish` of which thread it is of is looked at by nobody. -/
structure Publication extends Record where
  publisher : WorkerId
  number : ℕ
  deriving DecidableEq, Repr

/-- A frame, without its encoding. -/
structure TelemetryFrame extends Record where
  seq : ℕ
  deriving DecidableEq, Repr

/-- What the egress thread is at. -/
inductive Egress
  /-- about to dequeue -/
  | idle
  | dequeues
  /-- it has found nothing -/
  | empty
  /-- about to number the frame -/
  | dispatch (p : Publication)
  /-- in the callbacks of the subscribers -/
  | callbacks
  /-- they have returned -/
  | done
  deriving DecidableEq, Repr

end TelemetryBus

open TelemetryBus in
/-- The bus, its queue, and where the threads stand. -/
structure Telemetry where
  life : Workers TelemetryBus.Flag := {}
  queue : TicketRing WorkerId Publication
  /-- what a thread is about to look at `running_` for -/
  publishing : WorkerId → Option Publication := fun _ => none
  egress : Egress := .idle
  nextSeq_ : String → ℕ := fun _ => 0
  /-- how often a thread has called `publish` -/
  published : WorkerId → ℕ := fun _ => 0

namespace TelemetryBus

/-- A step of a run. -/
inductive Label
  /-- a step of `start`, of `stop`, or of the loop of the egress thread -/
  | life (a : WorkerLabel Call)
  | publish (t : WorkerId) (record : Record)
  /-- `publish` reads `running_` -/
  | test (t : WorkerId)
  /-- a step in the queue -/
  | queue (t : WorkerId) (spurious : Bool)
  /-- the queue returns, and `publish` with it -/
  | returns (t : WorkerId)
  /-- the egress thread calls `dequeue` -/
  | poll (t : WorkerId)
  /-- it numbers a frame, and takes the subscribers -/
  | dispatch (t : WorkerId)
  | callbacksReturn (t : WorkerId)
  deriving DecidableEq, Repr

end TelemetryBus

namespace Telemetry

open TelemetryBus

variable (s : Telemetry) (t : WorkerId)

/-- The thread is in no `publish`, and not in the queue. -/
def quiet : Bool := (s.publishing t).isNone && (s.queue.pcs t).isOut

/-- The thread may call the bus: the egress thread may in a callback. -/
def free : Bool :=
  s.quiet t && decide ((s.life.threads t).rest? = some []) &&
    (!(s.life.threads t).isWorker || decide (s.egress = .callbacks))

/-- The egress thread, in a turn of its loop or in the last drain, and in no call. -/
def inTurn : Bool :=
  decide (s.life.threads t = .body []) || decide (s.life.threads t = .last [])

/-- Whether the thread may go on in `start`, in `stop`, or in its loop: a turn of the loop is over
when a frame has been dispatched, or nothing was found; the drain is over when nothing was. -/
def mayLive : WorkerLabel TelemetryBus.Call → Bool
  | .step t =>
    (!decide (s.life.threads t = .body []) || decide (s.egress = .empty ∨ s.egress = .done)) &&
      (!decide (s.life.threads t = .last []) || decide (s.egress = .empty))
  | .call t _ => s.free t
  | .depart t => s.quiet t
  | _ => true

/-- A turn of the loop, and the drain, leave nothing behind. -/
def egressAfter : WorkerLabel TelemetryBus.Call → Egress
  | .step t => if s.inTurn t then .idle else s.egress
  | _ => s.egress

/-- `tryDequeue` polls until something is found, or gives up; the drain goes on after a frame. -/
def mayPoll : Bool :=
  (decide (s.life.threads t = .body []) && decide (s.egress = .idle ∨ s.egress = .empty)) ||
    (decide (s.life.threads t = .last []) && decide (s.egress = .idle ∨ s.egress = .done))

/-- The frame of a record. -/
def frame (p : Publication) : TelemetryFrame := { p.toRecord with seq := s.nextSeq_ p.channel }

/-- The queue returns to the thread. -/
def queueReturns : Option Telemetry :=
  match s.queue.pcs t with
  | .enqueued _ _ => (s.queue.step (.leave t)).map fun q => { s with queue := q }
  | .dequeued none => (s.queue.step (.leave t)).map fun q => { s with queue := q, egress := .empty }
  | .dequeued (some p) =>
    (s.queue.step (.leave t)).map fun q => { s with queue := q, egress := .dispatch p }
  | _ => none

/-- `publish` reads `running_`. -/
def test : Option Telemetry :=
  match s.publishing t with
  | none => none
  | some p =>
    if s.life.flags .running then
      (s.queue.step (.enqueue t p)).map fun q =>
        { s with queue := q, publishing := Function.update s.publishing t none }
    else some { s with publishing := Function.update s.publishing t none }

/-- The egress thread numbers a frame. -/
def dispatch : Option Telemetry :=
  match s.egress with
  | .dispatch p =>
    if s.inTurn t then
      some { s with
        nextSeq_ := Function.update s.nextSeq_ p.channel (s.nextSeq_ p.channel + 1)
        egress := .callbacks }
    else none
  | _ => none

/-- The step with this label. -/
def step (s : Telemetry) : Label → Option Telemetry
  | .life a =>
    if s.mayLive a then
      (bus.step s.life a).map fun life => { s with life := life, egress := s.egressAfter a }
    else none
  | .publish t record =>
    if s.free t then
      some { s with
        publishing := Function.update s.publishing t (some ⟨record, t, s.published t⟩)
        published := Function.update s.published t (s.published t + 1) }
    else none
  | .test t => s.test t
  | .queue t spurious => (s.queue.step (.step t spurious)).map fun q => { s with queue := q }
  | .returns t => s.queueReturns t
  | .poll t =>
    if s.mayPoll t then
      (s.queue.step (.dequeue t)).map fun q => { s with queue := q, egress := .dequeues }
    else none
  | .dispatch t => s.dispatch t
  | .callbacksReturn t =>
    if s.inTurn t && s.quiet t && decide (s.egress = .callbacks) then
      some { s with egress := .done }
    else none

end Telemetry

namespace TelemetryBus

/-! ## Runs and what happens in them -/

/-- The run so far. -/
structure History where
  /-- the records whose `publish` has returned true -/
  accepted : List Publication := []
  /-- the records that were dispatched, and their frames -/
  dispatched : List (Publication × TelemetryFrame) := []
  /-- the records whose subscribers have all returned -/
  delivered : List Publication := []
  /-- how many `publish` are in flight -/
  inFlight : ℕ := 0
  /-- the last call of `start` or `stop` of a thread -/
  calling : WorkerId → Option Call := fun _ => none
  /-- whether no `publish` was in flight at that call -/
  undisturbed : WorkerId → Bool := fun _ => false
  /-- for each `stop` from outside that was called with no `publish` in flight, when it returned:
  the accepted records that had not been delivered -/
  left : List (List Publication) := []

/-- A `stop` from outside that was called with no `publish` in flight, of the thread `t`, returns. -/
def stopReturns (t : WorkerId) (s : Telemetry) (h : History) : Bool :=
  decide (s.life.threads t = .caller []) && decide (h.calling t = some .stop) && h.undisturbed t

/-- What a step adds to the run. -/
def record (s : Telemetry) : Label → Telemetry → History → History
  | .life (.call t c), _, h =>
    { h with
      calling := Function.update h.calling t (some c)
      undisturbed := Function.update h.undisturbed t (h.inFlight == 0) }
  | .life (.step t), s', h =>
    if stopReturns t s' h then
      { h with left := h.left ++ [h.accepted.filter fun p => decide (p ∉ h.delivered)] }
    else h
  | .publish _ _, _, h => { h with inFlight := h.inFlight + 1 }
  | .test _, _, h => if s.life.flags .running then h else { h with inFlight := h.inFlight - 1 }
  | .returns t, _, h => match s.queue.pcs t with
    | .enqueued p accepted =>
      { h with
        inFlight := h.inFlight - 1
        accepted := if accepted then h.accepted ++ [p] else h.accepted }
    | _ => h
  | .dispatch _, _, h => match s.egress with
    | .dispatch p => { h with dispatched := h.dispatched ++ [(p, s.frame p)] }
    | _ => h
  | .callbacksReturn _, _, h =>
    { h with delivered := h.delivered ++ (h.dispatched.getLast?.map Prod.fst).toList }
  | _, _, h => h

/-- The bus with a queue of this capacity, from its construction on. -/
def telemetry (capacity : QueueCapacity) : Machine Telemetry Label where
  init s := s = { queue := { capacity := capacity.capacity_ } }
  step := Telemetry.step

/-- The bus, with the run so far. -/
def observed (capacity : QueueCapacity) : Machine (Telemetry × History) Label :=
  (telemetry capacity).withHistory {} record

end TelemetryBus

end AxonVex
