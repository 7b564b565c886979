import AxonVex.Core.EventBus
import AxonVex.Machinery.Holdings
import AxonVex.Machinery.Machine

/-!
# Concurrent/EventTraffic — an event's way from the pool and back

    publish:   components?  latch?  allocate;  enqueue, or deallocate;
    loop:      while running: dequeue;  callbacks;  deallocate;
    drain:     while there is one: dequeue;  deallocate;
    reinitialize:  a new pool;  a new queue;

Any thread does any of these at any time, and sets and clears the latch: `stop()` and
`emergencyShutdown()` are an order of them, `initialize()` is another.  A pointer knows which pool it
came from.

`publish` looks at the latch before it allocates, and nothing keeps a drain from being over before it
enqueues.  What keeps the account (`eventTraffic_balanced_iff`) is that pool and queue are replaced
while no event is out.
-/

namespace AxonVex

open Machinery

/-- `SystemEvent*`: a block of a pool. -/
structure EventPtr where
  pool : ℕ
  block : ℕ
  deriving DecidableEq, Repr

namespace EventTraffic

/-- Where `dispatchLoop` stands. -/
inductive LoopPc
  | polling
  /-- the callbacks run -/
  | dispatching (event : EventPtr)
  deriving DecidableEq, Repr

/-- `publish(event)`: what it is about to do. -/
inductive PublishPc
  | components
  | latch
  | allocate
  | enqueue (ptr : EventPtr)
  | giveBack (ptr : EventPtr)
  deriving DecidableEq, Repr

/-- `drain()`. -/
inductive DrainPc
  | dequeue
  | giveBack (ptr : EventPtr)
  deriving DecidableEq, Repr

/-- A call. -/
inductive Call
  | publish (event : SystemEvent) (pc : PublishPc)
  | drain (pc : DrainPc)
  | requestStop
  /-- `join()`; of `stopAndJoin()`, which drains then -/
  | join (drains : Bool)
  /-- `stopAndJoin()`, about to clear the flag -/
  | stopAndJoin
  | start (spawned : Bool)
  /-- `reinitialize`, about to replace the pool, -/
  | newPool (poolSize queueSize : UInt64)
  /-- and the queue -/
  | newQueue (queueSize : UInt64)
  deriving DecidableEq, Repr

/-- The event in a call's hand. -/
def Call.ptr? : Call → Option EventPtr
  | publish _ (.enqueue ptr) => some ptr
  | publish _ (.giveBack ptr) => some ptr
  | drain (.giveBack ptr) => some ptr
  | _ => none

/-- What a thread may call. -/
inductive Beginning
  | publish (event : SystemEvent)
  | drain
  | requestStop
  | join
  | stopAndJoin
  | start (spawned : Bool)
  | reinitializeBus (poolSize queueSize : UInt64)
  deriving DecidableEq, Repr

def Beginning.call : Beginning → Call
  | publish event => .publish event .components
  | drain => .drain .dequeue
  | requestStop => .requestStop
  | join => .join false
  | stopAndJoin => .stopAndJoin
  | start spawned => .start spawned
  | reinitializeBus poolSize queueSize => .newPool poolSize queueSize

/-- Who may have an event in his hand. -/
inductive Holder
  | loop
  | call (thread : Thread)
  deriving DecidableEq, Repr

end EventTraffic

open EventTraffic

/-- `eventPool_`, and the account of its events. -/
structure EventAccount where
  eventPool_ : Option EventPool := none
  /-- how many pools there were -/
  pools : ℕ := 0
  /-- how many events were allocated, -/
  published : ℕ := 0
  /-- how many their pool took back, -/
  returned : ℕ := 0
  /-- how often a pool was given back what it had not out, -/
  refused : ℕ := 0
  /-- and how many events were out when their pool was replaced or destroyed -/
  stranded : ℕ := 0

namespace EventAccount

variable (a : EventAccount)

/-- The event is out: its block of the pool is allocated. -/
def isOut (ptr : EventPtr) : Bool :=
  a.eventPool_.any fun p => p.objectId = ptr.pool ∧ ptr.block ∈ p.pool.blocks

/-- How many events are out. -/
def allocatedCount : ℕ :=
  match a.eventPool_ with
  | some p => p.pool.blocks.keys.length
  | none => 0

/-- `eventPool_->allocateObject(event)`. -/
def allocateObject (p : EventPool) (event : SystemEvent) : Option (EventPtr × EventAccount) :=
  (p.pool.allocateObject event).map fun r => (⟨p.objectId, r.1⟩,
    { a with eventPool_ := some { p with pool := r.2 }, published := a.published + 1 })

/-- `eventPool_->deallocateObject(ptr)`: a pool takes back what it has out. -/
def deallocateObject (ptr : EventPtr) : EventAccount :=
  if a.isOut ptr then
    { a with
      eventPool_ := a.eventPool_.map fun p => { p with pool := p.pool.deallocateObject ptr.block }
      returned := a.returned + 1 }
  else { a with refused := a.refused + 1 }

/-- `eventPool_` is a new pool. -/
def replace (poolSize : UInt64) : EventAccount :=
  { a with
    eventPool_ := some ⟨a.pools, .new poolSize⟩
    pools := a.pools + 1
    stranded := a.stranded + a.allocatedCount }

/-- The pool is destroyed. -/
def destroy : EventAccount :=
  { a with eventPool_ := none, stranded := a.stranded + a.allocatedCount }

variable {a} {p : EventPool} {event : SystemEvent} {ptr ptr' : EventPtr} {a' : EventAccount}

theorem isOut_iff : a.isOut ptr = true ↔
    ∃ p, a.eventPool_ = some p ∧ p.objectId = ptr.pool ∧ ptr.block ∈ p.pool.blocks := by
  rw [isOut, Option.any_eq_true]
  simp only [decide_eq_true_eq]

theorem isOut_iff_of_some (hp : a.eventPool_ = some p) :
    a.isOut ptr = true ↔ p.objectId = ptr.pool ∧ ptr.block ∈ p.pool.blocks := by
  rw [isOut, hp, Option.any_some, decide_eq_true_eq]

theorem allocatedCount_of_some (hp : a.eventPool_ = some p) :
    a.allocatedCount = p.pool.blocks.keys.length := by
  rw [allocatedCount, hp]

/-- No event is out. -/
theorem allocatedCount_eq_zero : a.allocatedCount = 0 ↔ ∀ ptr, ¬ a.isOut ptr = true := by
  cases hp : a.eventPool_ with
  | none =>
    refine iff_of_true (by rw [allocatedCount, hp]) fun ptr hout => ?_
    obtain ⟨p, hp', -⟩ := isOut_iff.mp hout
    exact absurd (hp.symm.trans hp') (by simp)
  | some p =>
    rw [allocatedCount_of_some hp, List.length_eq_zero_iff]
    constructor
    · intro hkeys ptr hout
      have hmem := AList.mem_keys.mp ((isOut_iff_of_some hp).mp hout).2
      rw [hkeys] at hmem
      exact List.not_mem_nil hmem
    · intro hnone
      refine List.eq_nil_iff_forall_not_mem.mpr fun b hb => hnone ⟨p.objectId, b⟩ ?_
      exact (isOut_iff_of_some hp).mpr ⟨rfl, AList.mem_keys.mpr hb⟩

/-- An event that is allocated was not out, and is one more. -/
theorem allocateObject_spec (hp : a.eventPool_ = some p)
    (h : a.allocateObject p event = some (ptr, a')) :
    ¬ a.isOut ptr = true ∧ (∀ ptr', a'.isOut ptr' = true ↔ ptr' = ptr ∨ a.isOut ptr' = true) ∧
      a'.allocatedCount = a.allocatedCount + 1 := by
  obtain ⟨⟨b, pool⟩, halloc, ⟨⟩⟩ := Option.map_eq_some_iff.mp h
  obtain ⟨hfree, hblocks, -⟩ := MemoryPool.allocateObject_spec halloc
  refine ⟨fun hout => hfree ((isOut_iff_of_some hp).mp hout).2, fun ptr' => ?_, ?_⟩
  · rw [isOut_iff_of_some hp, isOut_iff_of_some rfl, hblocks, AList.mem_insert]
    obtain ⟨id, c⟩ := ptr'
    simp only [EventPtr.mk.injEq]
    constructor
    · rintro ⟨rfl, rfl | hc⟩
      · exact .inl ⟨rfl, rfl⟩
      · exact .inr ⟨rfl, hc⟩
    · rintro (⟨rfl, rfl⟩ | ⟨rfl, hc⟩)
      · exact ⟨rfl, .inl rfl⟩
      · exact ⟨rfl, .inr hc⟩
  · rw [allocatedCount_of_some hp, allocatedCount_of_some rfl, MemoryPool.length_allocateObject halloc]

/-- An event that is returned is out no longer. -/
theorem deallocateObject_spec (h : a.isOut ptr = true) :
    (∀ ptr', (a.deallocateObject ptr).isOut ptr' = true ↔ ptr' ≠ ptr ∧ a.isOut ptr' = true) ∧
      (a.deallocateObject ptr).allocatedCount + 1 = a.allocatedCount := by
  obtain ⟨p, hp, hid, hb⟩ := isOut_iff.mp h
  have hpool : (a.deallocateObject ptr).eventPool_ =
      some { p with pool := p.pool.deallocateObject ptr.block } := by
    rw [deallocateObject, if_pos h, hp, Option.map_some]
  constructor
  · intro ptr'
    rw [isOut_iff_of_some hp, isOut_iff_of_some hpool, MemoryPool.deallocateObject_blocks,
      AList.mem_erase]
    obtain ⟨id, b⟩ := ptr
    obtain rfl : p.objectId = id := hid
    obtain ⟨id', c⟩ := ptr'
    simp only [ne_eq, EventPtr.mk.injEq, not_and]
    constructor
    · rintro ⟨hid', hne, hc⟩
      exact ⟨fun _ => hne, hid', hc⟩
    · rintro ⟨hne, hid', hc⟩
      exact ⟨hid', hne hid'.symm, hc⟩
  · rw [allocatedCount_of_some hp, allocatedCount_of_some hpool, MemoryPool.deallocateObject_blocks,
      AList.keys_erase]
    exact Nat.succ_pred_eq_of_pos (List.length_pos_of_mem (AList.mem_keys.mp hb)) ▸
      congrArg (· + 1) (List.length_erase_of_mem (AList.mem_keys.mp hb))

end EventAccount

/-- An event bus and the threads that use it. -/
structure EventTraffic extends EventAccount where
  eventQueue_ : Option (ThreadSafeQueue EventPtr) := none
  running_ : Bool := false
  dispatchThread_ : WorkerThread LoopPc := .empty
  /-- the latch -/
  isShuttingDown : Bool := false
  /-- the lifecycle's state is `STOPPING` or beyond -/
  stopping : Bool := false
  calls : Thread → Option Call := fun _ => none

namespace EventTraffic

variable (s : EventTraffic) (t : Thread)

def setCall (call : Option Call) : EventTraffic :=
  { s with calls := Function.update s.calls t call }

/-- `shutdownRequested()`. -/
def shutdownRequested : Bool := s.isShuttingDown || s.stopping

def publishStep (event : SystemEvent) : PublishPc → Option EventTraffic
  | .components => some (s.setCall t
      (if s.eventPool_.isNone || s.eventQueue_.isNone then none else some (.publish event .latch)))
  | .latch =>
    some (s.setCall t (if s.isShuttingDown then none else some (.publish event .allocate)))
  | .allocate => s.eventPool_.map fun p => match s.allocateObject p event with
    | none => s.setCall t none
    | some (ptr, account) =>
      { s with toEventAccount := account }.setCall t (some (.publish event (.enqueue ptr)))
  | .enqueue ptr => s.eventQueue_.map fun q => match q.enqueue ptr with
    | none => s.setCall t (some (.publish event (.giveBack ptr)))
    | some q => { s with eventQueue_ := some q }.setCall t none
  | .giveBack ptr => some ({ s with toEventAccount := s.deallocateObject ptr }.setCall t none)

def drainStep : DrainPc → EventTraffic
  | .dequeue =>
    match s.eventPool_, s.eventQueue_.bind ThreadSafeQueue.tryDequeue with
    | some _, some (ptr, q) =>
      { s with eventQueue_ := some q }.setCall t (some (.drain (.giveBack ptr)))
    | _, _ => s.setCall t none
  | .giveBack ptr =>
    { s with toEventAccount := s.deallocateObject ptr }.setCall t (some (.drain .dequeue))

/-- `join()` waits for a loop that has not returned, except on its own thread. -/
def joinStep (drains : Bool) : Option EventTraffic :=
  if t = .dispatch then some (s.setCall t none)
  else match s.dispatchThread_ with
    | .running _ => none
    | .exited => some ({ s with dispatchThread_ := .empty }.setCall t
        (if drains then some (.drain .dequeue) else none))
    | .empty => some (s.setCall t none)

/-- `start()`: a stale handle is joined, the flag is set, then the thread is created, if it can be. -/
def startStep (spawned : Bool) : Option EventTraffic :=
  if t = .dispatch then some (s.setCall t none)
  else if s.dispatchThread_.alive then none
  else some ({ s with
    running_ := true
    dispatchThread_ := if spawned then .running .polling else .empty }.setCall t none)

/-- The next step of a call; `none` while it waits. -/
def execute : Call → Option EventTraffic
  | .publish event pc => s.publishStep t event pc
  | .drain pc => some (s.drainStep t pc)
  | .requestStop => some ({ s with running_ := false }.setCall t none)
  | .join drains => s.joinStep t drains
  | .stopAndJoin => some ({ s with running_ := false }.setCall t (some (.join true)))
  | .start spawned => s.startStep t spawned
  | .newPool poolSize queueSize =>
    some ({ s with toEventAccount := s.replace poolSize }.setCall t (some (.newQueue queueSize)))
  | .newQueue queueSize => some ({ s with eventQueue_ := some (.new queueSize) }.setCall t none)

/-- A step of `dispatchLoop`. -/
def loopStep : EventBus.Step → Option EventTraffic
  | .dequeue => match s.dispatchThread_ with
    | .running .polling =>
      if s.running_ && !s.shutdownRequested then
        (s.eventQueue_.bind ThreadSafeQueue.tryDequeue).map fun r =>
          { s with eventQueue_ := some r.2, dispatchThread_ := .running (.dispatching r.1) }
      else none
    | _ => none
  | .finish => match s.dispatchThread_ with
    | .running (.dispatching ptr) =>
      if s.calls .dispatch = none then
        some { s with
          toEventAccount := s.deallocateObject ptr
          dispatchThread_ := .running .polling }
      else none
    | _ => none
  | .exit => match s.dispatchThread_ with
    | .running .polling =>
      if s.running_ && !s.shutdownRequested then none else some { s with dispatchThread_ := .exited }
    | _ => none

/-- A callback of the loop runs. -/
def dispatching : Bool :=
  match s.dispatchThread_ with
  | .running (.dispatching _) => true
  | _ => false

/-- What happens. -/
inductive Label
  | begin (thread : Thread) (c : Beginning)
  | advance (thread : Thread)
  | loop (step : EventBus.Step)
  /-- `requestShutdown()`, or `clearShutdownLatch()` -/
  | latch (on : Bool)
  /-- the lifecycle's state changes -/
  | state (stopping : Bool)
  /-- the bus is destroyed -/
  | destroy
  deriving DecidableEq, Repr

def step : Label → Option EventTraffic
  | .begin t c =>
    if s.calls t = none ∧ (t = .dispatch → s.dispatching = true) then some (s.setCall t (some c.call))
    else none
  | .advance t => (s.calls t).bind (s.execute t)
  | .loop step => s.loopStep step
  | .latch on => some { s with isShuttingDown := on }
  | .state stopping => some { s with stopping := stopping }
  | .destroy => some { s with toEventAccount := s.toEventAccount.destroy, eventQueue_ := none }

/-- **The runs** of a bus as constructed. -/
def machine : Machine EventTraffic Label where
  init s := s = {}
  step := step

/-! ## The account -/

/-- The event that the loop dispatches. -/
def dispatched? : Option EventPtr :=
  match s.dispatchThread_ with
  | .running (.dispatching ptr) => some ptr
  | _ => none

/-- Where the events are. -/
def holdings : Holdings EventPtr Holder where
  queued := match s.eventQueue_ with
    | some q => q.items
    | none => []
  hand
    | .loop => s.dispatched?
    | .call t => (s.calls t).bind Call.ptr?

/-- **The account balances**: no event was out when its pool was replaced or destroyed, and no pool
was given back what it had not out; every event that was allocated was returned or is out; every
event that is out is in exactly one place, in the queue, with the loop or with a call; and when no
call is under way as many are out as are queued and dispatched. -/
structure Balanced : Prop where
  stranded_eq : s.stranded = 0
  refused_eq : s.refused = 0
  published_eq : s.published = s.returned + s.allocatedCount
  exact : s.holdings.Exact fun ptr => s.isOut ptr = true
  count : (∀ t, s.calls t = none) →
    s.allocatedCount = s.holdings.queued.length + s.dispatched?.toList.length

/-- **The condition**: pool and bus go while the queue is empty, nothing is dispatched and no call has
an event in its hand; and a queue is replaced while it is empty. -/
def Holds : Label → Prop
  | .advance t => match s.calls t with
    | some (.newPool _ _) => s.holdings.queued = [] ∧ ∀ h, s.holdings.hand h = none
    | some (.newQueue _) => s.holdings.queued = []
    | _ => True
  | .destroy => s.holdings.queued = [] ∧ ∀ h, s.holdings.hand h = none
  | _ => True

/-! ## What the steps do to it -/

/-- Balanced, whoever is under way. -/
structure Books (a : EventAccount) (h : Holdings EventPtr Holder) : Prop where
  stranded_eq : a.stranded = 0
  refused_eq : a.refused = 0
  published_eq : a.published = a.returned + a.allocatedCount
  exact : h.Exact fun ptr => a.isOut ptr = true

variable {a a' : EventAccount} {h : Holdings EventPtr Holder} {w : Holder} {p : EventPool}
  {ptr : EventPtr} {event : SystemEvent} {poolSize : UInt64}

/-- An event is allocated. -/
theorem Books.allocate (hb : Books a h) (hp : a.eventPool_ = some p)
    (halloc : a.allocateObject p event = some (ptr, a')) (hempty : h.hand w = none) :
    Books a' (h.setHand w (some ptr)) := by
  obtain ⟨hnew, hout, hcount⟩ := EventAccount.allocateObject_spec hp halloc
  obtain ⟨r, -, heq⟩ := Option.map_eq_some_iff.mp halloc
  obtain ⟨-, rfl⟩ := Prod.mk.inj heq
  refine ⟨hb.stranded_eq, hb.refused_eq, ?_, (hb.exact.give hempty hnew).congr hout⟩
  have hpublished := hb.published_eq
  change a.published + 1 = a.returned + _
  omega

/-- An event is returned. -/
theorem Books.deallocate (hb : Books a h) (hhand : h.hand w = some ptr) :
    Books (a.deallocateObject ptr) (h.setHand w none) := by
  have hout : a.isOut ptr = true := (hb.exact.given_iff ptr).mpr (.inr ⟨w, hhand⟩)
  obtain ⟨hiff, hcount⟩ := EventAccount.deallocateObject_spec hout
  have hexact := (hb.exact.release hhand).congr hiff
  have hpublished := hb.published_eq
  rw [EventAccount.deallocateObject, if_pos hout] at hcount hexact ⊢
  refine ⟨hb.stranded_eq, hb.refused_eq, ?_, hexact⟩
  change a.published = a.returned + 1 + _
  omega

/-- No event is out exactly if the queue and all hands are empty. -/
theorem Books.allocatedCount_eq_zero (hb : Books a h) :
    a.allocatedCount = 0 ↔ h.queued = [] ∧ ∀ w, h.hand w = none :=
  EventAccount.allocatedCount_eq_zero.trans hb.exact.none_given_iff

/-- The pool is replaced while no event is out. -/
theorem Books.replace (hb : Books a h) (hnone : h.queued = [] ∧ ∀ w, h.hand w = none) :
    Books (a.replace poolSize) h := by
  have hzero : a.allocatedCount = 0 := hb.allocatedCount_eq_zero.mpr hnone
  have hzero' : (a.replace poolSize).allocatedCount = 0 := rfl
  have hpublished := hb.published_eq
  refine ⟨?_, hb.refused_eq, ?_,
    Holdings.exact_empty hnone.1 hnone.2 (EventAccount.allocatedCount_eq_zero.mp hzero')⟩
  · change a.stranded + a.allocatedCount = 0
    rw [hb.stranded_eq, hzero]
  · change a.published = a.returned + _
    omega

/-- The pool is destroyed while no event is out. -/
theorem Books.destroy (hb : Books a h) (hnone : h.queued = [] ∧ ∀ w, h.hand w = none) :
    Books a.destroy h := by
  have hzero : a.allocatedCount = 0 := hb.allocatedCount_eq_zero.mpr hnone
  have hzero' : a.destroy.allocatedCount = 0 := rfl
  have hpublished := hb.published_eq
  refine ⟨?_, hb.refused_eq, ?_,
    Holdings.exact_empty hnone.1 hnone.2 (EventAccount.allocatedCount_eq_zero.mp hzero')⟩
  · change a.stranded + a.allocatedCount = 0
    rw [hb.stranded_eq, hzero]
  · change a.published = a.returned + _
    omega

variable {s s' : EventTraffic} {t : Thread} {call : Call}

/-- With no call under way, what is out is queued or dispatched. -/
theorem Books.count (hb : Books s.toEventAccount s.holdings) (hcalls : ∀ t, s.calls t = none) :
    s.allocatedCount = s.holdings.queued.length + s.dispatched?.toList.length := by
  have hothers : ∀ w, w ≠ .loop → s.holdings.hand w = none := by
    intro w hw
    cases w with
    | loop => exact absurd rfl hw
    | call t =>
      change (s.calls t).bind Call.ptr? = none
      rw [hcalls t, Option.bind_none]
  cases hp : s.eventPool_ with
  | none =>
    have hzero : s.allocatedCount = 0 := by rw [EventAccount.allocatedCount, hp]
    obtain ⟨hqueued, hhand⟩ := hb.allocatedCount_eq_zero.mp hzero
    have hloop : s.dispatched? = none := hhand .loop
    rw [hzero, hqueued, hloop]
    rfl
  | some p =>
    have hinj : Function.Injective (EventPtr.mk p.objectId) := fun _ _ heq => (EventPtr.mk.inj heq).2
    have hperm := hb.exact.perm hothers (l := p.pool.blocks.keys.map (EventPtr.mk p.objectId))
      (p.pool.blocks.keys_nodup.map hinj) fun ptr => by
        rw [List.mem_map, EventAccount.isOut_iff_of_some hp]
        constructor
        · rintro ⟨b, hmem, rfl⟩
          exact ⟨rfl, AList.mem_keys.mpr hmem⟩
        · rintro ⟨hid, hmem⟩
          exact ⟨ptr.block, AList.mem_keys.mp hmem, by rw [hid]⟩
    have hlen := hperm.length_eq
    rw [List.length_map, List.length_append] at hlen
    rw [EventAccount.allocatedCount_of_some hp, hlen]
    rfl

theorem balanced_iff : s.Balanced ↔ Books s.toEventAccount s.holdings :=
  ⟨fun hs => ⟨hs.stranded_eq, hs.refused_eq, hs.published_eq, hs.exact⟩,
    fun hb => ⟨hb.stranded_eq, hb.refused_eq, hb.published_eq, hb.exact, hb.count⟩⟩

/-! ## The hands -/

theorem holdings_setCall (s : EventTraffic) (t : Thread) (call : Option Call) :
    (s.setCall t call).holdings = s.holdings.setHand (.call t) (call.bind Call.ptr?) := by
  have hhand : (s.setCall t call).holdings.hand =
      Function.update s.holdings.hand (.call t) (call.bind Call.ptr?) := by
    funext w
    cases w with
    | loop => rw [Function.update_of_ne (by simp)]; rfl
    | call u =>
      change (Function.update s.calls t call u).bind Call.ptr? = _
      by_cases hu : u = t
      · subst hu
        rw [Function.update_self, Function.update_self]
      · rw [Function.update_of_ne hu, Function.update_of_ne (by simpa using hu)]
        rfl
  rw [Holdings.setHand, ← hhand]
  rfl

theorem hand_call (hc : s.calls t = some call) : s.holdings.hand (.call t) = call.ptr? := by
  change (s.calls t).bind Call.ptr? = _
  rw [hc, Option.bind_some]

/-- A call goes on, with the same event in hand or none. -/
theorem holdings_setCall_of_eq (hc : s.calls t = some call) {call' : Option Call}
    (hptr : call'.bind Call.ptr? = call.ptr?) : (s.setCall t call').holdings = s.holdings := by
  rw [holdings_setCall, hptr]
  exact Holdings.setHand_eq_self (hand_call hc)

/-- The loop's thread changes. -/
theorem holdings_setThread (s : EventTraffic) (thread : WorkerThread LoopPc) :
    { s with dispatchThread_ := thread }.holdings =
      s.holdings.setHand .loop { s with dispatchThread_ := thread }.dispatched? := by
  have hhand : { s with dispatchThread_ := thread }.holdings.hand =
      Function.update s.holdings.hand .loop { s with dispatchThread_ := thread }.dispatched? := by
    funext w
    cases w with
    | loop => rw [Function.update_self]; rfl
    | call u => rw [Function.update_of_ne (by simp)]; rfl
  rw [Holdings.setHand, ← hhand]
  rfl

/-- An empty queue gives way to an empty queue, or to none. -/
theorem holdings_setQueue {queue : Option (ThreadSafeQueue EventPtr)} (hqueued : s.holdings.queued = [])
    (hempty : { s with eventQueue_ := queue }.holdings.queued = []) :
    { s with eventQueue_ := queue }.holdings = s.holdings :=
  congrArg₂ Holdings.mk (hempty.trans hqueued.symm) rfl

/-! ## The steps -/

/-- Nothing about the events changes. -/
theorem Books.of_eq (hb : Books s.toEventAccount s.holdings) (s' : EventTraffic)
    (haccount : s'.toEventAccount = s.toEventAccount) (hholdings : s'.holdings = s.holdings) :
    Books s'.toEventAccount s'.holdings := by
  rw [haccount, hholdings]
  exact hb

/-- A call goes on, with the same event in hand or none. -/
theorem Books.goOn (hb : Books s.toEventAccount s.holdings) (hc : s.calls t = some call)
    {call' : Option Call} (hptr : call'.bind Call.ptr? = call.ptr?) :
    Books (s.setCall t call').toEventAccount (s.setCall t call').holdings :=
  hb.of_eq _ rfl (holdings_setCall_of_eq hc hptr)

theorem tryDequeue_eq_some {q q' : ThreadSafeQueue EventPtr} (h : q.tryDequeue = some (ptr, q')) :
    q.items = ptr :: q'.items := by
  unfold ThreadSafeQueue.tryDequeue at h
  split at h
  next => cases h
  next v rest hitems =>
    obtain ⟨⟩ := h
    exact hitems

theorem enqueue_eq_some {q q' : ThreadSafeQueue EventPtr} (h : q.enqueue ptr = some q') :
    q'.items = q.items ++ [ptr] := by
  unfold ThreadSafeQueue.enqueue at h
  split at h
  next => exact Option.some.inj h ▸ rfl
  next => cases h

theorem publishStep_books {pc : PublishPc} (hb : Books s.toEventAccount s.holdings)
    (hc : s.calls t = some (.publish event pc)) (hstep : s.publishStep t event pc = some s') :
    Books s'.toEventAccount s'.holdings := by
  have hhand := hand_call hc
  cases pc with
  | components =>
    obtain ⟨⟩ := hstep
    refine hb.goOn hc ?_
    split <;> rfl
  | latch =>
    obtain ⟨⟩ := hstep
    refine hb.goOn hc ?_
    split <;> rfl
  | allocate =>
    obtain ⟨p, hp, heq⟩ := Option.map_eq_some_iff.mp hstep
    cases halloc : s.allocateObject p event with
    | none =>
      rw [halloc] at heq
      subst heq
      exact hb.goOn hc rfl
    | some r =>
      obtain ⟨ptr, account⟩ := r
      rw [halloc] at heq
      subst heq
      rw [holdings_setCall]
      exact hb.allocate hp halloc hhand
  | enqueue ptr =>
    obtain ⟨q, hq, heq⟩ := Option.map_eq_some_iff.mp hstep
    cases henqueue : q.enqueue ptr with
    | none =>
      rw [henqueue] at heq
      subst heq
      exact hb.goOn hc rfl
    | some q' =>
      rw [henqueue] at heq
      subst heq
      have hqueued : s.holdings.queued = q.items := by rw [holdings, hq]
      have hexact := hb.exact.put hhand
      rw [hqueued, ← enqueue_eq_some henqueue] at hexact
      rw [holdings_setCall]
      exact ⟨hb.stranded_eq, hb.refused_eq, hb.published_eq, hexact⟩
  | giveBack ptr =>
    obtain ⟨⟩ := hstep
    rw [holdings_setCall]
    exact hb.deallocate hhand

/-- The first event of the queue goes into a hand. -/
theorem Books.dequeue (hb : Books s.toEventAccount s.holdings) {q q' : ThreadSafeQueue EventPtr}
    (hq : s.eventQueue_ = some q) (hdequeue : q.tryDequeue = some (ptr, q'))
    (hempty : s.holdings.hand w = none) :
    Books s.toEventAccount { s.holdings.setHand w (some ptr) with queued := q'.items } := by
  have hqueued : s.holdings.queued = ptr :: q'.items := by
    rw [← tryDequeue_eq_some hdequeue, holdings, hq]
  exact ⟨hb.stranded_eq, hb.refused_eq, hb.published_eq, hb.exact.take hqueued hempty⟩

theorem drainStep_books {pc : DrainPc} (hb : Books s.toEventAccount s.holdings)
    (hc : s.calls t = some (.drain pc)) :
    Books (s.drainStep t pc).toEventAccount (s.drainStep t pc).holdings := by
  have hhand := hand_call hc
  cases pc with
  | dequeue =>
    simp only [drainStep]
    split
    next p ptr q' hp hdequeue =>
      obtain ⟨q, hq, hdequeue⟩ := Option.bind_eq_some_iff.mp hdequeue
      rw [holdings_setCall]
      exact hb.dequeue hq hdequeue hhand
    next => exact hb.goOn hc rfl
  | giveBack ptr =>
    unfold drainStep
    rw [holdings_setCall]
    exact hb.deallocate hhand

/-- The loop's thread changes while nothing is dispatched. -/
theorem holdings_setThread_of_none {thread : WorkerThread LoopPc} (hs : s.dispatched? = none)
    (hthread : { s with dispatchThread_ := thread }.dispatched? = none) :
    { s with dispatchThread_ := thread }.holdings = s.holdings := by
  rw [holdings_setThread, hthread]
  exact Holdings.setHand_eq_self hs

theorem joinStep_books {drains : Bool} (hb : Books s.toEventAccount s.holdings)
    (hc : s.calls t = some (.join drains)) (hstep : s.joinStep t drains = some s') :
    Books s'.toEventAccount s'.holdings := by
  unfold joinStep at hstep
  split at hstep
  · obtain ⟨⟩ := hstep
    exact hb.goOn hc rfl
  · split at hstep
    next => cases hstep
    next hthread =>
      obtain ⟨⟩ := hstep
      have hnone : s.dispatched? = none := by rw [dispatched?, hthread]
      have hsame := hb.of_eq { s with dispatchThread_ := .empty } rfl
        (holdings_setThread_of_none hnone rfl)
      refine hsame.goOn (t := t) hc ?_
      split <;> rfl
    next =>
      obtain ⟨⟩ := hstep
      exact hb.goOn hc rfl

theorem startStep_books {spawned : Bool} (hb : Books s.toEventAccount s.holdings)
    (hc : s.calls t = some (.start spawned)) (hstep : s.startStep t spawned = some s') :
    Books s'.toEventAccount s'.holdings := by
  unfold startStep at hstep
  split at hstep
  · obtain ⟨⟩ := hstep
    exact hb.goOn hc rfl
  · split at hstep
    next => cases hstep
    next halive =>
      obtain ⟨⟩ := hstep
      have hnone : s.dispatched? = none := by
        rcases (WorkerThread.not_alive_iff _).mp (by simpa using halive) with hthread | hthread <;>
          rw [dispatched?, hthread]
      have hrunning := hb.of_eq { s with running_ := true } rfl rfl
      have hsame := hrunning.of_eq { s with
        running_ := true
        dispatchThread_ := if spawned then .running .polling else .empty } rfl
        (holdings_setThread_of_none hnone (by cases spawned <;> rfl))
      exact hsame.goOn (t := t) hc rfl

theorem execute_books (hb : Books s.toEventAccount s.holdings) (hc : s.calls t = some call)
    (hG : Holds s (.advance t)) (hstep : s.execute t call = some s') :
    Books s'.toEventAccount s'.holdings := by
  simp only [Holds, hc] at hG
  cases call with
  | publish event pc => exact publishStep_books hb hc hstep
  | drain pc => exact Option.some.inj hstep ▸ drainStep_books hb hc
  | requestStop =>
    obtain ⟨⟩ := hstep
    exact (hb.of_eq { s with running_ := false } rfl rfl).goOn (t := t) hc rfl
  | join drains => exact joinStep_books hb hc hstep
  | stopAndJoin =>
    obtain ⟨⟩ := hstep
    exact (hb.of_eq { s with running_ := false } rfl rfl).goOn (t := t) hc rfl
  | start spawned => exact startStep_books hb hc hstep
  | newPool poolSize queueSize =>
    obtain ⟨⟩ := hstep
    have hreplaced : Books (s.replace poolSize) s.holdings := hb.replace hG
    exact Books.goOn (s := { s with toEventAccount := s.replace poolSize }) (t := t) hreplaced hc rfl
  | newQueue queueSize =>
    obtain ⟨⟩ := hstep
    exact (hb.of_eq { s with eventQueue_ := some (.new queueSize) } rfl
      (holdings_setQueue hG rfl)).goOn (t := t) hc rfl

theorem loopStep_books {step : EventBus.Step} (hb : Books s.toEventAccount s.holdings)
    (hstep : s.loopStep step = some s') : Books s'.toEventAccount s'.holdings := by
  cases step with
  | dequeue =>
    simp only [loopStep] at hstep
    split at hstep
    next hthread =>
      split at hstep
      · obtain ⟨⟨ptr, q'⟩, hdequeue, rfl⟩ := Option.map_eq_some_iff.mp hstep
        obtain ⟨q, hq, hdequeue⟩ := Option.bind_eq_some_iff.mp hdequeue
        have hempty : s.holdings.hand .loop = none := by
          change s.dispatched? = none
          rw [dispatched?, hthread]
        have htaken := hb.dequeue hq hdequeue hempty
        rw [holdings_setThread { s with eventQueue_ := some q' }]
        exact htaken
      · cases hstep
    next => cases hstep
  | finish =>
    simp only [loopStep] at hstep
    split at hstep
    next ptr hthread =>
      split at hstep
      · obtain ⟨⟩ := hstep
        have hhand : s.holdings.hand .loop = some ptr := by
          change s.dispatched? = some ptr
          rw [dispatched?, hthread]
        rw [holdings_setThread { s with toEventAccount := s.deallocateObject ptr }]
        exact hb.deallocate hhand
      · cases hstep
    next => cases hstep
  | exit =>
    simp only [loopStep] at hstep
    split at hstep
    next hthread =>
      split at hstep
      · cases hstep
      · obtain ⟨⟩ := hstep
        have hnone : s.dispatched? = none := by rw [dispatched?, hthread]
        exact hb.of_eq _ rfl (holdings_setThread_of_none hnone rfl)
    next => cases hstep

@[simp] theorem ptr?_call (c : Beginning) : c.call.ptr? = none := by
  cases c <;> rfl

/-- **A step that the condition allows keeps the account balanced.** -/
theorem step_books {label : Label} (hb : Books s.toEventAccount s.holdings) (hG : Holds s label)
    (hstep : s.step label = some s') : Books s'.toEventAccount s'.holdings := by
  cases label with
  | begin t c =>
    simp only [step] at hstep
    split at hstep
    next hidle =>
      obtain ⟨⟩ := hstep
      have hhand : s.holdings.hand (.call t) = none := by
        change (s.calls t).bind Call.ptr? = none
        rw [hidle.1, Option.bind_none]
      refine hb.of_eq _ rfl ?_
      rw [holdings_setCall, Option.bind_some, ptr?_call]
      exact Holdings.setHand_eq_self hhand
    next => cases hstep
  | advance t =>
    obtain ⟨call, hc, hstep⟩ := Option.bind_eq_some_iff.mp hstep
    exact execute_books hb hc hG hstep
  | loop step => exact loopStep_books hb hstep
  | latch on =>
    obtain ⟨⟩ := hstep
    exact hb.of_eq _ rfl rfl
  | state stopping =>
    obtain ⟨⟩ := hstep
    exact hb.of_eq _ rfl rfl
  | destroy =>
    obtain ⟨⟩ := hstep
    have hqueue : { s with eventQueue_ := none }.holdings = s.holdings := holdings_setQueue hG.1 rfl
    have hdestroyed := hb.destroy hG
    rw [← hqueue] at hdestroyed
    exact hdestroyed

/-- Events that are out are not forgotten. -/
theorem none_out_of_stranded (hb : Books s.toEventAccount s.holdings)
    (hstranded : s.stranded + s.allocatedCount = 0) :
    s.holdings.queued = [] ∧ ∀ w, s.holdings.hand w = none := by
  refine hb.allocatedCount_eq_zero.mp ?_
  omega

/-- **The condition is needed**: a step that keeps the account balanced satisfies it. -/
theorem holds_of_step {label : Label} (hb : Books s.toEventAccount s.holdings)
    (hb' : Books s'.toEventAccount s'.holdings) (hstep : s.step label = some s') :
    Holds s label := by
  cases label with
  | advance t =>
    obtain ⟨call, hc, hstep⟩ := Option.bind_eq_some_iff.mp hstep
    simp only [Holds, hc]
    cases call with
    | newPool poolSize queueSize =>
      obtain ⟨⟩ := hstep
      exact none_out_of_stranded hb hb'.stranded_eq
    | newQueue queueSize =>
      obtain ⟨⟩ := hstep
      -- an event of the old queue would be out, so it would be in a hand, but it was queued
      refine List.eq_nil_iff_forall_not_mem.mpr fun ptr hmem => ?_
      have hout : s.isOut ptr = true := (hb.exact.given_iff ptr).mpr (.inl hmem)
      have hholdings := holdings_setCall { s with eventQueue_ := some (.new queueSize) } t none
      rcases (hb'.exact.given_iff ptr).mp hout with hqueued | ⟨w, hhand⟩
      · exact List.not_mem_nil hqueued
      · rw [hholdings] at hhand
        rcases Holdings.setHand_eq_some.mp hhand with ⟨-, hnone⟩ | ⟨-, hhand⟩
        · cases hnone
        · exact hb.exact.apart w ptr hhand hmem
    | _ => trivial
  | destroy =>
    obtain ⟨⟩ := hstep
    exact none_out_of_stranded hb hb'.stranded_eq
  | _ => trivial

theorem balanced_empty : ({} : EventTraffic).Balanced := by
  refine balanced_iff.mpr ⟨rfl, rfl, rfl, Holdings.exact_empty rfl (fun w => ?_) (fun ptr hout => ?_)⟩
  · cases w <;> rfl
  · cases hout

/-- **Every event goes back to its pool exactly once, and none is left in a pool that is gone,**
exactly if pool and queue are replaced, and the bus destroyed, while no event is out. -/
theorem eventTraffic_balanced_iff (labels : List Label) :
    machine.Always Balanced {} labels ↔ machine.Allowed Holds {} labels := by
  refine machine.always_iff_allowed (I := fun _ => True) (fun _ _ _ _ _ _ => trivial) ?_ trivial
    balanced_empty labels
  intro s label s' _ hs hstep
  rw [balanced_iff] at hs ⊢
  exact ⟨fun hs' => holds_of_step hs hs' hstep, fun hG => step_books hs hG hstep⟩

/-- `transitionState(INITIALIZING)` publishes an event, `loadConfiguration` fails, and the next
`initialize()` replaces the pool. -/
def failedConfiguration : List Label :=
  let user : Thread := .external 0
  [.begin user (.reinitializeBus 16 16), .advance user, .advance user,
    .begin user (.publish ⟨.stateChange, .uninitialized, .initializing,
      "System state changed from UNINITIALIZED to INITIALIZING", []⟩),
    .advance user, .advance user, .advance user, .advance user,
    .begin user (.reinitializeBus 16 16), .advance user]

/-- **An event is left in a pool that is replaced.** -/
theorem event_stranded : ∃ s, machine.Reachable s ∧ ¬ s.Balanced := by
  have hexec : (machine.exec {} failedConfiguration).any (fun s => s.stranded = 1) = true := by
    decide +kernel
  obtain ⟨s, hs, hstranded⟩ := (Option.any_eq_true ..).mp hexec
  refine ⟨s, Machine.Reachable.exec (.init rfl) hs, fun hbalanced => ?_⟩
  have hone : s.stranded = 1 := of_decide_eq_true hstranded
  have hzero := hbalanced.stranded_eq
  omega

end EventTraffic

end AxonVex
