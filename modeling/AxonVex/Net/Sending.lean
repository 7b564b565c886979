import AxonVex.Machinery.Machine
import AxonVex.Machinery.Mutex
import AxonVex.Net.Framing

/-!
# Net/Sending — frames on the wire, however `send`, `start` and `stop` interleave

    send:   alive?  lock sockMutex_  sock_ ≥ 0?  ::send … ::send  [poison]  unlock
    start:  lock lifecycleMutex_ … close(sock_) … connect … sock_ = fd … unlock
    stop:   lock lifecycleMutex_  shutdown(sock_)  join  close(sock_)  unlock

`send` looks at `connectionAlive_` before it locks, so the connection may die, or be replaced,
before it writes; `::send` may write less than it is given, or fail at any byte.  A frame that is
cut short leaves the connection shut: what stands on it are whole frames and at most one beginning
of another, and a `send` returns true exactly if its frame is whole (`frames_on_the_wire`).

Nothing is assumed of the waiting: a `join` may go on at any time.
-/

namespace AxonVex

open Machinery

namespace TcpClient

abbrev ThreadId := ℕ

/-- A connection: a descriptor from its `connect` to its `close`. -/
abbrev ConnectionId := ℕ

/-- A call. -/
inductive Call
  | send (data : List UInt8)
  | start
  | stop
  deriving DecidableEq, Repr

/-- Where a thread stands. -/
inductive Pc
  | idle
  /-- `send`: about to read `connectionAlive_` -/
  | checkAlive (data : List UInt8)
  | lockSock (data : List UInt8)
  | testSock (data : List UInt8)
  /-- in `sendAll` of the header, this much of it written -/
  | header (data : List UInt8) (offset : ℕ)
  /-- in `sendAll` of the payload -/
  | payload (data : List UInt8) (offset : ℕ)
  /-- in `poisonConnectionLocked`, after so many bytes of the frame -/
  | clearAlive (data : List UInt8) (sent : ℕ)
  | shutdown (data : List UInt8) (sent : ℕ)
  | unlockSock (data : List UInt8) (result : Bool)
  | returns (data : List UInt8) (result : Bool)
  /-- `start`: about to ask whether it runs on the worker -/
  | startSelfCheck
  | startLock
  | readRunning
  | readAlive
  | reap
  /-- about to lock `sockMutex_` for the close, of `start` or of `stop` -/
  | lockClose (thenConnect : Bool)
  | close (thenConnect : Bool)
  | unlockClose (thenConnect : Bool)
  | connect
  | lockNew (fd : ConnectionId)
  | setSock (fd : ConnectionId)
  | unlockNew
  | setAlive
  | setRunning
  | unlockLifecycle
  /-- `stop`: about to clear `running_` -/
  | clearRunning
  | selfCheck
  | stopLock
  | stopShutdown
  | join
  deriving DecidableEq, Repr

/-- The client, the connections it has had, and the threads. -/
structure Client where
  running : Bool := false
  connectionAlive : Bool := false
  sock : Option ConnectionId := none
  sockMutex : Option ThreadId := none
  lifecycleMutex : Option ThreadId := none
  /-- the next descriptor -/
  nextFd : ConnectionId := 0
  written : ConnectionId → List UInt8 := fun _ => []
  shut : ConnectionId → Bool := fun _ => false
  threads : ThreadId → Pc := fun _ => .idle

/-- A step of a run. -/
inductive Label
  | call (t : ThreadId) (c : Call)
  | step (t : ThreadId)
  /-- `::send` writes so many bytes -/
  | wrote (t : ThreadId) (n : ℕ)
  /-- it is interrupted -/
  | interrupted (t : ThreadId)
  /-- it fails, or takes nothing more -/
  | refused (t : ThreadId)
  | connected (t : ThreadId)
  | connectFails (t : ThreadId)
  /-- the `start`, or the `stop`, is one of the worker itself -/
  | onWorker (t : ThreadId)
  /-- the receive loop has found the connection dead, or ends -/
  | dies
  deriving DecidableEq, Repr

namespace Pc

/-- The thread has `sockMutex_`. -/
def holdsSock : Pc → Bool
  | testSock _ => true
  | header _ _ => true
  | payload _ _ => true
  | clearAlive _ _ => true
  | shutdown _ _ => true
  | unlockSock _ _ => true
  | close _ => true
  | unlockClose _ => true
  | setSock _ => true
  | unlockNew => true
  | _ => false

/-- The bytes that the next `::send` is given. -/
def pending? : Pc → Option (List UInt8)
  | header data offset => some ((TcpClient.header data.length.toUInt32).drop offset)
  | payload data offset => some (data.drop offset)
  | _ => none

/-- Where the thread goes when `n` bytes have been written: once the header is out `send` goes on
with the payload, if there is any. -/
def wrote (n : ℕ) : Pc → Pc
  | header data offset =>
    if offset + n < kFrameHeaderSize then header data (offset + n)
    else if data = [] then unlockSock data true
    else payload data 0
  | payload data offset =>
    if offset + n < data.length then payload data (offset + n) else unlockSock data true
  | pc => pc

/-- Where it goes when `::send` has failed. -/
def refused : Pc → Pc
  | header data offset => clearAlive data offset
  | payload data offset => clearAlive data (kFrameHeaderSize + offset)
  | pc => pc

end Pc

namespace Client

variable (p : Client) (t : ThreadId)

/-- The place of one thread changes. -/
def goto (pc : Pc) : Client := { p with threads := Function.update p.threads t pc }

/-- A thread begins a call. -/
def begin : Call → Client
  | .send data => p.goto t (.checkAlive data)
  | .start => p.goto t .startSelfCheck
  | .stop => p.goto t .clearRunning

/-- The next step of a thread, where it has just one. -/
def stepThread : Option Client :=
  match p.threads t with
  | .checkAlive data =>
    some (if p.connectionAlive = false ∨ kMaxFrameLength.toNat < data.length then
      p.goto t (.returns data false) else p.goto t (.lockSock data))
  | .lockSock data =>
    if p.sockMutex.isSome then none else some { p.goto t (.testSock data) with sockMutex := some t }
  | .testSock data =>
    some (p.goto t (if p.sock.isSome then .header data 0 else .unlockSock data false))
  | .clearAlive data sent => some { p.goto t (.shutdown data sent) with connectionAlive := false }
  | .shutdown data _ =>
    some { p.goto t (.unlockSock data false) with
      shut := fun c => p.shut c || p.sock == some c }
  | .unlockSock data result => some { p.goto t (.returns data result) with sockMutex := none }
  | .returns _ _ => some (p.goto t .idle)
  | .startSelfCheck => some (p.goto t .startLock)
  | .startLock =>
    if p.lifecycleMutex.isSome then none
    else some { p.goto t .readRunning with lifecycleMutex := some t }
  | .readRunning => some (p.goto t (if p.running then .readAlive else .reap))
  | .readAlive => some (p.goto t (if p.connectionAlive then .unlockLifecycle else .reap))
  | .reap => some { p.goto t (.lockClose true) with running := false }
  | .lockClose thenConnect =>
    if p.sockMutex.isSome then none
    else some { p.goto t (.close thenConnect) with sockMutex := some t }
  | .close thenConnect => some { p.goto t (.unlockClose thenConnect) with sock := none }
  | .unlockClose thenConnect =>
    some { p.goto t (if thenConnect then .connect else .unlockLifecycle) with sockMutex := none }
  | .lockNew fd =>
    if p.sockMutex.isSome then none else some { p.goto t (.setSock fd) with sockMutex := some t }
  | .setSock fd => some { p.goto t .unlockNew with sock := some fd }
  | .unlockNew => some { p.goto t .setAlive with sockMutex := none }
  | .setAlive => some { p.goto t .setRunning with connectionAlive := true }
  | .setRunning => some { p.goto t .unlockLifecycle with running := true }
  | .unlockLifecycle => some { p.goto t .idle with lifecycleMutex := none }
  | .clearRunning => some { p.goto t .selfCheck with running := false }
  | .selfCheck => some (p.goto t .stopLock)
  | .stopLock =>
    if p.lifecycleMutex.isSome then none
    else some { p.goto t .stopShutdown with lifecycleMutex := some t }
  | .stopShutdown =>
    some { p.goto t .join with shut := fun c => p.shut c || p.sock == some c }
  | .join => some (p.goto t (.lockClose false))
  | _ => none

/-- `::send` writes the first `n` of the bytes it is given; on a connection that is shut down it
writes nothing. -/
def wrote (n : ℕ) : Option Client :=
  match (p.threads t).pending?, p.sock with
  | some bytes, some c =>
    if 0 < n ∧ n ≤ bytes.length ∧ p.shut c = false then
      some { p.goto t ((p.threads t).wrote n) with
        written := Function.update p.written c (p.written c ++ bytes.take n) }
    else none
  | _, _ => none

/-- The step with this label. -/
def step (p : Client) : Label → Option Client
  | .call t c => if p.threads t = .idle then some (p.begin t c) else none
  | .step t => p.stepThread t
  | .wrote t n => p.wrote t n
  | .interrupted t => if (p.threads t).pending?.isSome then some p else none
  | .refused t =>
    if (p.threads t).pending?.isSome then some (p.goto t (p.threads t).refused) else none
  | .connected t =>
    if p.threads t = .connect then
      some { p.goto t (.lockNew p.nextFd) with nextFd := p.nextFd + 1 }
    else none
  | .connectFails t =>
    if p.threads t = .connect then some (p.goto t .unlockLifecycle) else none
  | .onWorker t =>
    if p.threads t = .startSelfCheck ∨ p.threads t = .selfCheck then some (p.goto t .idle) else none
  | .dies => some { p with connectionAlive := false }

end Client

/-- The client, from its construction on. -/
def client : Machine Client Label where
  init p := p = {}
  step := Client.step

/-! ## What has been written -/

/-- How much of which frame the thread has written. -/
def Pc.progress? : Pc → Option (List UInt8 × ℕ)
  | header data offset => some (data, offset)
  | payload data offset => some (data, kFrameHeaderSize + offset)
  | clearAlive data sent => some (data, sent)
  | shutdown data sent => some (data, sent)
  | _ => none

/-- The run so far, as the wires show it. -/
structure Wire where
  /-- the payloads whose frames stand whole on a connection -/
  whole : ConnectionId → List (List UInt8) := fun _ => []
  /-- what stands behind them -/
  part : ConnectionId → List UInt8 := fun _ => []
  /-- what the last `send` of a thread has written -/
  sent : ThreadId → List UInt8 := fun _ => []

/-- A thread has written these bytes of the frame of `data`. -/
def Wire.wrote (w : Wire) (t : ThreadId) (c : ConnectionId) (data bytes : List UInt8) : Wire :=
  let sent := w.sent t ++ bytes
  if sent = frame data then
    { whole := Function.update w.whole c (w.whole c ++ [data])
      part := Function.update w.part c []
      sent := Function.update w.sent t sent }
  else
    { w with
      part := Function.update w.part c (w.part c ++ bytes)
      sent := Function.update w.sent t sent }

/-- How a step changes the wires. -/
def wire (p : Client) : Label → Client → Wire → Wire
  | .call t _, _, w => { w with sent := Function.update w.sent t [] }
  | .wrote t n, _, w => match (p.threads t).progress?, (p.threads t).pending?, p.sock with
    | some (data, _), some bytes, some c => w.wrote t c data (bytes.take n)
    | _, _, _ => w
  | _, _, w => w

/-! ### One write -/

theorem length_frame (data : List UInt8) : (frame data).length = kFrameHeaderSize + data.length := by
  rw [frame, List.length_append]
  rfl

/-- **A write takes the frame further**, and the last one completes it. -/
theorem wrote_spec {pc : Pc} {data bytes : List UInt8} {k n : ℕ}
    (hpc : pc.progress? = some (data, k)) (hbytes : pc.pending? = some bytes) (hn : 0 < n)
    (hle : n ≤ bytes.length) :
    (frame data).take k ++ bytes.take n = (frame data).take (k + n) ∧
      (k + n < (frame data).length ∧ (pc.wrote n).progress? = some (data, k + n) ∨
        k + n = (frame data).length ∧ pc.wrote n = .unlockSock data true) := by
  have hheader : (header data.length.toUInt32).length = kFrameHeaderSize := rfl
  cases pc with
  | header data' offset =>
    obtain ⟨rfl, rfl⟩ := pair_inj hpc
    obtain ⟨⟩ := hbytes
    have hwithin : offset + n ≤ kFrameHeaderSize := by
      rw [List.length_drop, hheader] at hle
      omega
    constructor
    · rw [frame, List.take_append_of_le_length (by omega), List.take_append_of_le_length hwithin,
        List.take_add]
    · rw [length_frame]
      rcases Nat.lt_or_ge (offset + n) kFrameHeaderSize with hmore | hdone
      · exact .inl ⟨Nat.lt_add_right _ hmore, by simp [Pc.wrote, hmore, Pc.progress?]⟩
      · have hexact : offset + n = kFrameHeaderSize := Nat.le_antisymm hwithin hdone
        by_cases hdata : data' = []
        · exact .inr ⟨by simp [hexact, hdata], by simp [Pc.wrote, hexact, hdata]⟩
        · have hpos : 0 < data'.length := List.length_pos_iff.mpr hdata
          exact .inl ⟨by omega, by simp [Pc.wrote, hexact, hdata, Pc.progress?]⟩
  | payload data' offset =>
    obtain ⟨rfl, rfl⟩ := pair_inj hpc
    obtain ⟨⟩ := hbytes
    have hwithin : offset + n ≤ data'.length := by
      rw [List.length_drop] at hle
      omega
    constructor
    · have htake : ∀ j, (frame data').take (kFrameHeaderSize + j) =
          header data'.length.toUInt32 ++ data'.take j := by
        intro j
        rw [frame, ← hheader, List.take_length_add_append]
      rw [htake, Nat.add_assoc, htake, List.append_assoc, List.take_add]
    · rw [length_frame]
      rcases Nat.lt_or_ge (offset + n) data'.length with hmore | hdone
      · refine .inl ⟨by omega, ?_⟩
        simp [Pc.wrote, hmore, Pc.progress?, Nat.add_assoc]
      · refine .inr ⟨by omega, ?_⟩
        simp [Pc.wrote, Nat.not_lt.mpr hdone]
  | _ => exact absurd hbytes (by simp [Pc.pending?])

/-! ## The invariant -/

/-- The payload of a `send` that has passed its tests and not begun to write. -/
def Pc.waiting? : Pc → Option (List UInt8)
  | lockSock data => some data
  | testSock data => some data
  | _ => none

/-- What a `send` is about to return. -/
def Pc.result? : Pc → Option (List UInt8 × Bool)
  | unlockSock data result => some (data, result)
  | returns data result => some (data, result)
  | _ => none

/-- A thread has written `k` bytes of a frame on the connection `c`. -/
structure Midway (p : Client) (w : Wire) (t : ThreadId) (data : List UInt8) (k : ℕ)
    (c : ConnectionId) : Prop where
  sock : p.sock = some c
  size : data.length ≤ kMaxFrameLength.toNat
  short : k < (frame data).length
  sent : w.sent t = (frame data).take k
  begun : 0 < k → w.part c = (frame data).take k
  fresh : k = 0 → w.part c = [] ∨ p.shut c = true

/-- What a thread knows of its frame. -/
structure Accounted (p : Client) (w : Wire) (t : ThreadId) : Prop where
  midway : ∀ data k, (p.threads t).progress? = some (data, k) → ∃ c, Midway p w t data k c
  begins : ∀ data, p.threads t = .checkAlive data → w.sent t = []
  waits : ∀ data, (p.threads t).waiting? = some data →
    w.sent t = [] ∧ data.length ≤ kMaxFrameLength.toNat
  result : ∀ data result, (p.threads t).result? = some (data, result) →
    (result = true ↔ w.sent t = frame data)

/-- **The invariant of the connections.** -/
structure Inv (p : Client) (w : Wire) : Prop where
  mutex : Owns p.sockMutex p.threads Pc.holdsSock
  threads : ∀ t, Accounted p w t
  /-- a beginning of a frame is being continued, or its connection is shut -/
  torn : ∀ c, w.part c ≠ [] → p.shut c = true ∨
    ∃ t data k, (p.threads t).progress? = some (data, k) ∧ 0 < k ∧ p.sock = some c
  written : ∀ c, p.written c = (w.whole c).flatMap frame ++ w.part c
  sizes : ∀ c, ∀ data ∈ w.whole c, data.length ≤ kMaxFrameLength.toNat
  proper : ∀ c, w.part c ≠ [] → ∃ data : List UInt8, data.length ≤ kMaxFrameLength.toNat ∧
    w.part c <+: frame data ∧ w.part c ≠ frame data

theorem Pc.holdsSock_of_progress? {pc : Pc} {x : List UInt8 × ℕ} (h : pc.progress? = some x) :
    pc.holdsSock = true := by
  cases pc <;> first | rfl | exact absurd h (by simp [progress?])

theorem Pc.waiting?_of_progress? {pc : Pc} {x : List UInt8 × ℕ} (h : pc.progress? = some x) :
    pc.waiting? = none := by
  cases pc <;> first | rfl | exact absurd h (by simp [progress?])

theorem Pc.result?_of_progress? {pc : Pc} {x : List UInt8 × ℕ} (h : pc.progress? = some x) :
    pc.result? = none := by
  cases pc <;> first | rfl | exact absurd h (by simp [progress?])

variable {p q : Client} {w : Wire} {t : ThreadId}

/-- **A thread moves on** without a write. -/
theorem Inv.move (h : Inv p w) {pc : Pc} (hthreads : q.threads = Function.update p.threads t pc)
    (hmutex : MovesLock t p.sockMutex q.sockMutex (p.threads t).holdsSock pc.holdsSock)
    (hwritten : q.written = p.written) (hshut : ∀ c, p.shut c = true → q.shut c = true)
    (hsock : q.sock = p.sock ∨ (p.threads t).holdsSock = true)
    (hkeep : ∀ data k, (p.threads t).progress? = some (data, k) → 0 < k →
      (q.sock = p.sock ∧ pc.progress? = some (data, k)) ∨ ∀ c, p.sock = some c → q.shut c = true)
    (hself : Accounted q w t) : Inv q w where
  mutex := by
    rw [hthreads]
    exact h.mutex.step hmutex
  threads := by
    intro u
    by_cases hut : u = t
    · subst hut
      exact hself
    · have hu := h.threads u
      have hplace : q.threads u = p.threads u := by
        rw [hthreads]
        exact Function.update_of_ne hut ..
      refine ⟨fun data k hpc => ?_, ?_, ?_, ?_⟩
      · rw [hplace] at hpc
        obtain ⟨c, hc⟩ := hu.midway data k hpc
        have hsame : q.sock = p.sock := by
          refine hsock.resolve_right fun ht => hut ?_
          exact h.mutex.unique (Pc.holdsSock_of_progress? hpc) ht
        exact ⟨c, hsame.trans hc.sock, hc.size, hc.short, hc.sent, hc.begun,
          fun hk => (hc.fresh hk).imp_right (hshut c)⟩
      · rw [hplace]
        exact hu.begins
      · rw [hplace]
        exact hu.waits
      · rw [hplace]
        exact hu.result
  torn := by
    intro c hc
    rcases h.torn c hc with hs | ⟨u, data, k, hpc, hk, hon⟩
    · exact .inl (hshut c hs)
    · by_cases hut : u = t
      · subst hut
        rcases hkeep data k hpc hk with ⟨hsame, hgo⟩ | hstop
        · refine .inr ⟨u, data, k, ?_, hk, hsame.trans hon⟩
          rw [hthreads, Function.update_self]
          exact hgo
        · exact .inl (hstop c hon)
      · have hsame : q.sock = p.sock := by
          refine hsock.resolve_right fun ht => hut ?_
          exact h.mutex.unique (Pc.holdsSock_of_progress? hpc) ht
        refine .inr ⟨u, data, k, ?_, hk, hsame.trans hon⟩
        rw [hthreads, Function.update_of_ne hut]
        exact hpc
  written c := by
    rw [hwritten]
    exact h.written c
  sizes := h.sizes
  proper := h.proper

/-- A place where nothing is known of a frame. -/
structure Pc.Plain (pc : Pc) : Prop where
  progress : pc.progress? = none
  waiting : pc.waiting? = none
  result : pc.result? = none
  before : ∀ data, pc ≠ .checkAlive data

/-- A move that has nothing to do with a frame. -/
theorem Inv.plain (h : Inv p w) {pc : Pc} (hthreads : q.threads = Function.update p.threads t pc)
    (hmutex : MovesLock t p.sockMutex q.sockMutex (p.threads t).holdsSock pc.holdsSock)
    (hwritten : q.written = p.written) (hshut : ∀ c, p.shut c = true → q.shut c = true)
    (hsock : q.sock = p.sock ∨ (p.threads t).holdsSock = true)
    (hold : (p.threads t).progress? = none) (hpc : pc.Plain) : Inv q w := by
  refine h.move hthreads hmutex hwritten hshut hsock
    (fun data k hk => absurd (hold.symm.trans hk) (by simp)) ?_
  have hplace : q.threads t = pc := by rw [hthreads, Function.update_self]
  constructor
  · intro data k hk
    rw [hplace, hpc.progress] at hk
    cases hk
  · intro data hk
    exact absurd (hplace.symm.trans hk) (hpc.before data)
  · intro data hk
    rw [hplace, hpc.waiting] at hk
    cases hk
  · intro data result hk
    rw [hplace, hpc.result] at hk
    cases hk

/-- A `send` moves on before it writes, or after. -/
theorem Inv.restsAt (h : Inv p w) {pc : Pc} (hthreads : q.threads = Function.update p.threads t pc)
    (hmutex : MovesLock t p.sockMutex q.sockMutex (p.threads t).holdsSock pc.holdsSock)
    (hsame : q.written = p.written ∧ q.shut = p.shut ∧ q.sock = p.sock)
    (hold : (p.threads t).progress? = none) (hpc : pc.progress? = none)
    (hbefore : ∀ data, pc ≠ .checkAlive data)
    (hwaits : ∀ data, pc.waiting? = some data →
      w.sent t = [] ∧ data.length ≤ kMaxFrameLength.toNat)
    (hresult : ∀ data result, pc.result? = some (data, result) →
      (result = true ↔ w.sent t = frame data)) : Inv q w := by
  obtain ⟨hwritten, hshut, hsock⟩ := hsame
  refine h.move hthreads hmutex hwritten (fun c hs => hshut ▸ hs) (.inl hsock)
    (fun data k hk => absurd (hold.symm.trans hk) (by simp)) ?_
  have hplace : q.threads t = pc := by rw [hthreads, Function.update_self]
  refine ⟨fun data k hk => ?_, fun data hk => ?_, ?_, ?_⟩
  · rw [hplace, hpc] at hk
    cases hk
  · exact absurd (hplace.symm.trans hk) (hbefore data)
  · rw [hplace]
    exact hwaits
  · rw [hplace]
    exact hresult

theorem frame_ne_nil (data : List UInt8) : frame data ≠ [] := by
  simp [frame, header]

/-- A `send` that has written nothing returns false. -/
theorem unsent_result {data data' : List UInt8} {result : Bool} (hsent : w.sent t = [])
    (hk : some (data, false) = some (data', result)) :
    (result = true ↔ w.sent t = frame data') := by
  obtain ⟨⟩ := hk
  exact ⟨fun hr => absurd hr (by simp), fun hf => absurd (hsent.symm.trans hf).symm (frame_ne_nil _)⟩

/-- A thread that knows of a frame it is in the midst of. -/
theorem accounted_midway {pc : Pc} {data : List UInt8} {k : ℕ} {c : ConnectionId}
    (hplace : p.threads t = pc) (hpc : pc.progress? = some (data, k))
    (hmid : Midway p w t data k c) : Accounted p w t := by
  refine ⟨fun data' k' hk => ⟨c, ?_⟩, fun _ hk => ?_, fun _ hk => ?_, fun _ _ hk => ?_⟩
  · rw [hplace, hpc] at hk
    obtain ⟨⟩ := hk
    exact hmid
  · rw [hplace] at hk
    exact absurd hpc (by simp [hk, Pc.progress?])
  · rw [hplace, Pc.waiting?_of_progress? hpc] at hk
    cases hk
  · rw [hplace, Pc.result?_of_progress? hpc] at hk
    cases hk

/-- Who has the mutex and finds a connection finds it at the end of a frame, or shut. -/
theorem Inv.firstByte (h : Inv p w) {data : List UInt8} {c : ConnectionId}
    (hpc : p.threads t = .testSock data) (hc : p.sock = some c)
    (hwaits : w.sent t = [] ∧ data.length ≤ kMaxFrameLength.toNat) :
    Accounted (p.goto t (.header data 0)) w t := by
  refine accounted_midway (Function.update_self ..) rfl
    ⟨hc, hwaits.2, List.length_pos_iff.mpr (frame_ne_nil data), hwaits.1,
      fun hk => absurd hk (Nat.lt_irrefl 0), fun _ => ?_⟩
  by_contra hnot
  obtain ⟨hpart, hopen⟩ := not_or.mp hnot
  rcases h.torn c hpart with hshut | ⟨u, data', k, hu, -, -⟩
  · exact hopen hshut
  · have hut : u = t := h.mutex.unique (Pc.holdsSock_of_progress? hu) (by rw [hpc]; rfl)
    rw [hut, hpc] at hu
    exact absurd hu (by simp [Pc.progress?])

/-- **One step of a thread.** -/
theorem Inv.stepThread (h : Inv p w) (hstep : p.stepThread t = some q) : Inv q w := by
  have hself := h.threads t
  cases hpc : p.threads t with
  | idle => simp [Client.stepThread, hpc] at hstep
  | header data offset => simp [Client.stepThread, hpc] at hstep
  | payload data offset => simp [Client.stepThread, hpc] at hstep
  | connect => simp [Client.stepThread, hpc] at hstep
  | checkAlive data =>
    simp only [Client.stepThread, hpc, Option.some.injEq] at hstep
    have hsent := hself.begins data hpc
    split_ifs at hstep with hif
    · subst hstep
      exact h.restsAt rfl (by rw [hpc]; exact .keep) ⟨rfl, rfl, rfl⟩ (by rw [hpc]; rfl) rfl (by simp)
        (fun _ hk => absurd hk (by simp [Pc.waiting?])) fun _ _ hk => unsent_result hsent hk
    · subst hstep
      refine h.restsAt rfl (by rw [hpc]; exact .keep) ⟨rfl, rfl, rfl⟩ (by rw [hpc]; rfl) rfl (by simp)
        (fun _ hk => ?_) fun _ _ hk => absurd hk (by simp [Pc.result?])
      obtain ⟨⟩ := hk
      exact ⟨hsent, Nat.not_lt.mp (not_or.mp hif).2⟩
  | lockSock data =>
    simp only [Client.stepThread, hpc] at hstep
    split_ifs at hstep with hfree
    obtain ⟨⟩ := hstep
    have hwaits := hself.waits data (by rw [hpc]; rfl)
    refine h.restsAt rfl ?_ ⟨rfl, rfl, rfl⟩ (by rw [hpc]; rfl) rfl (by simp) (fun _ hk => ?_)
      fun _ _ hk => absurd hk (by simp [Pc.result?])
    · rw [Option.not_isSome_iff_eq_none.mp hfree]
      exact .lock
    · obtain ⟨⟩ := hk
      exact hwaits
  | testSock data =>
    simp only [Client.stepThread, hpc, Option.some.injEq] at hstep
    have hwaits := hself.waits data (by rw [hpc]; rfl)
    split_ifs at hstep with hsome
    · subst hstep
      obtain ⟨c, hc⟩ := Option.isSome_iff_exists.mp hsome
      refine h.move rfl (by rw [hpc]; exact .keep) rfl (fun _ hs => hs) (.inl rfl)
        (fun _ _ hk => absurd hk (by simp [hpc, Pc.progress?])) (h.firstByte hpc hc hwaits)
    · subst hstep
      exact h.restsAt rfl (by rw [hpc]; exact .keep) ⟨rfl, rfl, rfl⟩ (by rw [hpc]; rfl) rfl (by simp)
        (fun _ hk => absurd hk (by simp [Pc.waiting?])) fun _ _ hk => unsent_result hwaits.1 hk
  | clearAlive data sent =>
    simp only [Client.stepThread, hpc, Option.some.injEq] at hstep
    subst hstep
    obtain ⟨c, hc⟩ := hself.midway data sent (by rw [hpc]; rfl)
    refine h.move rfl (by rw [hpc]; exact .keep) rfl (fun _ hs => hs) (.inl rfl)
      (fun data' k hk _ => .inl ⟨rfl, ?_⟩) ?_
    · rw [hpc] at hk
      exact hk
    · exact accounted_midway (Function.update_self ..) rfl
        ⟨hc.sock, hc.size, hc.short, hc.sent, hc.begun, hc.fresh⟩
  | shutdown data sent =>
    simp only [Client.stepThread, hpc, Option.some.injEq] at hstep
    subst hstep
    obtain ⟨c, hc⟩ := hself.midway data sent (by rw [hpc]; rfl)
    refine h.move rfl (by rw [hpc]; exact .keep) rfl (fun _ hs => by simp [hs]) (.inl rfl)
      (fun _ _ _ _ => .inr fun c' hc' => by simp [hc']) ?_
    have hplace : (p.goto t (.unlockSock data false)).threads t = .unlockSock data false :=
      Function.update_self ..
    refine ⟨fun _ _ hk => ?_, fun _ hk => ?_, fun _ hk => ?_, fun data' result hk => ?_⟩
    · exact absurd ((congrArg Pc.progress? hplace).symm.trans hk) (by simp [Pc.progress?])
    · exact absurd (hplace.symm.trans hk) (by simp)
    · exact absurd ((congrArg Pc.waiting? hplace).symm.trans hk) (by simp [Pc.waiting?])
    · have hk' : some (data, false) = some (data', result) :=
        (congrArg Pc.result? hplace).symm.trans hk
      obtain ⟨⟩ := hk'
      refine ⟨fun hr => absurd hr (by simp), fun hf => ?_⟩
      have hshort := congrArg List.length (hc.sent.symm.trans hf)
      rw [List.length_take] at hshort
      have := hc.short
      omega
  | unlockSock data result =>
    simp only [Client.stepThread, hpc, Option.some.injEq] at hstep
    subst hstep
    refine h.restsAt rfl (by rw [hpc]; exact .unlock) ⟨rfl, rfl, rfl⟩ (by rw [hpc]; rfl) rfl (by simp)
      (fun _ hk => absurd hk (by simp [Pc.waiting?])) fun _ _ hk => ?_
    obtain ⟨⟩ := hk
    exact hself.result _ _ (by rw [hpc]; rfl)
  | returns | startSelfCheck | readRunning | readAlive | reap | setAlive | setRunning |
    unlockLifecycle | clearRunning | selfCheck | join =>
    simp only [Client.stepThread, hpc, Option.some.injEq] at hstep
    subst hstep
    refine h.plain rfl ?_ rfl (fun _ hs => hs) (.inl rfl) (by rw [hpc]; rfl) ?_
    · rw [hpc]
      first | exact .keep | (split_ifs <;> exact .keep)
    · first | exact ⟨rfl, rfl, rfl, by simp⟩ | (split_ifs <;> exact ⟨rfl, rfl, rfl, by simp⟩)
  | startLock | stopLock =>
    simp only [Client.stepThread, hpc] at hstep
    split_ifs at hstep with hfree
    obtain ⟨⟩ := hstep
    exact h.plain rfl (by rw [hpc]; exact .keep) rfl (fun _ hs => hs) (.inl rfl) (by rw [hpc]; rfl)
      ⟨rfl, rfl, rfl, by simp⟩
  | lockClose | lockNew =>
    simp only [Client.stepThread, hpc] at hstep
    split_ifs at hstep with hfree
    obtain ⟨⟩ := hstep
    refine h.plain rfl ?_ rfl (fun _ hs => hs) (.inl rfl) (by rw [hpc]; rfl) ⟨rfl, rfl, rfl, by simp⟩
    rw [Option.not_isSome_iff_eq_none.mp hfree]
    exact .lock
  | close | setSock =>
    simp only [Client.stepThread, hpc, Option.some.injEq] at hstep
    subst hstep
    exact h.plain rfl (by rw [hpc]; exact .keep) rfl (fun _ hs => hs) (.inr (by rw [hpc]; rfl))
      (by rw [hpc]; rfl) ⟨rfl, rfl, rfl, by simp⟩
  | unlockClose | unlockNew =>
    simp only [Client.stepThread, hpc, Option.some.injEq] at hstep
    subst hstep
    refine h.plain rfl ?_ rfl (fun _ hs => hs) (.inl rfl) (by rw [hpc]; rfl) ?_
    · rw [hpc]
      first | exact .unlock | (split_ifs <;> exact .unlock)
    · first | exact ⟨rfl, rfl, rfl, by simp⟩ | (split_ifs <;> exact ⟨rfl, rfl, rfl, by simp⟩)
  | stopShutdown =>
    simp only [Client.stepThread, hpc, Option.some.injEq] at hstep
    subst hstep
    exact h.plain rfl (by rw [hpc]; exact .keep) rfl (fun c hs => by simp [hs]) (.inl rfl)
      (by rw [hpc]; rfl) ⟨rfl, rfl, rfl, by simp⟩

/-- A thread that is given bytes to write is in the midst of a frame. -/
theorem Pc.exists_progress {pc : Pc} {bytes : List UInt8} (h : pc.pending? = some bytes) :
    ∃ data k, pc.progress? = some (data, k) := by
  cases pc with
  | header data offset => exact ⟨data, offset, rfl⟩
  | payload data offset => exact ⟨data, kFrameHeaderSize + offset, rfl⟩
  | _ => exact absurd h (by simp [pending?])

/-- The other threads know of their frames what they knew. -/
theorem Inv.others (h : Inv p w) {w' : Wire} {pc : Pc} {u : ThreadId}
    (hholds : (p.threads t).holdsSock = true) (hthreads : q.threads = Function.update p.threads t pc)
    (hsent : ∀ v, v ≠ t → w'.sent v = w.sent v) (hut : u ≠ t) : Accounted q w' u := by
  have hu := h.threads u
  have hplace : q.threads u = p.threads u := by
    rw [hthreads]
    exact Function.update_of_ne hut ..
  refine ⟨fun data k hk => ?_, ?_, ?_, ?_⟩
  · rw [hplace] at hk
    exact absurd (h.mutex.unique (Pc.holdsSock_of_progress? hk) hholds) hut
  · rw [hplace, hsent u hut]
    exact hu.begins
  · rw [hplace, hsent u hut]
    exact hu.waits
  · rw [hplace, hsent u hut]
    exact hu.result

/-- What a write of the thread `t` on the connection `c` does to the client. -/
structure WritesTo (p q : Client) (t : ThreadId) (c : ConnectionId) (bytes : List UInt8) (pc : Pc) :
    Prop where
  threads : q.threads = Function.update p.threads t pc
  written : q.written = Function.update p.written c (p.written c ++ bytes)
  same : q.sock = p.sock ∧ q.sockMutex = p.sockMutex ∧ q.shut = p.shut

/-- Beginnings of frames on the other connections: nothing changes. -/
theorem Inv.tornElsewhere (h : Inv p w) {c c' : ConnectionId} (hc : p.sock = some c) (hne : c' ≠ c)
    (hpart : w.part c' ≠ []) : p.shut c' = true := by
  refine (h.torn c' hpart).resolve_right ?_
  rintro ⟨u, data, k, -, -, hon⟩
  exact hne (Option.some.inj (hon.symm.trans hc))

/-- A write that does not complete the frame. -/
theorem Inv.further (h : Inv p w) {data bytes : List UInt8} {k n : ℕ} {c : ConnectionId} {pc : Pc}
    (hmid : Midway p w t data k c) (hholds : (p.threads t).holdsSock = true)
    (hpart : w.part c ++ bytes = (frame data).take (k + n))
    (hsent : w.sent t ++ bytes = (frame data).take (k + n)) (hpos : 0 < k + n)
    (hshort : k + n < (frame data).length) (hpc : pc.progress? = some (data, k + n))
    (hq : WritesTo p q t c bytes pc) :
    Inv q { w with
      part := Function.update w.part c (w.part c ++ bytes)
      sent := Function.update w.sent t (w.sent t ++ bytes) } where
  mutex := by
    rw [hq.threads, hq.same.2.1]
    exact h.mutex.update ((Pc.holdsSock_of_progress? hpc).trans hholds.symm)
  threads u := by
    by_cases hut : u = t
    · subst hut
      have hplace : q.threads u = pc := by rw [hq.threads, Function.update_self]
      refine accounted_midway hplace hpc ⟨hq.same.1.trans hmid.sock, hmid.size, hshort, ?_,
        fun _ => ?_, fun hk => absurd hk hpos.ne'⟩
      · exact (Function.update_self ..).trans hsent
      · exact (Function.update_self ..).trans hpart
    · exact h.others hholds hq.threads (fun v hv => Function.update_of_ne hv ..) hut
  torn c' hc' := by
    by_cases hcc : c' = c
    · subst hcc
      refine .inr ⟨t, data, k + n, ?_, hpos, hq.same.1.trans hmid.sock⟩
      rw [hq.threads, Function.update_self]
      exact hpc
    · have hold : w.part c' ≠ [] := fun hnil => hc' ((Function.update_of_ne hcc ..).trans hnil)
      rw [hq.same.2.2]
      exact .inl (h.tornElsewhere hmid.sock hcc hold)
  written c' := by
    rw [hq.written]
    dsimp only
    by_cases hcc : c' = c
    · subst hcc
      rw [Function.update_self, Function.update_self, h.written, List.append_assoc]
    · rw [Function.update_of_ne hcc, Function.update_of_ne hcc, h.written]
  sizes := h.sizes
  proper c' hc' := by
    dsimp only at hc' ⊢
    by_cases hcc : c' = c
    · subst hcc
      rw [Function.update_self, hpart]
      refine ⟨data, hmid.size, List.take_prefix .., fun hfull => ?_⟩
      have hlength := congrArg List.length hfull
      rw [List.length_take] at hlength
      omega
    · rw [Function.update_of_ne hcc] at hc' ⊢
      exact h.proper c' hc'

/-- The write that completes the frame. -/
theorem Inv.completed (h : Inv p w) {data bytes : List UInt8} {k : ℕ} {c : ConnectionId}
    (hmid : Midway p w t data k c) (hholds : (p.threads t).holdsSock = true)
    (hpart : w.part c ++ bytes = frame data) (hsent : w.sent t ++ bytes = frame data)
    (hq : WritesTo p q t c bytes (.unlockSock data true)) :
    Inv q { whole := Function.update w.whole c (w.whole c ++ [data])
            part := Function.update w.part c []
            sent := Function.update w.sent t (w.sent t ++ bytes) } where
  mutex := by
    rw [hq.threads, hq.same.2.1]
    exact h.mutex.update hholds.symm
  threads u := by
    by_cases hut : u = t
    · subst hut
      have hplace : q.threads u = .unlockSock data true := by rw [hq.threads, Function.update_self]
      refine ⟨fun _ _ hk => ?_, fun _ hk => ?_, fun _ hk => ?_, fun data' result hk => ?_⟩
      · rw [hplace] at hk
        exact absurd hk (by simp [Pc.progress?])
      · rw [hplace] at hk
        cases hk
      · rw [hplace] at hk
        exact absurd hk (by simp [Pc.waiting?])
      · rw [hplace] at hk
        obtain ⟨⟩ := hk
        exact ⟨fun _ => (Function.update_self ..).trans hsent, fun _ => rfl⟩
    · exact h.others hholds hq.threads (fun v hv => Function.update_of_ne hv ..) hut
  torn c' hc' := by
    by_cases hcc : c' = c
    · subst hcc
      exact absurd (Function.update_self ..) hc'
    · have hold : w.part c' ≠ [] := fun hnil => hc' ((Function.update_of_ne hcc ..).trans hnil)
      rw [hq.same.2.2]
      exact .inl (h.tornElsewhere hmid.sock hcc hold)
  written c' := by
    rw [hq.written]
    dsimp only
    by_cases hcc : c' = c
    · subst hcc
      rw [Function.update_self, Function.update_self, Function.update_self, h.written,
        List.append_assoc, hpart, List.flatMap_append, List.append_nil]
      simp
    · rw [Function.update_of_ne hcc, Function.update_of_ne hcc, Function.update_of_ne hcc, h.written]
  sizes c' data' hdata' := by
    dsimp only at hdata'
    by_cases hcc : c' = c
    · subst hcc
      rw [Function.update_self, List.mem_append, List.mem_singleton] at hdata'
      rcases hdata' with hold | rfl
      · exact h.sizes c' data' hold
      · exact hmid.size
    · rw [Function.update_of_ne hcc] at hdata'
      exact h.sizes c' data' hdata'
  proper c' hc' := by
    dsimp only at hc' ⊢
    by_cases hcc : c' = c
    · subst hcc
      exact absurd (Function.update_self ..) hc'
    · rw [Function.update_of_ne hcc] at hc' ⊢
      exact h.proper c' hc'

/-- **A write.** -/
theorem Inv.wrote (h : Inv p w) {n : ℕ} (hstep : p.wrote t n = some q) :
    Inv q (wire p (.wrote t n) q w) := by
  unfold Client.wrote at hstep
  split at hstep
  next bytes c hbytes hc =>
    split_ifs at hstep with hif
    obtain ⟨hn, hle, hopen⟩ := hif
    have hq : WritesTo p q t c (bytes.take n) ((p.threads t).wrote n) :=
      Option.some.inj hstep ▸ ⟨rfl, rfl, rfl, rfl, rfl⟩
    obtain ⟨data, k, hk⟩ := Pc.exists_progress hbytes
    have hholds := Pc.holdsSock_of_progress? hk
    obtain ⟨c', hmid⟩ := (h.threads t).midway data k hk
    obtain rfl : c = c' := Option.some.inj (hc.symm.trans hmid.sock)
    have hpart : w.part c = (frame data).take k := by
      rcases Nat.eq_zero_or_pos k with rfl | hpos
      · exact (hmid.fresh rfl).resolve_right (by simp [hopen])
      · exact hmid.begun hpos
    obtain ⟨htake, hnext⟩ := wrote_spec hk hbytes hn hle
    have hsent : w.sent t ++ bytes.take n = (frame data).take (k + n) := by rw [hmid.sent, htake]
    have hbehind : w.part c ++ bytes.take n = (frame data).take (k + n) := by rw [hpart, htake]
    have hwire : wire p (.wrote t n) q w = w.wrote t c data (bytes.take n) := by
      simp only [wire, hk, hbytes, hc]
    rw [hwire, Wire.wrote]
    rcases hnext with ⟨hshort, hgo⟩ | ⟨hfull, hgo⟩
    · have hnot : w.sent t ++ bytes.take n ≠ frame data := by
        rw [hsent]
        intro heq
        have hlength := congrArg List.length heq
        rw [List.length_take] at hlength
        omega
      rw [if_neg hnot]
      exact h.further hmid hholds hbehind hsent (by omega) hshort hgo hq
    · have hall : (frame data).take (k + n) = frame data := by rw [hfull, List.take_length]
      rw [hall] at hsent hbehind
      rw [if_pos hsent]
      rw [hgo] at hq
      exact h.completed hmid hholds hbehind hsent hq
  next => cases hstep

/-- A thread that is in no call has sent nothing that matters. -/
theorem Inv.forget (h : Inv p w) (hidle : p.threads t = .idle) :
    Inv p { w with sent := Function.update w.sent t [] } where
  mutex := h.mutex
  threads u := by
    by_cases hut : u = t
    · subst hut
      refine ⟨fun _ _ hk => ?_, fun _ hk => ?_, fun _ hk => ?_, fun _ _ hk => ?_⟩
      · exact absurd hk (by simp [hidle, Pc.progress?])
      · exact absurd hk (by simp [hidle])
      · exact absurd hk (by simp [hidle, Pc.waiting?])
      · exact absurd hk (by simp [hidle, Pc.result?])
    · have hu := h.threads u
      have hsent : Function.update w.sent t [] u = w.sent u := Function.update_of_ne hut ..
      refine ⟨fun data k hk => ?_, fun data hk => ?_, fun data hk => ?_, fun data result hk => ?_⟩
      · obtain ⟨c, hc⟩ := hu.midway data k hk
        exact ⟨c, hc.sock, hc.size, hc.short, hsent.trans hc.sent, hc.begun, hc.fresh⟩
      · exact hsent.trans (hu.begins data hk)
      · exact ⟨hsent.trans (hu.waits data hk).1, (hu.waits data hk).2⟩
      · rw [hu.result data result hk]
        exact (iff_of_eq (congrArg (· = frame data) hsent)).symm
  torn := h.torn
  written := h.written
  sizes := h.sizes
  proper := h.proper

/-- A thread begins a call. -/
theorem Inv.begin (h : Inv p w) (hidle : p.threads t = .idle) (c : Call) :
    Inv (p.begin t c) { w with sent := Function.update w.sent t [] } := by
  have hforget := h.forget hidle
  have hmutex : ∀ pc : Pc, pc.holdsSock = false →
      MovesLock t p.sockMutex p.sockMutex (p.threads t).holdsSock pc.holdsSock := by
    intro pc hpc
    rw [hidle, hpc]
    exact .keep
  have hidle' : (p.threads t).progress? = none := by rw [hidle]; rfl
  cases c with
  | send data =>
    refine hforget.move rfl (hmutex _ rfl) rfl (fun _ hs => hs) (.inl rfl)
      (fun _ _ hk => absurd (hidle'.symm.trans hk) (by simp)) ?_
    have hplace : (p.goto t (.checkAlive data)).threads t = .checkAlive data :=
      Function.update_self ..
    refine ⟨fun _ _ hk => ?_, fun _ _ => Function.update_self .., fun _ hk => ?_, fun _ _ hk => ?_⟩
    · exact absurd ((congrArg Pc.progress? hplace).symm.trans hk) (by simp [Pc.progress?])
    · exact absurd ((congrArg Pc.waiting? hplace).symm.trans hk) (by simp [Pc.waiting?])
    · exact absurd ((congrArg Pc.result? hplace).symm.trans hk) (by simp [Pc.result?])
  | start =>
    exact hforget.plain rfl (hmutex _ rfl) rfl (fun _ hs => hs) (.inl rfl) hidle'
      ⟨rfl, rfl, rfl, by simp⟩
  | stop =>
    exact hforget.plain rfl (hmutex _ rfl) rfl (fun _ hs => hs) (.inl rfl) hidle'
      ⟨rfl, rfl, rfl, by simp⟩

/-- A failed `::send` leaves the frame where it is. -/
theorem Inv.refused (h : Inv p w) (hsome : (p.threads t).pending?.isSome = true) :
    Inv (p.goto t (p.threads t).refused) w := by
  obtain ⟨bytes, hbytes⟩ := Option.isSome_iff_exists.mp hsome
  obtain ⟨data, k, hk⟩ := Pc.exists_progress hbytes
  have hgo : (p.threads t).refused.progress? = some (data, k) := by
    cases hpc : p.threads t with
    | header data' offset => rwa [hpc] at hk
    | payload data' offset => rwa [hpc] at hk
    | _ => exact absurd hbytes (by simp [hpc, Pc.pending?])
  obtain ⟨c, hmid⟩ := (h.threads t).midway data k hk
  refine h.move rfl ?_ rfl (fun _ hs => hs) (.inl rfl) (fun _ _ hk' _ => .inl ⟨rfl, ?_⟩) ?_
  · rw [Pc.holdsSock_of_progress? hk, Pc.holdsSock_of_progress? hgo]
    exact .keep
  · rw [hgo, ← hk, hk']
  · exact accounted_midway (Function.update_self ..) hgo
      ⟨hmid.sock, hmid.size, hmid.short, hmid.sent, hmid.begun, hmid.fresh⟩

/-- **Every step keeps the invariant.** -/
theorem Inv.step (h : Inv p w) {a : Label} (hstep : p.step a = some q) : Inv q (wire p a q w) := by
  cases a with
  | call t c =>
    simp only [Client.step] at hstep
    split_ifs at hstep with hidle
    obtain ⟨⟩ := hstep
    exact h.begin hidle c
  | step t => exact h.stepThread hstep
  | wrote t n => exact h.wrote hstep
  | interrupted t =>
    simp only [Client.step] at hstep
    split_ifs at hstep
    exact Option.some.inj hstep ▸ h
  | refused t =>
    simp only [Client.step] at hstep
    split_ifs at hstep with hsome
    exact Option.some.inj hstep ▸ h.refused hsome
  | connected t =>
    simp only [Client.step] at hstep
    split_ifs at hstep with hpc
    obtain ⟨⟩ := hstep
    exact h.plain rfl (by rw [hpc]; exact .keep) rfl (fun _ hs => hs) (.inl rfl) (by rw [hpc]; rfl)
      ⟨rfl, rfl, rfl, by simp⟩
  | connectFails t =>
    simp only [Client.step] at hstep
    split_ifs at hstep with hpc
    obtain ⟨⟩ := hstep
    exact h.plain rfl (by rw [hpc]; exact .keep) rfl (fun _ hs => hs) (.inl rfl) (by rw [hpc]; rfl)
      ⟨rfl, rfl, rfl, by simp⟩
  | onWorker t =>
    simp only [Client.step] at hstep
    split_ifs at hstep with hpc
    obtain ⟨⟩ := hstep
    rcases hpc with hpc | hpc <;>
      exact h.plain rfl (by rw [hpc]; exact .keep) rfl (fun _ hs => hs) (.inl rfl)
        (by rw [hpc]; rfl) ⟨rfl, rfl, rfl, by simp⟩
  | dies =>
    obtain ⟨⟩ := hstep
    exact ⟨h.mutex, fun t => ⟨(fun data k hk => by
      obtain ⟨c, hc⟩ := (h.threads t).midway data k hk
      exact ⟨c, hc.sock, hc.size, hc.short, hc.sent, hc.begun, hc.fresh⟩), (h.threads t).begins,
      (h.threads t).waits, (h.threads t).result⟩, h.torn, h.written, h.sizes, h.proper⟩

/-! ## Runs -/

/-- The client with its wires. -/
def clientOnWire : Machine (Client × Wire) Label := client.withHistory {} wire

theorem inductive_inv : clientOnWire.Inductive (fun _ _ => True) fun s => Inv s.1 s.2 where
  init s hs := by
    obtain ⟨hp, hw⟩ := hs
    obtain ⟨p, w⟩ := s
    obtain rfl : p = {} := hp
    obtain rfl : w = {} := hw
    refine ⟨fun t => ⟨fun hh => absurd hh (by simp [Pc.holdsSock]), fun ho => absurd ho (by simp)⟩,
      fun t => ⟨fun _ _ hk => ?_, fun _ hk => ?_, fun _ hk => ?_, fun _ _ hk => ?_⟩,
      fun c hc => absurd rfl hc, fun c => rfl, fun c _ hd => absurd hd (by simp),
      fun c hc => absurd rfl hc⟩
    · exact absurd hk (by simp [Pc.progress?])
    · cases hk
    · exact absurd hk (by simp [Pc.waiting?])
    · exact absurd hk (by simp [Pc.result?])
  step s a s' h _ hstep := by
    obtain ⟨hstep, hwire⟩ := Machine.withHistory_step.mp hstep
    exact hwire ▸ h.step hstep

/-- Nothing but `::send` writes, and nothing opens a connection that is shut. -/
theorem stepThread_frame (hstep : p.stepThread t = some q) :
    q.written = p.written ∧ ∀ c, p.shut c = true → q.shut c = true := by
  cases hpc : p.threads t with
  | idle | header | payload | connect => simp [Client.stepThread, hpc] at hstep
  | lockSock | startLock | lockClose | lockNew | stopLock =>
    simp only [Client.stepThread, hpc] at hstep
    split_ifs at hstep
    exact Option.some.inj hstep ▸ ⟨rfl, fun _ hs => hs⟩
  | checkAlive data =>
    simp only [Client.stepThread, hpc, Option.some.injEq] at hstep
    split_ifs at hstep <;> exact hstep ▸ ⟨rfl, fun _ hs => hs⟩
  | shutdown | stopShutdown =>
    simp only [Client.stepThread, hpc, Option.some.injEq] at hstep
    subst hstep
    exact ⟨rfl, fun _ hs => by simp [hs]⟩
  | _ =>
    simp only [Client.stepThread, hpc, Option.some.injEq] at hstep
    exact hstep ▸ ⟨rfl, fun _ hs => hs⟩

/-- **A connection that is shut** stays shut, and nothing more is written on it. -/
theorem shut_step {a : Label} {c : ConnectionId} (hstep : p.step a = some q)
    (hshut : p.shut c = true) : q.shut c = true ∧ q.written c = p.written c := by
  cases a with
  | wrote t n =>
    simp only [Client.step, Client.wrote] at hstep
    split at hstep
    next bytes c' hbytes hc' =>
      split_ifs at hstep with hif
      obtain ⟨⟩ := hstep
      have hne : c ≠ c' := by
        rintro rfl
        rw [hshut] at hif
        exact absurd hif.2.2 (by simp)
      exact ⟨hshut, Function.update_of_ne hne ..⟩
    next => cases hstep
  | step t => exact ⟨(stepThread_frame hstep).2 c hshut, congrFun (stepThread_frame hstep).1 c⟩
  | call t c' =>
    simp only [Client.step] at hstep
    split_ifs at hstep
    obtain ⟨⟩ := hstep
    cases c' <;> exact ⟨hshut, rfl⟩
  | interrupted t =>
    simp only [Client.step] at hstep
    split_ifs at hstep
    exact Option.some.inj hstep ▸ ⟨hshut, rfl⟩
  | dies =>
    obtain ⟨⟩ := hstep
    exact ⟨hshut, rfl⟩
  | refused t | connected t | connectFails t | onWorker t =>
    simp only [Client.step] at hstep
    split_ifs at hstep
    exact Option.some.inj hstep ▸ ⟨hshut, rfl⟩

theorem written_of_shut {s s' : Client × Wire} {labels : List Label} {c : ConnectionId}
    (hrun : clientOnWire.exec s labels = some s') (hshut : s.1.shut c = true) :
    s'.1.written c = s.1.written c := by
  induction labels generalizing s with
  | nil => exact Option.some.inj hrun ▸ rfl
  | cons a labels ih =>
    obtain ⟨u, hu, hrest⟩ := Option.bind_eq_some_iff.mp hrun
    obtain ⟨hshut', hsame⟩ := shut_step (Machine.withHistory_step.mp hu).1 hshut
    rw [ih hrest hshut', hsame]

/-- **Frames on the wire**, in every state that any interleaving reaches: on each connection stand
whole frames and then at most a beginning of one more; when no `send` is continuing that beginning
nothing more is ever written on the connection; and a `send` returns true exactly if it has written
its whole frame. -/
theorem frames_on_the_wire {s : Client × Wire} (h : clientOnWire.Reachable s) :
    (∀ c, s.1.written c = (s.2.whole c).flatMap frame ++ s.2.part c ∧
      (∀ data ∈ s.2.whole c, data.length ≤ kMaxFrameLength.toNat) ∧
      (s.2.part c ≠ [] → ∃ data : List UInt8, data.length ≤ kMaxFrameLength.toNat ∧
        s.2.part c <+: frame data ∧ s.2.part c ≠ frame data)) ∧
    (∀ c, s.2.part c ≠ [] →
      (∀ t x, (s.1.threads t).progress? = some x → s.1.sock ≠ some c) →
      ∀ labels s', clientOnWire.exec s labels = some s' → s'.1.written c = s.1.written c) ∧
    ∀ t data result, s.1.threads t = .returns data result →
      (result = true ↔ s.2.sent t = frame data) := by
  have hinv : Inv s.1 s.2 := h.invariant inductive_inv
  refine ⟨fun c => ⟨hinv.written c, hinv.sizes c, hinv.proper c⟩, fun c hpart hnone labels s' hrun => ?_,
    fun t data result hpc => (hinv.threads t).result data result (by rw [hpc]; rfl)⟩
  refine written_of_shut hrun ((hinv.torn c hpart).resolve_right ?_)
  rintro ⟨t, data, k, hk, -, hon⟩
  exact hnone t (data, k) hk hon

/-- A `send` is cut short after seven bytes, another has passed its first test before: nothing is
written behind the seven. -/
def cutShort : List Label :=
  [.call 0 .start, .step 0, .step 0, .step 0, .step 0, .step 0, .step 0, .step 0, .connected 0,
    .step 0, .step 0, .step 0, .step 0, .step 0, .step 0,
    .call 1 (.send [7, 8]), .step 1, .call 2 (.send [9]), .step 2, .step 1, .step 1,
    .wrote 1 4, .interrupted 1, .wrote 1 2, .wrote 1 1, .refused 1, .step 1, .step 1, .step 1,
    .step 2, .step 2, .refused 2]

set_option maxRecDepth 4000 in
/-- In the state of `cutShort`. -/
theorem frames_on_the_wire_cutShort :
    ∃ s, clientOnWire.exec ({}, {}) cutShort = some s ∧ s.1.threads 1 = .returns [7, 8] false ∧
      s.2.sent 1 ≠ frame [7, 8] := by
  have hrun : (clientOnWire.exec ({}, {}) cutShort).any
      (fun s => s.1.threads 1 == .returns [7, 8] false) = true := by decide
  obtain ⟨s, hs, hpc⟩ := (Option.any_eq_true _ _).mp hrun
  rw [beq_iff_eq] at hpc
  have hinit : clientOnWire.Reachable ({}, {}) := .init ⟨rfl, rfl⟩
  have hresult := (frames_on_the_wire (.exec hinit hs)).2.2 1 _ _ hpc
  exact ⟨s, hs, hpc, fun hsent => absurd (hresult.mpr hsent) (by simp)⟩

/-! ## The other end -/

open Receiver

/-- **What the other end dispatches** of a connection are the first of the payloads whose frames
stand whole on it, in whatever pieces it reads how much of it; all of them, if it reads all. -/
theorem dispatched_of_written {s : Client × Wire} (h : clientOnWire.Reachable s) (c : ConnectionId)
    (live : ℕ → Bool) {received : List Received} (hbytes : bytesOf received <+: s.1.written c) :
    (recvLoop live {} received).dispatched <+: s.2.whole c ∧
      (recvLoop live {} received).framingViolation = false ∧
      ((∀ k, live k = true) → StaysUp received → bytesOf received = s.1.written c →
        (recvLoop live {} received).dispatched = s.2.whole c) := by
  have hinv : Inv s.1 s.2 := h.invariant inductive_inv
  have hpart : nextFrame (s.2.part c) = .wait := by
    by_cases hnil : s.2.part c = []
    · rw [hnil]
      rfl
    · obtain ⟨data, hsize, hprefix, hne⟩ := hinv.proper c hnil
      have hframe : frames.next (frame data) = .item data [] :=
        List.append_nil (frame data) ▸ nextFrame_frame hsize []
      exact Deframer.next_of_prefix hframe hprefix hne
  have hread : frames.scan (((s.2.whole c).map frame).flatten ++ s.2.part c) =
      ⟨s.2.whole c, false, s.2.part c⟩ :=
    Deframer.scan_encode_append hpart fun data hdata => nextFrame_frame (hinv.sizes c data hdata)
  have hwritten := (List.flatMap_def ▸ hinv.written c :)
  rw [hwritten] at hbytes ⊢
  obtain ⟨hdispatched, hviolation⟩ := dispatched_prefix live hread hbytes
  refine ⟨hdispatched, hviolation, fun hlive hup hall => ?_⟩
  have hscan := (scan_recvLoop hlive hup hasRead_init rfl rfl).1
  rw [List.nil_append, hall, hread] at hscan
  exact hscan.symm

/-- Nothing is dispatched of the seven bytes. -/
theorem dispatched_of_written_cutShort : ∃ s, clientOnWire.exec ({}, {}) cutShort = some s ∧
    (recvLoop (fun _ => true) {} [.data (s.1.written 0)]).dispatched <+: s.2.whole 0 := by
  have hrun : (clientOnWire.exec ({}, {}) cutShort).isSome = true := by decide
  obtain ⟨s, hs⟩ := Option.isSome_iff_exists.mp hrun
  have hinit : clientOnWire.Reachable ({}, {}) := .init ⟨rfl, rfl⟩
  have hbytes : bytesOf [.data (s.1.written 0)] <+: s.1.written 0 := by simp [bytesOf, Received.bytes]
  exact ⟨s, hs, (dispatched_of_written (.exec hinit hs) 0 _ hbytes).1⟩

end TcpClient

end AxonVex
