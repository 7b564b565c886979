import AxonVex.Machinery.WorkerWaits

/-!
# Net/TcpLifecycle — `start` and `stop` of `TcpClient`, and when a `send` is refused

The receive loop runs while `running_` and `connectionAlive_` are set, and clears the second when
`recv` finds the connection closed or broken, when a frame is malformed, and on its way out.  `stop`
clears the first before it locks `lifecycleMutex_`, and a `start` may set it again; but then `stop`
shuts the socket down, with the mutex, and a `recv` on it returns.  So a join ends whatever the
others do.

A `stop` from a callback returns before the loop has ended, with `connectionAlive_` still set: the
next `send` goes out.  In the runs without such a return every `send` after a `stop` is refused, and
in no others (`stop_refuses_iff`).

What `send` does with the socket is in `Net/Sending`.
-/

namespace AxonVex

open Machinery

namespace TcpLifecycle

/-- The atomic flags, and whether a `recv` may block. -/
inductive Flag
  | running
  | connectionAlive
  /-- the socket has not been shut down since it was connected -/
  | sockUp
  deriving DecidableEq, Repr

inductive Call
  | start
  | stop
  /-- `send`, which may find the connection broken -/
  | send (broken : Bool)
  deriving DecidableEq, Repr

def start : List (Stmt Flag) :=
  [.returnOnWorker, .lock, .returnIf [.running, .connectionAlive],
    .ifJoinable 3, .store .running false, .join, .clearId,
    .store .running false, .close, .openOrReturn, .store .sockUp true,
    .store .connectionAlive true, .store .running true, .spawn, .unlock]

def stop : List (Stmt Flag) :=
  [.store .running false, .returnOnWorker, .lock, .store .sockUp false, .ifJoinable 1, .join,
    .clearId, .close, .unlock]

/-- `poisonConnectionLocked`. -/
def poison : List (Stmt Flag) := [.store .connectionAlive false, .store .sockUp false]

def send (broken : Bool) : List (Stmt Flag) :=
  .returnUnless .connectionAlive :: if broken then poison else []

/-- The client and its receive worker.  Message callbacks run in the loop, the error callback for a
connection that has died after it. -/
def client : WorkerClass Flag Call where
  code
    | .start => start
    | .stop => stop
    | .send broken => send broken
  loop := [.running, .connectionAlive]
  fault := some .connectionAlive
  exit := [.connectionAlive]

/-- The flags that a turn of the loop needs to go on to another: it ends where one is cleared. -/
def turning : List Flag := [.running, .connectionAlive, .sockUp]

theorem client_disciplined : client.Disciplined := by
  intro c
  cases c with
  | start => exact ⟨rfl, rfl, rfl, rfl, rfl⟩
  | stop => exact ⟨rfl, rfl, rfl, rfl, rfl⟩
  | send broken => cases broken <;> exact ⟨rfl, rfl, rfl, rfl, rfl⟩

theorem client_locked : client.Locked turning := by
  intro c
  cases c with
  | start => exact ⟨rfl, rfl, rfl⟩
  | stop => exact ⟨rfl, rfl, rfl⟩
  | send broken => cases broken <;> exact ⟨rfl, rfl, rfl⟩

/-! ## Runs -/

/-- `isRunning`. -/
def isRunning (p : Workers Flag) : Bool := p.allSet [.running, .connectionAlive]

/-- A `send` that is called now is refused. -/
def refuses (p : Workers Flag) : Bool := !p.flags .connectionAlive

/-- What has been called. -/
structure Calls where
  /-- the threads in a `start` -/
  starting : List WorkerId := []
  stopping : List WorkerId := []
  /-- a `stop` has returned, and no `start` is under way or has been called since -/
  stopped : Bool := false
  deriving DecidableEq

/-- The call of the thread returns. -/
def Calls.returned (h : Calls) (t : WorkerId) : Calls where
  starting := h.starting.filter (· ≠ t)
  stopping := h.stopping.filter (· ≠ t)
  stopped := h.stopped || (t ∈ h.stopping && h.starting.isEmpty)

/-- Whether the call of the thread that makes the step returns with it. -/
def returns (p : Workers Flag) (a : WorkerLabel Call) (q : Workers Flag) : Bool :=
  (p.threads a.actor).rest? != some [] && (q.threads a.actor).rest? == some []

def record (p : Workers Flag) (a : WorkerLabel Call) (q : Workers Flag) (h : Calls) : Calls :=
  match a with
  | .call t .start => { h with starting := t :: h.starting, stopped := false }
  | .call t .stop => { h with stopping := t :: h.stopping }
  | .call _ (.send _) => h
  | a => if returns p a q then h.returned a.actor else h

/-- The client with what has been called. -/
def machine : Machine (Workers Flag × Calls) (WorkerLabel Call) :=
  Machine.withHistory client.machine {} record

/-- **The worker ends by steps of its own**: a `recv` on a socket that has been shut down returns. -/
inductive Ends (w : WorkerId) : Workers Flag → Prop
  | ended {p : Workers Flag} : p.threads w = .finished → Ends w p
  | step {p q : Workers Flag} : client.step p (.step w) = some q → Ends w q → Ends w p
  | recvReturns {p q : Workers Flag} : p.flags .sockUp = false →
      client.step p (.fault w) = some q → Ends w q → Ends w p

/-- **What is promised of the threads.** -/
structure Safe (p : Workers Flag) : Prop where
  oneLoop : ∀ t u, (p.threads t).alive = true → (p.threads u).alive = true → t = u
  notOverwritten : ∀ t rest, (p.threads t).rest? = some (.spawn :: rest) → p.handle = none
  noSelfJoin : ∀ t rest, (p.threads t).rest? = some (.join :: rest) → p.handle ≠ some t
  closedAfter : ∀ t rest, (p.threads t).rest? = some (.close :: rest) →
    ∀ u, (p.threads u).alive = false
  /-- who waits for the worker waits for one that can end -/
  joinEnds : ∀ t rest, (p.threads t).rest? = some (.join :: rest) → ∀ w, p.handle = some w → Ends w p

/-- **Once a `stop` has returned** the client does not run and refuses to send. -/
def Refused (s : Workers Flag × Calls) : Prop :=
  s.2.stopped = true → isRunning s.1 = false ∧ refuses s.1 = true

/-- A `stop` on the worker returns only when the connection has died, or to a `start` under way. -/
def ReturnsDead (s : Workers Flag × Calls) : WorkerLabel Call → Prop
  | .step t => ∀ rest, (s.1.threads t).rest? = some (.returnOnWorker :: rest) →
      t ∈ s.2.stopping → s.1.workerId = some t → s.2.starting = [] → refuses s.1 = true
  | _ => True

theorem not_isRunning {p : Workers Flag} (h : p.flags .connectionAlive = false) :
    isRunning p = false := by
  simp [isRunning, Workers.allSet, h]

/-! ## The worker ends -/

section Ending

variable {p q : Workers Flag} {w : WorkerId}

/-- The rests of a call on the worker: `start` and `stop` go no further than to the test of the id. -/
def workerRests : List (List (Stmt Flag)) :=
  [[], start, stop, stop.tail, send true, send false, poison, poison.tail]

theorem Ends.clear (h : p.threads w = .clear) : Ends w p := by
  have hstep : client.step p (.step w) = some { p.setThread w .finished with workerId := none } := by
    simp [WorkerClass.step, WorkerClass.stepThread, h]
  exact .step hstep (.ended (Function.update_self ..))

theorem Ends.leave {flags : List Flag} (h : p.threads w = .leave flags) : Ends w p := by
  induction flags generalizing p with
  | nil =>
    have hstep : client.step p (.step w) = some (p.setThread w .clear) := by
      simp [WorkerClass.step, WorkerClass.stepThread, h]
    exact .step hstep (.clear (Function.update_self ..))
  | cons flag flags ih =>
    have hstep : client.step p (.step w) =
        some ((p.store flag false).setThread w (.leave flags)) := by
      simp [WorkerClass.step, WorkerClass.stepThread, h]
    exact .step hstep (ih (Function.update_self ..))

theorem Ends.last (h : p.threads w = .last []) : Ends w p := by
  have hstep : client.step p (.step w) = some (p.setThread w (.leave client.exit)) := by
    simp [WorkerClass.step, WorkerClass.stepThread, h]
  exact .step hstep (.leave (Function.update_self ..))

/-- The condition of the loop is read to its first cleared flag, or to its end. -/
theorem Ends.test {flags : List Flag} (h : p.threads w = .test flags)
    (hbody : p.allSet flags = true → Ends w (p.setThread w (.body []))) : Ends w p := by
  induction flags generalizing p with
  | nil =>
    have hstep : client.step p (.step w) = some (p.setThread w (.body [])) := by
      simp [WorkerClass.step, WorkerClass.stepThread, h]
    exact .step hstep (hbody rfl)
  | cons flag flags ih =>
    cases hset : p.flags flag with
    | false =>
      have hstep : client.step p (.step w) = some (p.setThread w (.leave client.exit)) := by
        simp [WorkerClass.step, WorkerClass.stepThread, h, hset, WorkerClass.afterLoop, client]
      exact .step hstep (.leave (Function.update_self ..))
    | true =>
      have hstep : client.step p (.step w) = some (p.setThread w (.test flags)) := by
        simp [WorkerClass.step, WorkerClass.stepThread, h, hset]
      refine .step hstep (ih (Function.update_self ..) fun hall => ?_)
      have hrest : p.allSet flags = true := hall
      have hsame : (p.setThread w (.test flags)).setThread w (.body []) =
          p.setThread w (.body []) := by
        simp [Workers.setThread]
      rw [hsame]
      exact hbody (List.all_eq_true.mpr fun f hf => by
        rcases List.mem_cons.mp hf with rfl | hmem
        · exact hset
        · exact List.all_eq_true.mp hrest f hmem)

/-- **A turn of the loop ends it** where one of the flags is cleared. -/
theorem Ends.body (h : p.threads w = .body []) (hclear : p.allSet turning = false) : Ends w p := by
  cases hsock : p.flags .sockUp with
  | false =>
    have hstep : client.step p (.fault w) =
        some ((p.store .connectionAlive false).setThread w (.last [])) := by
      simp [WorkerClass.step, client, h]
    exact .recvReturns hsock hstep (.last (Function.update_self ..))
  | true =>
    have hstep : client.step p (.step w) = some (p.setThread w (.test client.loop)) := by
      simp [WorkerClass.step, WorkerClass.stepThread, h]
    refine .step hstep (.test (Function.update_self ..) fun hall => ?_)
    have hloop : p.allSet client.loop = true := hall
    simp [Workers.allSet, client] at hloop
    simp [Workers.allSet, turning, hloop, hsock] at hclear

theorem Ends.test_turning {flags : List Flag} (h : p.threads w = .test flags)
    (hclear : p.allSet turning = false) : Ends w p :=
  .test h fun _ => .body (Function.update_self ..) hclear

/-- No call is left to the worker. -/
theorem Ends.idle (hrest : (p.threads w).rest? = some []) (hw : (p.threads w).isWorker = true)
    (hclear : p.allSet turning = false) : Ends w p := by
  cases hpc : p.threads w with
  | body rest =>
    rw [hpc] at hrest
    exact .body (hpc.trans (congrArg _ (Option.some.inj hrest))) hclear
  | last rest =>
    rw [hpc] at hrest
    exact .last (hpc.trans (congrArg _ (Option.some.inj hrest)))
  | caller rest =>
    rw [hpc] at hw
    exact absurd hw (by simp [WorkerPc.isWorker])
  | _ =>
    rw [hpc] at hrest
    exact absurd hrest (by simp [WorkerPc.rest?])

/-- A statement of a call on the worker. -/
theorem Ends.exec {stmt : Stmt Flag} {rest : List (Stmt Flag)}
    {r : Workers Flag × List (Stmt Flag)} (ht : (p.threads w).rest? = some (stmt :: rest))
    (hexec : p.exec w stmt rest = some r) (h : Ends w (r.1.setRest w r.2)) : Ends w p := by
  refine .step ?_ h
  cases hpc : p.threads w with
  | caller rest' =>
    rw [hpc] at ht
    obtain ⟨⟩ := ht
    simp [WorkerClass.step, WorkerClass.stepThread, hpc, hexec]
  | body rest' =>
    rw [hpc] at ht
    obtain ⟨⟩ := ht
    simp [WorkerClass.step, WorkerClass.stepThread, hpc, hexec]
  | last rest' =>
    rw [hpc] at ht
    obtain ⟨⟩ := ht
    simp [WorkerClass.step, WorkerClass.stepThread, hpc, hexec]
  | _ =>
    rw [hpc] at ht
    exact absurd ht (by simp [WorkerPc.rest?])

/-- The worker in a call, with a flag of `turning` cleared. -/
structure Calling (w : WorkerId) (rest : List (Stmt Flag)) (p : Workers Flag) : Prop where
  rest : (p.threads w).rest? = some rest
  worker : (p.threads w).isWorker = true
  published : p.workerId = some w
  clear : p.allSet turning = false

theorem Calling.setRest {rest rest' : List (Stmt Flag)} (h : Calling w rest p) :
    Calling w rest' (p.setRest w rest') where
  rest := by
    change (Function.update p.threads w _ w).rest? = _
    rw [Function.update_self]
    exact WorkerPc.rest?_withRest h.rest
  worker := by
    change (Function.update p.threads w _ w).isWorker = true
    rw [Function.update_self, WorkerPc.isWorker_withRest]
    exact h.worker
  published := h.published
  clear := h.clear

theorem Calling.store {rest : List (Stmt Flag)} {flag : Flag} (h : Calling w rest p) :
    Calling w rest (p.store flag false) :=
  { h with clear := Workers.allSet_store_false (by cases flag <;> simp [turning]) }

theorem Calling.nil (h : Calling w [] p) : Ends w p := .idle h.rest h.worker h.clear

/-- The worker clears flags, in a call. -/
theorem Calling.clears {flag : Flag} {rest : List (Stmt Flag)}
    (h : Calling w (.store flag false :: rest) p)
    (hrest : ∀ q, Calling w rest q → Ends w q) : Ends w p :=
  .exec h.rest rfl (hrest _ h.store.setRest)

/-- At the test of its id the worker returns. -/
theorem Calling.selfTest {rest : List (Stmt Flag)} (h : Calling w (.returnOnWorker :: rest) p)
    (hheld : Stmt.held rest = false) : Ends w p := by
  have hexec : p.exec w .returnOnWorker rest = some (p, []) := by
    simp [Workers.exec, h.published, Stmt.unwind, hheld]
  exact .exec h.rest hexec h.setRest.nil

/-- The worker goes on if a flag is set, and returns if not. -/
theorem Calling.guarded {flag : Flag} {rest : List (Stmt Flag)}
    (h : Calling w (.returnUnless flag :: rest) p) (hheld : Stmt.held rest = false)
    (hrest : ∀ q, Calling w rest q → Ends w q) : Ends w p := by
  cases hset : p.flags flag with
  | false =>
    have hexec : p.exec w (.returnUnless flag) rest = some (p, []) := by
      simp [Workers.exec, hset, Stmt.unwind, hheld]
    exact .exec h.rest hexec h.setRest.nil
  | true =>
    have hexec : p.exec w (.returnUnless flag) rest = some (p, rest) := by
      simp [Workers.exec, hset]
    exact .exec h.rest hexec (hrest _ h.setRest)

/-- **A call on the worker returns, and then the worker ends.** -/
theorem Calling.ends {rest : List (Stmt Flag)} (h : Calling w rest p) (hmem : rest ∈ workerRests) :
    Ends w p := by
  have hsock (q : Workers Flag) (hq : Calling w poison.tail q) : Ends w q :=
    hq.clears fun _ hr => hr.nil
  have hpoison (q : Workers Flag) (hq : Calling w poison q) : Ends w q := hq.clears hsock
  simp only [workerRests, List.mem_cons, List.not_mem_nil, or_false] at hmem
  rcases hmem with rfl | rfl | rfl | rfl | rfl | rfl | rfl | rfl
  · exact h.nil
  · exact h.selfTest rfl
  · exact h.clears fun _ hq => hq.selfTest rfl
  · exact h.selfTest rfl
  · exact h.guarded rfl hpoison
  · exact h.guarded rfl fun _ hq => hq.nil
  · exact hpoison p h
  · exact hsock p h

/-- **The worker ends**, wherever it is, once a flag of `turning` is cleared. -/
theorem ends_of_clear (hw : (p.threads w).isWorker = true) (hclear : p.allSet turning = false)
    (hid : (p.threads w).published = true → p.workerId = some w)
    (hrests : ∀ rest, (p.threads w).rest? = some rest → rest ∈ workerRests) : Ends w p := by
  have hcall {rest : List (Stmt Flag)} (hr : (p.threads w).rest? = some rest) : Ends w p :=
    Calling.ends ⟨hr, hw, hid (WorkerPc.published_of_rest? hw hr), hclear⟩ (hrests rest hr)
  cases hpc : p.threads w with
  | absent =>
    rw [hpc] at hw
    exact absurd hw (by simp [WorkerPc.isWorker])
  | caller =>
    rw [hpc] at hw
    exact absurd hw (by simp [WorkerPc.isWorker])
  | publish =>
    have hstep : client.step p (.step w) =
        some { p.setThread w (.test client.loop) with workerId := some w } := by
      simp [WorkerClass.step, WorkerClass.stepThread, hpc]
    exact .step hstep (.test_turning (Function.update_self ..) hclear)
  | test flags => exact .test_turning hpc hclear
  | body rest => exact hcall (by rw [hpc]; rfl)
  | last rest => exact hcall (by rw [hpc]; rfl)
  | leave flags => exact .leave hpc
  | clear => exact .clear hpc
  | finished => exact .ended hpc

end Ending

/-! ## The invariant -/

/-- The worker has cleared `connectionAlive_` on its way out. -/
def isGone : WorkerPc Flag → Bool
  | .leave [] => true
  | .clear => true
  | .finished => true
  | _ => false

/-- After `connectionAlive_` is set, `running_` is set and the worker is created. -/
def fresh : List (Stmt Flag) → Bool
  | [] => true
  | stmt :: rest =>
    (stmt != .store .connectionAlive true || rest == [.store .running true, .spawn, .unlock]) &&
      fresh rest

/-- A `start` has set `connectionAlive_`, and not yet created the worker. -/
def Window (p : Workers Flag) : Prop :=
  ∃ t, (p.threads t).rest? = some [.store .running true, .spawn, .unlock] ∨
    (p.threads t).rest? = some [.spawn, .unlock]

/-- **The invariant.** -/
structure Inv (p : Workers Flag) (h : Calls) : Prop where
  custody : client.Custody p
  identity : WorkerClass.Identity p
  waits : WorkerClass.Waits turning p
  leaves : client.LeavesWithExit p
  /-- no flag is exchanged -/
  plain : ∀ t rest flag, (p.threads t).rest? = some rest → .returnIfExchanged flag ∉ rest
  worker : ∀ t rest, (p.threads t).rest? = some rest → (p.threads t).isWorker = true →
    rest ∈ workerRests
  window : ∀ t rest, (p.threads t).rest? = some rest → fresh rest = true
  starting : ∀ t rest, (p.threads t).rest? = some rest → .store .connectionAlive true ∈ rest →
    t ∈ h.starting
  stopping : ∀ t ∈ h.stopping, ∃ rest, (p.threads t).rest? = some rest ∧ rest ≠ [] ∧
    rest <:+ stop ∧ (rest = [.unlock] → p.handle = none)
  gone : ∀ t, isGone (p.threads t) = true → p.flags .connectionAlive = false
  alive : p.flags .connectionAlive = true → Window p ∨ p.handle ≠ none
  quiet : h.stopped = true → h.starting = []

section Steps

variable {p q : Workers Flag} {h : Calls} {t u : WorkerId} {rest : List (Stmt Flag)}
  {a : WorkerLabel Call}

/-- **How a `stop` goes on.** -/
inductive StopStep (p : Workers Flag) (t : WorkerId) (q : Workers Flag) : Prop
  | goes {rest : List (Stmt Flag)} : (q.threads t).rest? = some rest → rest ≠ [] → rest <:+ stop →
      (rest = [.unlock] → q.handle = none) → StopStep p t q
  /-- it returns on the worker -/
  | deferred {rest : List (Stmt Flag)} : (p.threads t).rest? = some (.returnOnWorker :: rest) →
      p.workerId = some t → (q.threads t).rest? = some [] → q.flags = p.flags → StopStep p t q
  | done : (p.threads t).rest? = some [.unlock] → (q.threads t).rest? = some [] →
      q.flags = p.flags → StopStep p t q

/-- Only its next statement can move a thread in a `stop`. -/
theorem stop_actor (ht : (p.threads t).rest? = some rest) (hne : rest ≠ []) (hrest : rest <:+ stop)
    (hat : a.actor = t) (hstep : client.step p a = some q) : a = .step t := by
  obtain ⟨stmt, rest', rfl⟩ := List.exists_cons_of_ne_nil hne
  rcases WorkerClass.actor_cases hstep (hat.symm ▸ ht) with hact | ⟨rfl, -⟩ | ⟨rfl, -⟩
  · exact hat ▸ hact
  · simp [stop, List.suffix_cons_iff] at hrest
  · simp [stop, List.suffix_cons_iff] at hrest

/-- The rest of a thread after a statement. -/
theorem rest?_setRest (r : Workers Flag × List (Stmt Flag)) (ht : (r.1.threads t).rest? = some rest) :
    ((r.1.setRest t r.2).threads t).rest? = some r.2 := by
  change (Function.update r.1.threads t _ t).rest? = _
  rw [Function.update_self]
  exact WorkerPc.rest?_withRest ht

theorem stop_step (hC : client.Custody p) (ht : (p.threads t).rest? = some rest) (hne : rest ≠ [])
    (hrest : rest <:+ stop) (hstep : client.step p (.step t : WorkerLabel Call) = some q) :
    StopStep p t q := by
  cases WorkerClass.threadStep hstep with
  | moved _ hidle => exact absurd (hidle _ ht) hne
  | left hpc =>
    rw [hpc] at ht
    exact absurd ht (by simp [WorkerPc.rest?])
  | @ran stmt rest' r hr hexec =>
    obtain rfl := Option.some.inj (ht.symm.trans hr)
    have hself : (r.1.threads t).rest? = some (stmt :: rest') := by
      rcases Workers.threads_exec hexec t with hsame | ⟨hended, -⟩
      · rw [hsame, hr]
      · rw [hended] at hr
        exact absurd hr (by simp [WorkerPc.rest?])
    have hq : ((r.1.setRest t r.2).threads t).rest? = some r.2 := rest?_setRest r hself
    have htail : rest' <:+ stop := (List.suffix_cons ..).trans hrest
    simp only [stop, List.suffix_cons_iff, List.cons.injEq, List.suffix_nil, reduceCtorEq,
      or_false] at hrest
    rcases hrest with ⟨rfl, rfl⟩ | ⟨rfl, rfl⟩ | ⟨rfl, rfl⟩ | ⟨rfl, rfl⟩ | ⟨rfl, rfl⟩ | ⟨rfl, rfl⟩ |
      ⟨rfl, rfl⟩ | ⟨rfl, rfl⟩ | ⟨rfl, rfl⟩
    · obtain ⟨⟩ := hexec
      exact .goes hq (by simp) htail (by simp)
    · by_cases hid : p.workerId = some t
      · obtain ⟨⟩ := hexec
        refine .deferred hr hid (hq.trans ?_) rfl
        simp [hid, Stmt.unwind, Stmt.held]
      · obtain ⟨⟩ := hexec
        exact .goes hq (by simp [hid]) (by simpa [hid] using htail) (by simp [hid])
    · simp only [Workers.exec] at hexec
      split_ifs at hexec
      obtain ⟨⟩ := hexec
      exact .goes hq (by simp) htail (by simp)
    · obtain ⟨⟩ := hexec
      exact .goes hq (by simp) htail (by simp)
    · obtain ⟨⟩ := hexec
      by_cases hjoin : p.handle.isSome
      · exact .goes hq (by simp [hjoin]) (by simpa [hjoin] using htail) (by simp [hjoin])
      · refine .goes hq (by simp [hjoin]) ?_ (by simp [hjoin])
        simp only [hjoin]
        exact (List.drop_suffix 1 _).trans htail
    · obtain ⟨p', hp', rfl⟩ := Option.map_eq_some_iff.mp hexec
      exact .goes hq (by simp) htail (by simp)
    · obtain ⟨⟩ := hexec
      exact .goes hq (by simp) htail (by simp)
    · obtain ⟨⟩ := hexec
      exact .goes hq (by simp) htail fun _ => hC.noWorker t _ hr rfl
    · obtain ⟨⟩ := hexec
      exact .done hr hq rfl

/-- Of the calls only `start` sets `connectionAlive_`, and none exchanges a flag. -/
theorem mem_code {c : Call} : .store .connectionAlive true ∈ client.code c → c = .start := by
  cases c with
  | start => exact fun _ => rfl
  | stop => simp [client, stop]
  | send broken => cases broken <;> simp [client, send, poison]

theorem exchanged_notMem_code (c : Call) (flag : Flag) : .returnIfExchanged flag ∉ client.code c := by
  cases c with
  | start => simp [client, start]
  | stop => simp [client, stop]
  | send broken => cases broken <;> simp [client, send, poison]

/-- Who is in a `start` still is, but for the thread whose call returns. -/
theorem mem_starting (ht : t ∈ h.starting) (hq : (q.threads t).rest? = some rest) (hne : rest ≠ []) :
    t ∈ (record p a q h).starting := by
  have hstays : t ∈ (if returns p a q then h.returned a.actor else h).starting := by
    split_ifs with hret
    · refine List.mem_filter.mpr ⟨ht, decide_eq_true fun hat => ?_⟩
      rw [returns, ← hat, hq, Bool.and_eq_true, beq_iff_eq] at hret
      exact hne (Option.some.inj hret.2)
    · exact ht
  cases a with
  | call v c =>
    cases c with
    | start => exact List.mem_cons_of_mem _ ht
    | stop => exact ht
    | send => exact ht
  | _ => exact hstays

/-- Who is in a `stop` was, or has just called it. -/
theorem mem_stopping (ht : t ∈ (record p a q h).stopping) :
    a = .call t .stop ∨ t ∈ h.stopping ∧ (a.actor = t → returns p a q = false) ∨
      (∃ v c, a = .call v c) ∧ t ∈ h.stopping := by
  have hstays (hmem : t ∈ (if returns p a q then h.returned a.actor else h).stopping) :
      t ∈ h.stopping ∧ (a.actor = t → returns p a q = false) := by
    split_ifs at hmem with hret
    · obtain ⟨hold, hat⟩ := List.mem_filter.mp hmem
      exact ⟨hold, fun heq => absurd heq.symm (of_decide_eq_true hat)⟩
    · exact ⟨hmem, fun _ => by simpa using hret⟩
  cases a with
  | call v c =>
    cases c with
    | start => exact .inr (.inr ⟨⟨v, _, rfl⟩, ht⟩)
    | stop =>
      rcases List.mem_cons.mp ht with rfl | hold
      · exact .inl rfl
      · exact .inr (.inr ⟨⟨v, _, rfl⟩, hold⟩)
    | send => exact .inr (.inr ⟨⟨v, _, rfl⟩, ht⟩)
  | _ => exact .inr (.inl (hstays ht))

/-- A `stop` that returns when no `start` is under way is what stops the client. -/
theorem stopped_cases (hs : (record p a q h).stopped = true) : h.stopped = true ∨
    returns p a q = true ∧ a.actor ∈ h.stopping ∧ h.starting = [] := by
  have hcases (hs : (if returns p a q then h.returned a.actor else h).stopped = true) :
      h.stopped = true ∨ returns p a q = true ∧ a.actor ∈ h.stopping ∧ h.starting = [] := by
    split_ifs at hs with hret
    · simp only [Calls.returned, Bool.or_eq_true, Bool.and_eq_true, decide_eq_true_eq,
        List.isEmpty_iff] at hs
      exact hs.imp_right fun hs => ⟨hret, hs⟩
    · exact .inl hs
  cases a with
  | call v c =>
    cases c with
    | start => exact absurd hs (by simp [record])
    | stop => exact .inl hs
    | send => exact .inl hs
  | _ => exact hcases hs

/-- No `start` is under way, and none is called. -/
theorem starting_nil (hs : (record p a q h).stopped = true) (hnil : h.starting = []) :
    (record p a q h).starting = [] := by
  have hkeeps : (if returns p a q then h.returned a.actor else h).starting = [] := by
    split_ifs
    · simp [Calls.returned, hnil]
    · exact hnil
  cases a with
  | call v c =>
    cases c with
    | start => exact absurd hs (by simp [record])
    | stop => exact hnil
    | send => exact hnil
  | _ => exact hkeeps

theorem Inv.unreplaced (hI : Inv p h) : WorkerClass.Unreplaced p a := by
  cases a with
  | step t =>
    intro flag rest ht
    exact absurd (List.mem_cons_self ..) (hI.plain t _ flag ht)
  | _ => trivial

theorem Inv.plain_step (hI : Inv p h) (hstep : client.step p a = some q) (flag : Flag)
    (hr : (q.threads u).rest? = some rest) : .returnIfExchanged flag ∉ rest := by
  intro hmem
  rcases WorkerClass.mem_of_step hstep hr hmem rfl with ⟨rest', hold, hmem'⟩ | ⟨c, -, hcode⟩
  · exact hI.plain u _ flag hold hmem'
  · exact exchanged_notMem_code c flag hcode

/-- A statement on the worker leaves a rest as it may have one. -/
theorem Inv.workerRests_exec (hI : Inv p h) {stmt : Stmt Flag}
    (ht : (p.threads t).rest? = some (stmt :: rest)) (hw : (p.threads t).isWorker = true)
    {r : Workers Flag × List (Stmt Flag)} (hexec : p.exec t stmt rest = some r) :
    r.2 ∈ workerRests := by
  have hself : p.workerId = some t :=
    (hI.identity.workerId t).mp (WorkerPc.published_of_rest? hw ht)
  have hmem := hI.worker t _ ht hw
  simp only [workerRests, start, stop, send, poison, List.tail_cons, List.mem_cons, List.cons.injEq,
    List.not_mem_nil, reduceCtorEq, or_false, false_or, if_true, Bool.false_eq_true, if_false] at hmem
  rcases hmem with ⟨rfl, rfl⟩ | ⟨rfl, rfl⟩ | ⟨rfl, rfl⟩ | ⟨rfl, rfl⟩ | ⟨rfl, rfl⟩ | ⟨rfl, rfl⟩ |
    ⟨rfl, rfl⟩
  · obtain ⟨⟩ := hexec
    simp [hself, Stmt.unwind, Stmt.held, workerRests]
  · obtain ⟨⟩ := hexec
    simp [workerRests, stop]
  · obtain ⟨⟩ := hexec
    simp [hself, Stmt.unwind, Stmt.held, workerRests]
  · obtain ⟨⟩ := hexec
    dsimp only
    split_ifs
    · simp [workerRests, poison]
    · simp [workerRests, Stmt.unwind, Stmt.held]
  · obtain ⟨⟩ := hexec
    dsimp only
    split_ifs
    · simp [workerRests]
    · simp [workerRests, Stmt.unwind, Stmt.held]
  · obtain ⟨⟩ := hexec
    simp [workerRests, poison]
  · obtain ⟨⟩ := hexec
    simp [workerRests]

theorem Inv.worker_step (hI : Inv p h) (hstep : client.step p a = some q)
    (hr : (q.threads u).rest? = some rest) (hw : (q.threads u).isWorker = true) :
    rest ∈ workerRests := by
  have hwas : (p.threads u).isWorker = true := WorkerClass.isWorker_of_step hstep hr hw
  cases WorkerClass.rest_step hstep hr with
  | kept hold => exact hI.worker u _ hold hwas
  | empty => simp [workerRests]
  | @called c =>
    cases c with
    | start => simp [workerRests, client]
    | stop => simp [workerRests, client]
    | send broken => cases broken <;> simp [workerRests, client]
  | ran ht _ hexec => exact hI.workerRests_exec ht hwas hexec
  | opened ht =>
    have hmem := hI.worker u _ ht hwas
    simp [workerRests, start, stop, send, poison] at hmem
  | spawned ht =>
    have hmem := hI.worker u _ ht hwas
    simp [workerRests, start, stop, send, poison] at hmem

theorem Inv.starting_step (hI : Inv p h) (hstep : client.step p a = some q)
    (hr : (q.threads u).rest? = some rest) (hmem : .store .connectionAlive true ∈ rest) :
    u ∈ (record p a q h).starting := by
  have hne : rest ≠ [] := List.ne_nil_of_mem hmem
  rcases WorkerClass.mem_of_step hstep hr hmem rfl with ⟨rest', hold, hmem'⟩ | ⟨c, rfl, hcode⟩
  · exact mem_starting (hI.starting u _ hold hmem') hr hne
  · obtain rfl := mem_code hcode
    exact List.mem_cons_self ..

/-- Who holds the mutex is in the way of every other. -/
theorem Inv.stopping_step (hI : Inv p h) (hstep : client.step p a = some q)
    (ht : t ∈ (record p a q h).stopping) : ∃ rest, (q.threads t).rest? = some rest ∧ rest ≠ [] ∧
      rest <:+ stop ∧ (rest = [.unlock] → q.handle = none) := by
  have hother (hold : t ∈ h.stopping) (hat : a.actor ≠ t) : ∃ rest,
      (q.threads t).rest? = some rest ∧ rest ≠ [] ∧ rest <:+ stop ∧
        (rest = [.unlock] → q.handle = none) := by
    obtain ⟨rest, hrest, hne, hsuffix, hnone⟩ := hI.stopping t hold
    refine ⟨rest, WorkerClass.rest?_other hstep hat hrest, hne, hsuffix, fun hunlock => ?_⟩
    have hholds : (p.threads t).holds = true := by
      rw [WorkerPc.holds_of_rest? hrest, hunlock]
      rfl
    exact hI.custody.handle_none hstep hholds hat (hnone hunlock)
  rcases mem_stopping ht with rfl | ⟨hold, hstays⟩ | ⟨⟨v, c, rfl⟩, hold⟩
  · simp only [WorkerClass.step] at hstep
    split_ifs at hstep with hidle
    obtain ⟨⟩ := hstep
    refine ⟨stop, ?_, by simp [stop], List.suffix_rfl, by simp [stop]⟩
    change (Function.update p.threads t _ t).rest? = some stop
    rw [Function.update_self]
    exact WorkerPc.rest?_withRest hidle
  · by_cases hat : a.actor = t
    · obtain ⟨rest, hrest, hne, hsuffix, -⟩ := hI.stopping t hold
      obtain rfl := stop_actor hrest hne hsuffix hat hstep
      have hback (hq : (q.threads t).rest? = some []) : False := by
        have hret := hstays hat
        simp only [returns, WorkerLabel.actor, hq, hrest, beq_self_eq_true, Bool.and_true,
          bne_eq_false_iff_eq] at hret
        exact hne (Option.some.inj hret)
      cases stop_step hI.custody hrest hne hsuffix hstep with
      | goes hq hne' hsuffix' hnone => exact ⟨_, hq, hne', hsuffix', hnone⟩
      | deferred _ _ hq => exact (hback hq).elim
      | done _ hq => exact (hback hq).elim
    · exact hother hold hat
  · refine hother hold fun hvt => ?_
    obtain ⟨rest, hrest, hne, hsuffix, -⟩ := hI.stopping t hold
    exact absurd (stop_actor hrest hne hsuffix hvt hstep) (by simp)

theorem fresh_cons {stmt : Stmt Flag} : fresh (stmt :: rest) = true ↔
    (stmt = .store .connectionAlive true → rest = [.store .running true, .spawn, .unlock]) ∧
      fresh rest = true := by
  rw [fresh, Bool.and_eq_true, Bool.or_eq_true, bne_iff_ne, beq_iff_eq, ne_eq, imp_iff_not_or]

theorem fresh_drop (hf : fresh rest = true) (n : ℕ) : fresh (rest.drop n) = true := by
  induction rest generalizing n with
  | nil => simpa using hf
  | cons stmt rest ih =>
    cases n with
    | zero => exact hf
    | succ n => exact ih (fresh_cons.mp hf).2 n

theorem fresh_unwind : fresh (Stmt.unwind rest) = true := by
  unfold Stmt.unwind
  split_ifs <;> rfl

theorem fresh_next {stmt : Stmt Flag} {rest' : List (Stmt Flag)} (hnext : Stmt.Next stmt rest rest')
    (hf : fresh (stmt :: rest) = true) : fresh rest' = true := by
  have hrest := (fresh_cons.mp hf).2
  cases hnext with
  | goOn => exact hrest
  | back => exact fresh_unwind
  | skip => exact fresh_drop hrest _
  | further => exact fresh_cons.mpr ⟨fun heq => absurd heq (by simp), hrest⟩

theorem Inv.fresh_step (hI : Inv p h) (hstep : client.step p a = some q)
    (hr : (q.threads u).rest? = some rest) : fresh rest = true := by
  cases WorkerClass.rest_step hstep hr with
  | kept hold => exact hI.window u _ hold
  | empty => rfl
  | @called c =>
    cases c with
    | start => rfl
    | stop => rfl
    | send broken => cases broken <;> rfl
  | ran ht _ hexec => exact fresh_next (Workers.next_exec hexec) (hI.window u _ ht)
  | opened => exact fresh_unwind
  | spawned ht => exact (fresh_cons.mp (hI.window u _ ht)).2

/-- A step that sets `connectionAlive_` is one of a `start`, which then creates the worker. -/
theorem Inv.sets_alive (hI : Inv p h) (hstep : client.step p a = some q)
    (hp : p.flags .connectionAlive = false) (hq : q.flags .connectionAlive = true) :
    ∃ t, a = .step t ∧ (p.threads t).rest? =
      some [.store .connectionAlive true, .store .running true, .spawn, .unlock] := by
  rcases WorkerClass.flags_step hstep .connectionAlive with hsame | hwrites
  · rw [hsame, hp] at hq
    exact absurd hq (by simp)
  · rw [hq] at hwrites
    cases hwrites with
    | @stored t _ rest ht =>
      obtain rfl := (fresh_cons.mp (hI.window _ _ ht)).1 rfl
      exact ⟨t, rfl, ht⟩
    | exchanged ht => exact absurd (List.mem_cons_self ..) (hI.plain _ _ _ ht)

theorem isWorker_of_isGone {pc : WorkerPc Flag} (hg : isGone pc = true) : pc.isWorker = true := by
  cases pc <;> first | rfl | exact absurd hg (by simp [isGone])

/-- One thread is put at another place. -/
theorem isGone_update {pc : WorkerPc Flag} (hpc : isGone pc = false)
    (hg : isGone (Function.update p.threads t pc u) = true) : isGone (p.threads u) = true := by
  by_cases hut : u = t
  · subst hut
    rw [Function.update_self, hpc] at hg
    exact absurd hg (by simp)
  · rwa [Function.update_of_ne hut] at hg

/-- A thread that can call is not gone. -/
theorem isGone_of_rest? {pc : WorkerPc Flag} {rest' : List (Stmt Flag)}
    (hpc : pc.rest? = some rest) : isGone (pc.withRest rest') = false := by
  cases pc <;> first | rfl | exact absurd hpc (by simp [WorkerPc.rest?])

theorem isGone_withRest (pc : WorkerPc Flag) : isGone (pc.withRest rest) = isGone pc := by
  cases pc <;> rfl

/-- A thread goes on in a call. -/
theorem isGone_exec {r : Workers Flag × List (Stmt Flag)} {stmt : Stmt Flag}
    (hexec : p.exec t stmt rest = some r) (hg : isGone ((r.1.setRest t r.2).threads u) = true) :
    isGone (p.threads u) = true := by
  have hold (hr : isGone (r.1.threads u) = true) : isGone (p.threads u) = true := by
    rcases Workers.threads_exec hexec u with hsame | ⟨hended, -⟩
    · rwa [← hsame]
    · rw [hended]
      rfl
  change isGone (Function.update r.1.threads t _ u) = true at hg
  by_cases hut : u = t
  · subst hut
    rw [Function.update_self, isGone_withRest] at hg
    exact hold hg
  · rw [Function.update_of_ne hut] at hg
    exact hold hg

/-- **The worker clears `connectionAlive_` before it is gone.** -/
theorem gone_of_step (hl : client.LeavesWithExit p) (hstep : client.step p a = some q)
    (hg : isGone (q.threads u) = true) :
    isGone (p.threads u) = true ∨ q.flags .connectionAlive = false := by
  cases a with
  | step t =>
    simp only [WorkerClass.step, WorkerClass.stepThread] at hstep
    split at hstep
    · cases hstep
    · cases hstep
    · obtain ⟨r, hr, rfl⟩ := Option.map_eq_some_iff.mp hstep
      exact .inl (isGone_exec hr hg)
    · exact .inl (isGone_update rfl (Option.some.inj hstep ▸ hg))
    · exact .inl (isGone_update rfl (Option.some.inj hstep ▸ hg))
    · obtain ⟨⟩ := hstep
      refine .inl (isGone_update ?_ hg)
      split_ifs <;> rfl
    · exact .inl (isGone_update rfl (Option.some.inj hstep ▸ hg))
    · obtain ⟨r, hr, rfl⟩ := Option.map_eq_some_iff.mp hstep
      exact .inl (isGone_exec hr hg)
    · exact .inl (isGone_update rfl (Option.some.inj hstep ▸ hg))
    · obtain ⟨r, hr, rfl⟩ := Option.map_eq_some_iff.mp hstep
      exact .inl (isGone_exec hr hg)
    · next hpc =>
      obtain ⟨⟩ := hstep
      by_cases hut : u = t
      · subst hut
        exact .inl (by rw [hpc]; rfl)
      · have hold : isGone (Function.update p.threads t .clear u) = true := hg
        rw [Function.update_of_ne hut] at hold
        exact .inl hold
    · next flag flags hpc =>
      obtain ⟨⟩ := hstep
      obtain rfl : flag = .connectionAlive := by
        have hmem := (hl t _ hpc).subset (List.mem_cons_self ..)
        simpa [client] using hmem
      have hclear : Function.update p.flags .connectionAlive false .connectionAlive = false :=
        Function.update_self ..
      exact .inr hclear
    · next hpc =>
      obtain ⟨⟩ := hstep
      by_cases hut : u = t
      · subst hut
        exact .inl (by rw [hpc]; rfl)
      · have hold : isGone (Function.update p.threads t .finished u) = true := hg
        rw [Function.update_of_ne hut] at hold
        exact .inl hold
    · cases hstep
  | arrive t =>
    simp only [WorkerClass.step] at hstep
    split_ifs at hstep
    exact .inl (isGone_update rfl (Option.some.inj hstep ▸ hg))
  | depart t =>
    simp only [WorkerClass.step] at hstep
    split_ifs at hstep
    exact .inl (isGone_update rfl (Option.some.inj hstep ▸ hg))
  | call t c =>
    simp only [WorkerClass.step] at hstep
    split_ifs at hstep with ht
    obtain ⟨⟩ := hstep
    refine .inl (isGone_update ?_ hg)
    exact isGone_of_rest? ht
  | openFails t =>
    simp only [WorkerClass.step] at hstep
    split at hstep
    next rest ht =>
      obtain ⟨⟩ := hstep
      refine .inl (isGone_update ?_ hg)
      exact isGone_of_rest? ht
    next => exact absurd hstep (by simp)
  | spawn t new =>
    simp only [WorkerClass.step] at hstep
    split at hstep
    next rest ht =>
      split_ifs at hstep
      obtain ⟨⟩ := hstep
      have hpublish : isGone (.publish : WorkerPc Flag) = false := rfl
      refine .inl (isGone_update ?_ (isGone_update hpublish hg))
      exact isGone_of_rest? ht
    next => exact absurd hstep (by simp)
  | fault t =>
    simp only [WorkerClass.step, client, Option.bind_some] at hstep
    split_ifs at hstep
    obtain ⟨⟩ := hstep
    have hlast : isGone (.last [] : WorkerPc Flag) = false := rfl
    exact .inl (isGone_update hlast hg)

theorem Inv.gone_step (hI : Inv p h) (hstep : client.step p a = some q)
    (hg : isGone (q.threads u) = true) : q.flags .connectionAlive = false := by
  rcases gone_of_step hI.leaves hstep hg with hwas | hclear
  · by_contra hset
    have hp := hI.gone u hwas
    obtain ⟨t, -, ht⟩ := hI.sets_alive hstep hp (by simpa using hset)
    have hnone : p.handle = none := hI.custody.noWorker t _ ht rfl
    have hhandle := (hI.custody.handle u).mp (isWorker_of_isGone hwas)
    rw [hnone] at hhandle
    exact absurd hhandle (by simp)
  · exact hclear

/-- A join finds the worker gone. -/
theorem Inv.joined (hI : Inv p h) (hstep : client.step p a = some q) {w : WorkerId}
    (hw : p.handle = some w) (hnone : q.handle = none) : p.flags .connectionAlive = false := by
  have hC := hI.custody.step client_disciplined hI.unreplaced hstep
  have hwas : (p.threads w).isWorker = true := (hI.custody.handle w).mpr hw
  have hgone : (q.threads w).isWorker = false := by
    rw [Bool.eq_false_iff]
    intro hworker
    have hhandle := (hC.handle w).mp hworker
    rw [hnone] at hhandle
    exact absurd hhandle (by simp)
  have hphase := WorkerClass.phase_step (u := w) hstep
  have hout : WorkerClass.phase (q.threads w) = .outside := by
    by_contra hin
    rw [WorkerClass.isWorker_iff_phase.mpr hin] at hgone
    exact absurd hgone (by simp)
  rw [hout] at hphase
  generalize hnow : (WorkerClass.Phase.outside) = now at hphase
  cases hphase with
  | same => exact absurd hnow.symm (WorkerClass.isWorker_iff_phase.mp hwas)
  | reaped hended => exact hI.gone w (by rw [hended]; rfl)
  | tested =>
    rcases client.afterLoop_cases with hl | hl <;> rw [hl] at hnow <;> exact absurd hnow (by decide)
  | _ => exact absurd hnow (by decide)

/-- The window of a `start` goes on, or ends with the worker. -/
theorem window_step (hstep : client.step p a = some q) (hw : Window p) :
    Window q ∨ q.handle ≠ none := by
  obtain ⟨t, ht⟩ := hw
  by_cases hat : a.actor = t
  · subst hat
    have hstepped {stmt : Stmt Flag} {rest : List (Stmt Flag)} {r : Workers Flag × List (Stmt Flag)}
        (ht : (p.threads a.actor).rest? = some (stmt :: rest)) (hact : a = .step a.actor)
        (hexec : p.exec a.actor stmt rest = some r)
        (hthreads : r.1.threads = p.threads) : (q.threads a.actor).rest? = some r.2 := by
      rw [hact] at hstep
      rw [WorkerClass.step_ran ht hexec hstep]
      exact rest?_setRest r (hthreads ▸ ht)
    rcases ht with ht | ht
    · rcases WorkerClass.actor_cases hstep ht with hact | ⟨hopen, -⟩ | ⟨hspawn, -⟩
      · exact .inl ⟨_, .inr (hstepped ht hact rfl rfl)⟩
      · exact absurd hopen (by simp)
      · exact absurd hspawn (by simp)
    · rcases WorkerClass.actor_cases hstep ht with hact | ⟨hopen, -⟩ | ⟨-, new, hact⟩
      · rw [hact] at hstep
        cases WorkerClass.threadStep hstep with
        | ran ht' hexec =>
          obtain ⟨rfl, rfl⟩ := List.cons.inj (Option.some.inj (ht.symm.trans ht'))
          exact absurd hexec (by simp [Workers.exec])
        | moved _ hidle => exact absurd (hidle _ ht) (by simp)
        | left hpc =>
          change (p.threads a.actor).rest? = _ at ht
          rw [hpc] at ht
          exact absurd ht (by simp [WorkerPc.rest?])
      · exact absurd hopen (by simp)
      · rw [hact] at hstep
        simp only [WorkerClass.step, ht] at hstep
        split_ifs at hstep
        obtain ⟨⟩ := hstep
        exact .inr (by simp)
  · exact .inl ⟨t, ht.imp (WorkerClass.rest?_other hstep hat) (WorkerClass.rest?_other hstep hat)⟩

theorem Inv.alive_step (hI : Inv p h) (hstep : client.step p a = some q)
    (hq : q.flags .connectionAlive = true) : Window q ∨ q.handle ≠ none := by
  cases hp : p.flags .connectionAlive with
  | false =>
    obtain ⟨t, rfl, ht⟩ := hI.sets_alive hstep hp hq
    rw [WorkerClass.step_ran ht rfl hstep]
    exact .inl ⟨t, .inl (rest?_setRest (_, _) ht)⟩
  | true =>
    rcases hI.alive hp with hwindow | hhandle
    · exact window_step hstep hwindow
    · obtain ⟨w, hw⟩ := Option.ne_none_iff_exists'.mp hhandle
      refine .inr fun hnone => ?_
      rw [hI.joined hstep hw hnone] at hp
      exact absurd hp (by simp)

/-- **Every step keeps the invariant.** -/
theorem Inv.step (hI : Inv p h) (hstep : client.step p a = some q) : Inv q (record p a q h) where
  custody := hI.custody.step client_disciplined hI.unreplaced hstep
  identity := hI.identity.step client_disciplined hI.custody hstep
  waits := hI.waits.step client_locked hI.custody hstep
  leaves := hI.leaves.step hstep
  plain _ _ flag hr := hI.plain_step hstep flag hr
  worker _ _ hr hw := hI.worker_step hstep hr hw
  window _ _ hr := hI.fresh_step hstep hr
  starting _ _ hr hmem := hI.starting_step hstep hr hmem
  stopping _ ht := hI.stopping_step hstep ht
  gone _ hg := hI.gone_step hstep hg
  alive hq := hI.alive_step hstep hq
  quiet hs := by
    rcases stopped_cases hs with hold | ⟨-, -, hnil⟩
    · exact starting_nil hs (hI.quiet hold)
    · exact starting_nil hs hnil

theorem inv_init : Inv {} {} where
  custody := WorkerClass.custody_init
  identity := WorkerClass.identity_init
  waits := WorkerClass.waits_init
  leaves _ _ h := absurd h (by simp)
  plain _ _ _ h := absurd h (by simp [WorkerPc.rest?])
  worker _ _ h := absurd h (by simp [WorkerPc.rest?])
  window _ _ h := absurd h (by simp [WorkerPc.rest?])
  starting _ _ h := absurd h (by simp [WorkerPc.rest?])
  stopping _ h := absurd h (by simp)
  gone _ h := absurd h (by simp [isGone])
  alive h := absurd h (by simp)
  quiet _ := rfl

/-- **A `stop` that returns leaves `connectionAlive_` cleared**, but for one on the worker. -/
theorem Inv.stopped_alive (hI : Inv p h) (hG : ReturnsDead (p, h) a)
    (hstep : client.step p a = some q) (hret : returns p a q = true)
    (ht : a.actor ∈ h.stopping) (hnil : h.starting = []) : q.flags .connectionAlive = false := by
  obtain ⟨rest, hrest, hne, hsuffix, hnone⟩ := hI.stopping _ ht
  have hact := stop_actor hrest hne hsuffix rfl hstep
  generalize a.actor = t at hact ht hrest hret
  subst hact
  cases stop_step hI.custody hrest hne hsuffix hstep with
  | goes hq hne' =>
    simp only [returns, WorkerLabel.actor, Bool.and_eq_true, beq_iff_eq] at hret
    exact absurd (Option.some.inj (hq.symm.trans hret.2)) hne'
  | deferred hself hid _ hflags =>
    have hdead : refuses p = true := hG _ hself ht hid hnil
    rw [hflags]
    simpa [refuses] using hdead
  | done hunlock _ hflags =>
    rw [hflags]
    by_contra halive
    have hhandle := hnone (Option.some.inj (hrest.symm.trans hunlock))
    have hholds : (p.threads t).holds = true := by
      rw [WorkerPc.holds_of_rest? hunlock]
      rfl
    rcases hI.alive (by simpa using halive) with ⟨u, hu⟩ | hsome
    · -- who is in the window of a `start` has the mutex, too
      have hother : (p.threads u).holds = true := by
        rcases hu with hu | hu <;> rw [WorkerPc.holds_of_rest? hu] <;> rfl
      obtain rfl : u = t := hI.custody.mutex.unique hother hholds
      rw [hunlock] at hu
      exact absurd hu (by simp)
    · exact hsome hhandle

/-- While no `start` is under way `connectionAlive_` stays cleared. -/
theorem Inv.alive_stays (hI : Inv p h) (hstep : client.step p a = some q) (hnil : h.starting = [])
    (hp : p.flags .connectionAlive = false) : q.flags .connectionAlive = false := by
  by_contra hset
  obtain ⟨t, -, ht⟩ := hI.sets_alive hstep hp (by simpa using hset)
  have hmem := hI.starting t _ ht (List.mem_cons_self ..)
  rw [hnil] at hmem
  exact absurd hmem List.not_mem_nil

theorem refused_of_dead {s : Workers Flag × Calls}
    (hdead : s.2.stopped = true → s.1.flags .connectionAlive = false) : Refused s := fun hs =>
  ⟨not_isRunning (hdead hs), by simp [refuses, hdead hs]⟩

theorem Refused.dead {s : Workers Flag × Calls} (hs : Refused s) (hstopped : s.2.stopped = true) :
    s.1.flags .connectionAlive = false := by
  simpa [refuses] using (hs hstopped).2

/-- **A step that the condition allows keeps the promise of `stop`.** -/
theorem Inv.refused_step (hI : Inv p h) (hR : Refused (p, h)) (hG : ReturnsDead (p, h) a)
    (hstep : client.step p a = some q) : Refused (q, record p a q h) := by
  refine refused_of_dead fun hs => ?_
  rcases stopped_cases hs with hold | ⟨hret, ht, hnil⟩
  · exact hI.alive_stays hstep (hI.quiet hold) (hR.dead hold)
  · exact hI.stopped_alive hG hstep hret ht hnil

/-- A step that keeps the promise is one that the condition allows. -/
theorem Inv.returnsDead (hI : Inv p h) (hstep : client.step p a = some q)
    (hR : Refused (q, record p a q h)) : ReturnsDead (p, h) a := by
  cases a with
  | step t =>
    intro rest (ht : (p.threads t).rest? = _) (hmem : t ∈ h.stopping)
      (hid : p.workerId = some t) (hnil : h.starting = [])
    have hheld : Stmt.held rest = false := by
      obtain ⟨rest', hrest, -, hsuffix, -⟩ := hI.stopping t hmem
      obtain rfl := Option.some.inj (ht.symm.trans hrest)
      simp only [stop, List.suffix_cons_iff, List.cons.injEq, List.suffix_nil, reduceCtorEq,
        false_and, true_and, or_false, false_or] at hsuffix
      rw [hsuffix]
      rfl
    have hexec : p.exec t .returnOnWorker rest = some (p, []) := by
      simp [Workers.exec, hid, Stmt.unwind, hheld]
    have hq := WorkerClass.step_ran ht hexec hstep
    have hback : (q.threads t).rest? = some [] := hq ▸ rest?_setRest (p, []) ht
    have hret : returns p (.step t) q = true := by
      simp [returns, WorkerLabel.actor, hback, ht]
    have hstopped : (record p (.step t) q h).stopped = true := by
      simp [record, hret, Calls.returned, WorkerLabel.actor, hmem, hnil]
    have hdead := hR.dead hstopped
    rw [hq] at hdead
    have hflag : p.flags .connectionAlive = false := hdead
    simp [refuses, hflag]
  | _ => trivial

end Steps

/-! ## The results -/

theorem Inv.safe {p : Workers Flag} {h : Calls} (hI : Inv p h) : Safe p where
  oneLoop t u ht hu :=
    hI.custody.handle.unique (WorkerPc.isWorker_of_alive ht) (WorkerPc.isWorker_of_alive hu)
  notOverwritten t rest ht := hI.custody.noWorker t _ ht rfl
  noSelfJoin t rest ht := by
    intro hself
    have hcaller := hI.identity.caller t _ ht ((hI.custody.handle t).mpr hself)
    exact absurd hcaller (by simp [Stmt.needsCaller])
  closedAfter t rest ht u := by
    have hnone : p.handle = none := hI.custody.noWorker t _ ht rfl
    rw [Bool.eq_false_iff]
    intro hu
    have hhandle := (hI.custody.handle u).mp (WorkerPc.isWorker_of_alive hu)
    rw [hnone] at hhandle
    exact absurd hhandle (by simp)
  joinEnds t rest ht w hw := by
    have hworker : (p.threads w).isWorker = true := (hI.custody.handle w).mpr hw
    exact ends_of_clear hworker (hI.waits.ends t _ ht rfl) (hI.identity.workerId w).mp
      fun r hr => hI.worker w r hr hworker

theorem inductive_inv : machine.Inductive (fun _ _ => True) fun s => Inv s.1 s.2 where
  init := by
    rintro ⟨p, h⟩ ⟨hp, hh⟩
    obtain rfl : p = {} := hp
    obtain rfl : h = {} := hh
    exact inv_init
  step := by
    rintro s a s' hI - hstep
    obtain ⟨hact, hrecord⟩ := Machine.withHistory_step.mp hstep
    exact hrecord ▸ hI.step hact

/-- **The client is safe** all along every run. -/
theorem always_safe (as : List (WorkerLabel Call)) :
    machine.Always (fun s => Safe s.1) ({}, {}) as := by
  have hsafe (s : Workers Flag × Calls) (as : List (WorkerLabel Call)) (hI : Inv s.1 s.2) :
      machine.Always (fun s => Safe s.1) s as := by
    induction as generalizing s with
    | nil => exact hI.safe
    | cons a as ih => exact ⟨hI.safe, fun s' hs' => ih s' (inductive_inv.step s a s' hI trivial hs')⟩
  exact hsafe ({}, {}) as inv_init

/-- **After `stop` the client does not run and refuses to send**, along a run, exactly if no `stop` on
the worker returns with the connection alive; whoever calls what, the threads are safe. -/
theorem stop_refuses_iff (as : List (WorkerLabel Call)) :
    machine.Always (fun s => Safe s.1) ({}, {}) as ∧
      (machine.Always Refused ({}, {}) as ↔ machine.Allowed ReturnsDead ({}, {}) as) := by
  refine ⟨always_safe as, ?_⟩
  have hstep (s : Workers Flag × Calls) (a : WorkerLabel Call) (s' : Workers Flag × Calls)
      (hI : Inv s.1 s.2 ∧ Refused s) (hG : ReturnsDead s a) (hs' : machine.step s a = some s') :
      Inv s'.1 s'.2 ∧ Refused s' := by
    obtain ⟨hact, hrecord⟩ := Machine.withHistory_step.mp hs'
    have hinv := hI.1.step hact
    have hrefused := hI.1.refused_step hI.2 hG hact
    rw [hrecord] at hinv hrefused
    exact ⟨hinv, hrefused⟩
  refine Machine.always_iff_allowed_of_invariant hstep (fun _ hI => hI.2)
    (fun s a s' hI hs' hR => ?_) ⟨inv_init, fun hs => absurd hs (by simp)⟩ as
  obtain ⟨hact, hrecord⟩ := Machine.withHistory_step.mp hs'
  have hrefused : Refused (s'.1, record s.1 a s'.1 s.2) := by rw [hrecord]; exact hR
  exact hI.1.returnsDead hact hrefused

/-- **A `send` goes out after a `stop`**: the callback of a message stops the client. -/
theorem send_after_stop : ¬ ∀ s, machine.Reachable s → Refused s := by
  intro hall
  have hrun : (machine.exec ({}, {}) ([.arrive 0, .call 0 .start] ++ List.replicate 10 (.step 0) ++
      [.spawn 0 1, .step 0] ++ List.replicate 4 (.step 1) ++ [.call 1 .stop, .step 1, .step 1])).any
      (fun s => s.2.stopped && !refuses s.1) = true := by decide +kernel
  obtain ⟨s, hs, hbad⟩ := (Option.any_eq_true _ _).mp hrun
  rw [Bool.and_eq_true, Bool.not_eq_true'] at hbad
  have hinit : machine.Reachable ({}, {}) := .init ⟨rfl, rfl⟩
  have hrefused := (hall s (Machine.Reachable.exec hinit hs) hbad.1).2
  rw [hrefused] at hbad
  exact absurd hbad.2 (by simp)

end TcpLifecycle

end AxonVex
