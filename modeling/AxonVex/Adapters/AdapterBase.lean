import AxonVex.Machinery.Machine
import Mathlib.Data.List.Basic
import Mathlib.Logic.Function.Basic
import Mathlib.Tactic.SplitIfs

/-!
# Adapters/AdapterBase — user code under the mutex of an adapter

    deliverLocally:  lock;  enrichMessage;  cb->callbackPerform(msg) …;  unlock
    start:           lock;  reportError … | onStart();  unlock

`AdapterBase` has one mutex, which is not recursive.  Its sections call the hooks of the concrete
adapter, the error handlers and the subscribers, and each of these may call any operation of the
adapter: that operation waits for the mutex that its own thread holds (`callback_waits_for_itself`).
A run is free of this exactly as long as no section calls user code (`quiet_runs_iff`).
-/

namespace AxonVex

open Machinery

inductive AdapterState
  | disconnected
  | connecting
  | connected
  | reconnecting
  | error
  | shuttingDown
  deriving DecidableEq, Repr

def adapterStateToString : AdapterState → String
  | .disconnected => "Disconnected"
  | .connecting => "Connecting"
  | .connected => "Connected"
  | .reconnecting => "Reconnecting"
  | .error => "Error"
  | .shuttingDown => "ShuttingDown"

namespace AdapterBase

/-- What a concrete adapter may override. -/
inductive Hook
  | onStart
  | onStop
  | onShutdown
  | enrichMessage
  deriving DecidableEq, Repr

/-- Code that is not the adapter's own. -/
inductive UserCode
  | hook (hook : Hook)
  | subscriber (cb : ℕ) (topic : String)
  | errorHandler (cb : ℕ) (message : String)
  deriving DecidableEq, Repr

inductive Operation
  | initializeAdapter
  | start
  | stop
  | shutdown
  | publish (topic : String)
  | subscribe (topic : String) (cb : ℕ)
  | unsubscribe (topic : String) (cb : ℕ)
  deriving DecidableEq, Repr

/-- What a thread has to do. -/
inductive Stmt
  | lock
  | unlock
  /-- the section of an operation -/
  | locked (op : Operation)
  /-- `publish` looks at the state -/
  | publish (topic : String)
  /-- the section of `deliverLocally` -/
  | deliver (topic : String)
  /-- `start` looks at what `onStart` has returned -/
  | started
  | store (state : AdapterState)
  | answer (result : Bool)
  /-- user code runs, and may call operations, until it returns -/
  | user (code : UserCode)
  deriving DecidableEq, Repr

end AdapterBase

/-- The adapter, and what its threads have to do; `T` are the threads. -/
structure AdapterBase (T : Type*) where
  /-- which hooks the concrete adapter has overridden -/
  overrides : AdapterBase.Hook → Bool
  state_ : AdapterState := .disconnected
  initialized_ : Bool := false
  mutex_ : Option T := none
  topicSubscribers_ : String → List ℕ := fun _ => []
  errorBus_ : List (String × ℕ) := []
  todo : T → List AdapterBase.Stmt := fun _ => []
  /-- what an operation or a hook has returned last -/
  returned : T → Bool := fun _ => true

namespace AdapterBase

variable {T : Type*} [DecidableEq T]

/-- What an operation has to do. -/
def code : Operation → List Stmt
  | .publish topic => [.publish topic]
  | op => [.lock, .locked op, .unlock]

/-- The handlers of the key `default`. -/
def errorHandlers (s : AdapterBase T) : List ℕ :=
  (s.errorBus_.filter fun h => h.1 == "default").map Prod.snd

def reportError (s : AdapterBase T) (message : String) : List Stmt :=
  s.errorHandlers.map fun cb => .user (.errorHandler cb message)

/-- A virtual function: the one of `AdapterBase` does nothing. -/
def callHook (s : AdapterBase T) (hook : Hook) : List Stmt :=
  if s.overrides hook then [.user (.hook hook)] else []

/-- The section of an operation: what it changes, and what is left to do in it. -/
def lockedSection (s : AdapterBase T) (t : T) : Operation → AdapterBase T × List Stmt
  | .initializeAdapter =>
    if s.state_ ≠ .disconnected then
      (s, s.reportError ("initialize() called in invalid state: " ++ adapterStateToString s.state_) ++
        [.answer false])
    else ({ s with initialized_ := true }, [.answer true])
  | .start =>
    if !s.initialized_ then
      (s, s.reportError "start() called before initialize()" ++ [.answer false])
    else if s.state_ = .connected then (s, [.answer true])
    else if s.state_ ≠ .disconnected then
      (s, s.reportError ("start() called in invalid state: " ++ adapterStateToString s.state_) ++
        [.answer false])
    else
      ({ s with state_ := .connecting, returned := Function.update s.returned t true },
        s.callHook .onStart ++ [.started])
  | .stop =>
    if s.state_ = .disconnected ∨ s.state_ = .shuttingDown then (s, [.answer true])
    else
      ({ s with state_ := .shuttingDown },
        s.callHook .onStop ++ [.store .disconnected, .answer true])
  | .shutdown =>
    ({ s with state_ := .disconnected, initialized_ := false, topicSubscribers_ := fun _ => [] },
      s.callHook .onShutdown)
  | .publish _ => (s, [])
  | .subscribe topic cb =>
    ({ s with topicSubscribers_ :=
        Function.update s.topicSubscribers_ topic (s.topicSubscribers_ topic ++ [cb]) }, [])
  | .unsubscribe topic cb =>
    ({ s with topicSubscribers_ :=
        Function.update s.topicSubscribers_ topic ((s.topicSubscribers_ topic).erase cb) },
      [.answer (decide (cb ∈ s.topicSubscribers_ topic))])

/-- What `deliverLocally` calls, under the mutex. -/
def deliveries (s : AdapterBase T) (topic : String) : List Stmt :=
  if s.topicSubscribers_ topic = [] then []
  else s.callHook .enrichMessage ++
    (s.topicSubscribers_ topic).map fun cb => .user (.subscriber cb topic)

/-- What a thread has to do changes. -/
def goto (s : AdapterBase T) (t : T) (todo : List Stmt) : AdapterBase T :=
  { s with todo := Function.update s.todo t todo }

/-- The next step of a thread in the adapter. -/
def stepThread (s : AdapterBase T) (t : T) : Option (AdapterBase T) :=
  match s.todo t with
  | .lock :: rest =>
    if s.mutex_.isNone then some { s.goto t rest with mutex_ := some t } else none
  | .unlock :: rest => some { s.goto t rest with mutex_ := none }
  | .locked op :: rest => some ((s.lockedSection t op).1.goto t ((s.lockedSection t op).2 ++ rest))
  | .publish topic :: rest =>
    some (s.goto t (
      if s.state_ = .connected then [.lock, .deliver topic, .unlock, .answer true] ++ rest
      else s.reportError "publish() called while not connected" ++ .answer false :: rest))
  | .deliver topic :: rest => some (s.goto t (s.deliveries topic ++ rest))
  | .started :: rest =>
    some { s.goto t (.answer (s.returned t) :: rest) with
      state_ := if s.returned t then .connected else .error }
  | .store state :: rest => some { s.goto t rest with state_ := state }
  | .answer result :: rest =>
    some { s.goto t rest with returned := Function.update s.returned t result }
  | _ => none

/-- A step of a run. -/
inductive Label (T : Type*)
  /-- a thread calls an operation, from outside or from the user code it runs -/
  | call (t : T) (op : Operation)
  | step (t : T)
  | userReturns (t : T) (result : Bool)
  | registerErrorHandler (key : String) (cb : ℕ)
  | unregisterErrorHandler (key : String) (cb : ℕ)
  deriving DecidableEq, Repr

/-- The step with this label. -/
def step (s : AdapterBase T) : Label T → Option (AdapterBase T)
  | .call t op => match s.todo t with
    | [] => some (s.goto t (code op))
    | .user u :: rest => some (s.goto t (code op ++ .user u :: rest))
    | _ => none
  | .step t => s.stepThread t
  | .userReturns t result => match s.todo t with
    | .user _ :: rest =>
      some { s.goto t rest with returned := Function.update s.returned t result }
    | _ => none
  | .registerErrorHandler key cb => some { s with errorBus_ := s.errorBus_ ++ [(key, cb)] }
  | .unregisterErrorHandler key cb => some { s with errorBus_ := s.errorBus_.erase (key, cb) }

/-- Adapters of any class, from their construction on. -/
def adapter (T : Type*) [DecidableEq T] : Machine (AdapterBase T) (Label T) where
  init s := s = { overrides := s.overrides }
  step := step

/-! ## What is to hold -/

/-- No user code runs while its thread holds the mutex, and no thread waits for the mutex that it
holds. -/
structure Safe (s : AdapterBase T) : Prop where
  unlocked : ∀ t u rest, s.todo t = .user u :: rest → s.mutex_ ≠ some t
  waits : ∀ t rest, s.todo t = .lock :: rest → s.mutex_ ≠ some t

/-- The section of the operation calls no user code: it reports no error to a handler, calls no hook
that is overridden. -/
def QuietSection (s : AdapterBase T) : Operation → Prop
  | .initializeAdapter => s.state_ = .disconnected ∨ s.errorHandlers = []
  | .start =>
    if s.initialized_ = false then s.errorHandlers = []
    else if s.state_ = .disconnected then s.overrides .onStart = false
    else s.state_ = .connected ∨ s.errorHandlers = []
  | .stop => s.state_ = .disconnected ∨ s.state_ = .shuttingDown ∨ s.overrides .onStop = false
  | .shutdown => s.overrides .onShutdown = false
  | _ => True

/-- The step calls no user code under the mutex; nothing is delivered to a subscriber. -/
def Quiet (s : AdapterBase T) : Label T → Prop
  | .step t => match s.todo t with
    | .locked op :: _ => s.QuietSection op
    | .deliver topic :: _ => s.topicSubscribers_ topic = []
    | _ => True
  | _ => True

/-! ## The shape of what is left to do -/

/-- The statement takes and gives no mutex, and calls no user code. -/
def Stmt.isPlain : Stmt → Bool
  | started => true
  | store _ => true
  | answer _ => true
  | _ => false

/-- What a thread has left to do, where it holds the mutex or not: it calls user code and operations
only without it. -/
def Shape : Bool → List Stmt → Prop
  | holds, [] => holds = false
  | holds, .lock :: rest => holds = false ∧ Shape true rest
  | holds, .unlock :: rest => holds = true ∧ Shape false rest
  | holds, .user _ :: rest => holds = false ∧ Shape false rest
  | holds, .publish _ :: rest => holds = false ∧ Shape false rest
  | holds, .locked _ :: rest => holds = true ∧ Shape true rest
  | holds, .deliver _ :: rest => holds = true ∧ Shape true rest
  | holds, _ :: rest => Shape holds rest

/-- Every thread's is of this shape. -/
def Shaped (s : AdapterBase T) : Prop := ∀ t, Shape (decide (s.mutex_ = some t)) (s.todo t)

variable {s s' : AdapterBase T} {t : T} {holds : Bool} {l rest : List Stmt} {op : Operation}

theorem Shape.plain_append (h : Shape holds rest) (hl : ∀ x ∈ l, x.isPlain = true) :
    Shape holds (l ++ rest) := by
  induction l with
  | nil => exact h
  | cons x l ih =>
    have hx := hl x (List.mem_cons_self ..)
    have hrest := ih fun y hy => hl y (List.mem_cons_of_mem _ hy)
    cases x with
    | started => exact hrest
    | store state => exact hrest
    | answer result => exact hrest
    | _ => exact absurd hx (by simp [Stmt.isPlain])

/-- User code is called one after the other. -/
theorem Shape.user_append {α : Type*} (h : Shape false rest) (f : α → UserCode) (l : List α) :
    Shape false (l.map (fun x => Stmt.user (f x)) ++ rest) := by
  induction l with
  | nil => exact h
  | cons x l ih => exact ⟨rfl, ih⟩

theorem Shape.code_append (h : Shape false rest) (op : Operation) :
    Shape false (code op ++ rest) := by
  cases op with
  | publish topic => exact ⟨rfl, h⟩
  | _ => exact ⟨rfl, rfl, rfl, h⟩

/-- A thread that is not in an operation does not hold the mutex. -/
theorem Shaped.safe (h : s.Shaped) : s.Safe where
  unlocked t u rest htodo hmutex := by
    have hshape := h t
    rw [htodo, hmutex] at hshape
    simp [Shape] at hshape
  waits t rest htodo hmutex := by
    have hshape := h t
    rw [htodo, hmutex] at hshape
    simp [Shape] at hshape

/-- One thread goes on, and takes or gives no mutex. -/
theorem Shaped.goes (h : s.Shaped) (hmutex : s'.mutex_ = s.mutex_)
    (htodo : s'.todo = Function.update s.todo t l)
    (hl : Shape (decide (s.mutex_ = some t)) l) : s'.Shaped := by
  intro u
  rw [hmutex, htodo]
  by_cases hut : u = t
  · subst hut
    rw [Function.update_self]
    exact hl
  · rw [Function.update_of_ne hut]
    exact h u

/-! ## What the sections call -/

theorem lockedSection_mutex (s : AdapterBase T) (t : T) (op : Operation) :
    (s.lockedSection t op).1.mutex_ = s.mutex_ := by
  cases op <;> rw [lockedSection] <;> split_ifs <;> rfl

theorem lockedSection_todo (s : AdapterBase T) (t : T) (op : Operation) :
    (s.lockedSection t op).1.todo = s.todo := by
  cases op <;> rw [lockedSection] <;> split_ifs <;> rfl

omit [DecidableEq T] in
/-- Where nobody has registered, nothing is reported. -/
theorem reportError_nil (h : s.errorHandlers = []) (message : String) :
    s.reportError message = [] := by
  rw [reportError, h]
  rfl

omit [DecidableEq T] in
theorem reportError_user (h : s.errorHandlers ≠ []) (message : String) :
    ∃ u rest', s.reportError message = .user u :: rest' := by
  obtain ⟨cb, cbs, hcbs⟩ := List.exists_cons_of_ne_nil h
  exact ⟨_, _, by rw [reportError, hcbs]; rfl⟩

omit [DecidableEq T] in
theorem callHook_nil {hook : Hook} (h : s.overrides hook = false) : s.callHook hook = [] := by
  simp [callHook, h]

omit [DecidableEq T] in
theorem callHook_user {hook : Hook} (h : s.overrides hook = true) :
    s.callHook hook = [.user (.hook hook)] := by
  simp [callHook, h]

/-- **A quiet section** calls no user code. -/
theorem plain_of_quiet (h : s.QuietSection op) : ∀ x ∈ (s.lockedSection t op).2, x.isPlain = true := by
  cases op with
  | initializeAdapter =>
    rw [lockedSection]
    split_ifs with hstate
    · rw [reportError_nil (h.resolve_left hstate)]
      simp [Stmt.isPlain]
    · simp [Stmt.isPlain]
  | start =>
    rw [QuietSection] at h
    rw [lockedSection]
    cases hinit : s.initialized_ with
    | false =>
      rw [if_pos hinit] at h
      simp [reportError_nil h, Stmt.isPlain]
    | true =>
      rw [if_neg (by simp [hinit])] at h
      simp only [Bool.not_true, Bool.false_eq_true, if_false]
      split_ifs with hconnected hother
      · simp [Stmt.isPlain]
      · rw [if_neg hother] at h
        simp [reportError_nil (h.resolve_left hconnected), Stmt.isPlain]
      · rw [if_pos (not_not.mp hother)] at h
        simp [callHook_nil h, Stmt.isPlain]
  | stop =>
    rw [lockedSection]
    split_ifs with hstate
    · simp [Stmt.isPlain]
    · have hhook := (or_assoc.mpr h).resolve_left hstate
      simp [callHook_nil hhook, Stmt.isPlain]
  | shutdown =>
    rw [lockedSection, callHook_nil h]
    simp
  | publish topic => simp [lockedSection]
  | subscribe topic cb => simp [lockedSection]
  | unsubscribe topic cb => simp [lockedSection, Stmt.isPlain]

/-- **A section that is not quiet** calls user code, and that first. -/
theorem user_of_not_quiet (h : ¬ s.QuietSection op) :
    ∃ u rest', (s.lockedSection t op).2 = .user u :: rest' := by
  have hreport {message : String} {tail : List Stmt} (hhandlers : s.errorHandlers ≠ []) :
      ∃ u rest', s.reportError message ++ tail = .user u :: rest' := by
    obtain ⟨u, rest', huser⟩ := reportError_user hhandlers message
    exact ⟨u, rest' ++ tail, by rw [huser]; rfl⟩
  have hhook {hook : Hook} {tail : List Stmt} (hoverrides : s.overrides hook ≠ false) :
      ∃ u rest', s.callHook hook ++ tail = .user u :: rest' :=
    ⟨.hook hook, tail, by rw [callHook_user (Bool.not_eq_false _ ▸ hoverrides)]; rfl⟩
  cases op with
  | initializeAdapter =>
    obtain ⟨hstate, hhandlers⟩ := not_or.mp h
    rw [lockedSection, if_pos hstate]
    exact hreport hhandlers
  | start =>
    rw [QuietSection] at h
    rw [lockedSection]
    cases hinit : s.initialized_ with
    | false =>
      rw [if_pos hinit] at h
      exact hreport h
    | true =>
      rw [if_neg (by simp [hinit])] at h
      simp only [Bool.not_true, Bool.false_eq_true, if_false]
      by_cases hdisconnected : s.state_ = .disconnected
      · rw [if_pos hdisconnected] at h
        rw [if_neg (by simp [hdisconnected]), if_neg (not_not.mpr hdisconnected)]
        exact hhook h
      · rw [if_neg hdisconnected] at h
        obtain ⟨hconnected, hhandlers⟩ := not_or.mp h
        rw [if_neg hconnected, if_pos hdisconnected]
        exact hreport hhandlers
  | stop =>
    obtain ⟨hdisconnected, h⟩ := not_or.mp h
    obtain ⟨hshutting, hoverrides⟩ := not_or.mp h
    rw [lockedSection, if_neg (not_or.mpr ⟨hdisconnected, hshutting⟩)]
    exact hhook hoverrides
  | shutdown =>
    have hshutdown : ∃ u rest', s.callHook .onShutdown ++ [] = .user u :: rest' := hhook h
    rwa [List.append_nil] at hshutdown
  | publish topic => exact absurd trivial h
  | subscribe topic cb => exact absurd trivial h
  | unsubscribe topic cb => exact absurd trivial h

/-- What is delivered to a subscriber calls user code first. -/
theorem deliveries_user {topic : String} (h : s.topicSubscribers_ topic ≠ []) :
    ∃ u rest', s.deliveries topic = .user u :: rest' := by
  obtain ⟨cb, cbs, hcbs⟩ := List.exists_cons_of_ne_nil h
  rw [deliveries, if_neg h, hcbs]
  cases hhook : s.overrides .enrichMessage with
  | false => exact ⟨_, _, by rw [callHook_nil hhook]; rfl⟩
  | true => exact ⟨_, _, by rw [callHook_user hhook]; rfl⟩

/-! ## Runs -/

/-- **A quiet step keeps the shape.** -/
theorem Shaped.step (h : s.Shaped) {a : Label T} (hquiet : s.Quiet a) (hstep : s.step a = some s') :
    s'.Shaped := by
  cases a with
  | call t op =>
    have hshape := h t
    rw [AdapterBase.step] at hstep
    split at hstep
    · next htodo =>
      obtain ⟨⟩ := hstep
      rw [htodo] at hshape
      have hout : decide (s.mutex_ = some t) = false := hshape
      have hnil : Shape false [] := rfl
      refine h.goes rfl rfl ?_
      rw [hout, ← List.append_nil (code op)]
      exact hnil.code_append op
    · next u rest htodo =>
      obtain ⟨⟩ := hstep
      rw [htodo] at hshape
      obtain ⟨hout, hrest⟩ := hshape
      have huser : Shape false (.user u :: rest) := ⟨rfl, hrest⟩
      refine h.goes rfl rfl ?_
      rw [hout]
      exact huser.code_append op
    · cases hstep
  | userReturns t result =>
    have hshape := h t
    rw [AdapterBase.step] at hstep
    split at hstep
    · next u rest htodo =>
      obtain ⟨⟩ := hstep
      rw [htodo] at hshape
      obtain ⟨hout, hrest⟩ := hshape
      exact h.goes rfl rfl (hout.symm ▸ hrest)
    · cases hstep
  | registerErrorHandler key cb =>
    obtain ⟨⟩ := hstep
    exact h
  | unregisterErrorHandler key cb =>
    obtain ⟨⟩ := hstep
    exact h
  | step t =>
    have hshape := h t
    rw [AdapterBase.step, AdapterBase.stepThread] at hstep
    rw [Quiet] at hquiet
    split at hstep
    · next rest htodo =>
      -- the mutex is free, and `t` takes it
      obtain ⟨hfree, rfl⟩ := guarded hstep
      have hnone : s.mutex_ = none := Option.isNone_iff_eq_none.mp hfree
      rw [htodo] at hshape
      intro u
      change Shape (decide (some t = some u)) (Function.update s.todo t rest u)
      by_cases hut : u = t
      · subst hut
        rw [Function.update_self, decide_eq_true rfl]
        exact hshape.2
      · rw [Function.update_of_ne hut, decide_eq_false (by simpa using Ne.symm hut)]
        have hother := h u
        rwa [hnone, decide_eq_false (by simp)] at hother
    · next rest htodo =>
      -- the mutex is of `t`, and it gives it back
      obtain ⟨⟩ := hstep
      rw [htodo] at hshape
      obtain ⟨hholds, hrest⟩ := hshape
      have hmine : s.mutex_ = some t := of_decide_eq_true hholds
      intro u
      change Shape (decide (none = some u)) (Function.update s.todo t rest u)
      rw [decide_eq_false (by simp)]
      by_cases hut : u = t
      · subst hut
        rw [Function.update_self]
        exact hrest
      · rw [Function.update_of_ne hut]
        have hother := h u
        rwa [hmine, decide_eq_false (by simpa using Ne.symm hut)] at hother
    · next op rest htodo =>
      obtain ⟨⟩ := hstep
      rw [htodo] at hshape hquiet
      obtain ⟨hholds, hrest⟩ := hshape
      refine h.goes (lockedSection_mutex s t op) (by rw [goto, lockedSection_todo]) ?_
      rw [hholds]
      exact hrest.plain_append (plain_of_quiet hquiet)
    · next topic rest htodo =>
      obtain ⟨⟩ := hstep
      rw [htodo] at hshape
      obtain ⟨hout, hrest⟩ := hshape
      refine h.goes rfl rfl ?_
      rw [hout]
      split_ifs
      · exact ⟨rfl, rfl, rfl, hrest⟩
      · have hreturn : Shape false (.answer false :: rest) := hrest
        exact hreturn.user_append (UserCode.errorHandler · _) s.errorHandlers
    · next topic rest htodo =>
      obtain ⟨⟩ := hstep
      rw [htodo] at hshape hquiet
      obtain ⟨hholds, hrest⟩ := hshape
      refine h.goes rfl rfl ?_
      rw [hholds, deliveries, if_pos hquiet]
      exact hrest
    · next rest htodo =>
      obtain ⟨⟩ := hstep
      rw [htodo] at hshape
      exact h.goes rfl rfl hshape
    · next state rest htodo =>
      obtain ⟨⟩ := hstep
      rw [htodo] at hshape
      exact h.goes rfl rfl hshape
    · next result rest htodo =>
      obtain ⟨⟩ := hstep
      rw [htodo] at hshape
      exact h.goes rfl rfl hshape
    · cases hstep

/-- **A step that is not quiet** calls user code under the mutex. -/
theorem Shaped.quiet_of_safe (h : s.Shaped) {a : Label T} (hstep : s.step a = some s')
    (hsafe : s'.Safe) : s.Quiet a := by
  by_contra hnot
  cases a with
  | step t =>
    have hshape := h t
    rw [AdapterBase.step, AdapterBase.stepThread] at hstep
    rw [Quiet] at hnot
    split at hnot
    · next op rest htodo =>
      rw [htodo] at hstep hshape
      obtain ⟨⟩ := hstep
      obtain ⟨u, rest', huser⟩ := user_of_not_quiet (t := t) hnot
      refine hsafe.unlocked t u (rest' ++ rest) ?_ ?_
      · rw [goto, huser]
        exact Function.update_self ..
      · exact (lockedSection_mutex s t op).trans (of_decide_eq_true hshape.1)
    · next topic rest htodo =>
      rw [htodo] at hstep hshape
      obtain ⟨⟩ := hstep
      obtain ⟨u, rest', huser⟩ := deliveries_user hnot
      refine hsafe.unlocked t u (rest' ++ rest) ?_ (of_decide_eq_true hshape.1)
      rw [goto, huser]
      exact Function.update_self ..
    · exact hnot trivial
  | _ => exact hnot trivial

/-- **User code runs under the mutex exactly where a step is not quiet**: along a run of an adapter
from its construction on, no user code runs while its thread holds the mutex, and no thread waits for
the mutex that it holds, exactly if every step is quiet. -/
theorem quiet_runs_iff (overrides : Hook → Bool) (as : List (Label T)) :
    (adapter T).Always Safe { overrides := overrides } as ↔
      (adapter T).Allowed Quiet { overrides := overrides } as := by
  have hinit : Shaped ({ overrides := overrides } : AdapterBase T) := fun _ => rfl
  exact Machine.always_iff_allowed_of_invariant (fun _ _ _ h hquiet => h.step hquiet)
    (fun _ h => h.safe) (fun _ _ _ h => h.quiet_of_safe) hinit as

/-- A subscriber is called, and calls `unsubscribe`. -/
def unsubscribeInCallback : List (Label ℕ) :=
  .call 0 .initializeAdapter :: List.replicate 4 (.step 0) ++
    .call 0 .start :: List.replicate 5 (.step 0) ++
    .call 0 (.subscribe "topic" 7) :: List.replicate 3 (.step 0) ++
    .call 0 (.publish "topic") :: List.replicate 3 (.step 0) ++
    [.call 0 (.unsubscribe "topic" 7)]

/-- A subscriber that calls `unsubscribe` waits for the mutex that its thread holds. -/
theorem callback_waits_for_itself :
    ¬ ∀ s : AdapterBase ℕ, (adapter ℕ).Reachable s → s.Safe := by
  intro hall
  have hrun : ((adapter ℕ).exec { overrides := fun _ => false } unsubscribeInCallback).any (fun s =>
      decide ((s.todo 0).head? = some .lock) && decide (s.mutex_ = some 0)) = true := by
    decide +kernel
  obtain ⟨s, hexec, hs⟩ := (Option.any_eq_true _ _).mp hrun
  rw [Bool.and_eq_true, decide_eq_true_eq, decide_eq_true_eq] at hs
  have hinit : (adapter ℕ).Reachable { overrides := fun _ => false } := .init rfl
  obtain ⟨rest, hrest⟩ := List.head?_eq_some_iff.mp hs.1
  exact (hall s (hinit.exec hexec)).waits 0 rest hrest hs.2

end AdapterBase

end AxonVex
