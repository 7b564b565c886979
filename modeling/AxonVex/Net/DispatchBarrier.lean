import AxonVex.Machinery.Machine
import AxonVex.Machinery.Tally

/-!
# Net/DispatchBarrier — handlers run outside the lock, and not after they are gone

    dispatch:    lock; snapshot; begin(); unlock;  handler, handler, …;  lock; end(); unlock
    unregister:  lock; wait until inFlight_ = 0; erase; unlock

A dispatch holds raw pointers while it runs its handlers without the lock, so an unregister waits for
every dispatch in flight — unless its own thread is in one, for which it cannot wait.  The barrier
tells these threads by their depths.

What happens under the registry lock is one step.  Any thread may dispatch a message or report an
error at any time, also from within a handler; an unregister that waits has given the lock back.
-/

namespace AxonVex

open Machinery

/-! ## The registry -/

/-- `CallerKeyed`: callbacks under keys, in the order of registration. -/
abbrev CallerKeyed := List (String × ℕ)

namespace CallerKeyed

variable (callbacks : CallerKeyed)

/-- `snapshotCallbacksForKey`. -/
def snapshotCallbacksForKey (key : String) : List ℕ :=
  (callbacks.filter fun c => c.1 == key).map Prod.snd

/-- `registerKeyedCallback`; a null pointer is not registered. -/
def registerKeyedCallback (key : String) (callback : Option ℕ) : CallerKeyed :=
  callbacks ++ (callback.map fun c => (key, c)).toList

/-- `unregisterKeyedCallback`: the first occurrence, and whether there was one. -/
def unregisterKeyedCallback (key : String) (callback : Option ℕ) : CallerKeyed × Bool :=
  match callback with
  | none => (callbacks, false)
  | some c => (callbacks.erase (key, c), decide ((key, c) ∈ callbacks))

/-- `unregisterAllCallbacksForKey`. -/
def unregisterAllCallbacksForKey (key : String) : CallerKeyed :=
  callbacks.filter fun c => c.1 != key

/-- How often a callback is registered, under any key. -/
def registrations (callback : ℕ) : ℕ := callbacks.countP fun c => c.2 == callback

end CallerKeyed

/-! ## The barrier -/

/-- `DispatchBarrier`. -/
structure DispatchBarrier where
  inFlight_ : ℕ := 0
  depthByThread_ : Table ℕ ℕ := ∅

namespace DispatchBarrier

variable (b : DispatchBarrier)

/-- `begin()`, on this thread. -/
def begin (thread : ℕ) : DispatchBarrier where
  inFlight_ := b.inFlight_ + 1
  depthByThread_ := countUp b.depthByThread_ thread

/-- `end()`, on this thread. -/
def end_ (thread : ℕ) : DispatchBarrier where
  inFlight_ := b.inFlight_ - 1
  depthByThread_ := countDown b.depthByThread_ thread

/-- `waitQuiescent` does not return at once on this thread. -/
def waits (thread : ℕ) : Bool :=
  (b.depthByThread_.lookup thread).isNone && decide (b.inFlight_ ≠ 0)

end DispatchBarrier

/-! ## The callbacks of a client -/

/-- The two registries. -/
inductive HandlerKind
  | message
  | error
  deriving DecidableEq, Repr

/-- What waits for quiescence before it is done. -/
inductive RegistryCall
  | unregister (kind : HandlerKind) (key : String) (callback : Option ℕ)
  | unregisterAll (kind : HandlerKind) (key : String)
  | setMessageCallback (callback : Option ℕ)
  /-- with the adapter made for the function, if there is one -/
  | setErrorCallback (adapter : Option ℕ)
  deriving DecidableEq, Repr

/-- A dispatch between `begin()` and `end()`. -/
structure Dispatch where
  thread : ℕ
  kind : HandlerKind
  /-- the handler that is running -/
  running : Option ℕ := none
  /-- the handlers of the snapshot still to call -/
  targets : List ℕ
  deriving DecidableEq, Repr

/-- The callbacks of a `TcpClient`. -/
structure TcpCallbacks where
  registry : HandlerKind → CallerKeyed := fun _ => []
  defaultMsgCb_ : Option ℕ := none
  errorAdapter_ : Option ℕ := none
  dispatch_ : DispatchBarrier := {}
  /-- the dispatches under way, the innermost of a thread before its outer ones -/
  dispatches : List Dispatch := []
  /-- the call for which a thread waits -/
  waiting : ℕ → Option RegistryCall := fun _ => none

namespace TcpCallbacks

variable (s : TcpCallbacks)

/-- The key that is dispatched to. -/
def defaultKey : String := "default"

/-- The innermost dispatch of the thread. -/
def innermost (thread : ℕ) : Option Dispatch := s.dispatches.find? fun d => d.thread == thread

/-- The thread runs user code: a handler, or code outside every dispatch. -/
def inUserCode (thread : ℕ) : Bool :=
  (s.waiting thread).isNone && (s.innermost thread).all fun d => d.running.isSome

/-- A change to the innermost dispatch of the thread. -/
def updateInnermost (thread : ℕ) (f : Dispatch → Dispatch) : List Dispatch → List Dispatch
  | [] => []
  | d :: ds => if d.thread = thread then f d :: ds else d :: updateInnermost thread f ds

/-- The snapshot, and `begin()` unless it is empty. -/
def beginDispatch (thread : ℕ) (kind : HandlerKind) : TcpCallbacks :=
  if (s.registry kind).snapshotCallbacksForKey defaultKey = [] then s
  else { s with
    dispatch_ := s.dispatch_.begin thread
    dispatches := { thread, kind
                    targets := (s.registry kind).snapshotCallbacksForKey defaultKey } ::
      s.dispatches }

/-- One of the registries changes. -/
def setRegistry (kind : HandlerKind) (callbacks : CallerKeyed) : TcpCallbacks :=
  { s with registry := Function.update s.registry kind callbacks }

/-- The old default goes, and the new one comes. -/
def replaceDefault (kind : HandlerKind) (old new : Option ℕ) : TcpCallbacks :=
  s.setRegistry kind
    (((s.registry kind).unregisterKeyedCallback defaultKey old).1.registerKeyedCallback defaultKey
      new)

/-- What is done once there is quiescence, or without it from within a dispatch. -/
def perform : RegistryCall → TcpCallbacks
  | .unregister kind key callback =>
    s.setRegistry kind ((s.registry kind).unregisterKeyedCallback key callback).1
  | .unregisterAll kind key =>
    s.setRegistry kind ((s.registry kind).unregisterAllCallbacksForKey key)
  | .setMessageCallback callback =>
    { s.replaceDefault .message s.defaultMsgCb_ callback with defaultMsgCb_ := callback }
  | .setErrorCallback adapter =>
    { s.replaceDefault .error s.errorAdapter_ adapter with errorAdapter_ := adapter }

/-- A step of a thread. -/
inductive Label
  | dispatchMessage (thread : ℕ)
  /-- `elsewhere`: the thread is in an error dispatch of another client -/
  | reportError (thread : ℕ) (elsewhere : Bool)
  /-- the dispatch goes on to its next handler -/
  | invoke (thread : ℕ)
  | handlerReturns (thread : ℕ)
  | handlerThrows (thread : ℕ)
  /-- the dispatch is left -/
  | leave (thread : ℕ)
  | register (thread : ℕ) (kind : HandlerKind) (key : String) (callback : Option ℕ)
  | call (thread : ℕ) (call : RegistryCall)
  /-- a thread that waits finds quiescence -/
  | wake (thread : ℕ)
  deriving DecidableEq, Repr

/-- The step with this label. -/
def step : Label → Option TcpCallbacks
  | .dispatchMessage thread =>
    if s.inUserCode thread then some (s.beginDispatch thread .message) else none
  | .reportError thread elsewhere =>
    if s.inUserCode thread then
      -- a report from within a report on the same thread is dropped
      if elsewhere || s.dispatches.any (fun d => d.thread == thread && d.kind == .error) then some s
      else some (s.beginDispatch thread .error)
    else none
  | .invoke thread => (s.innermost thread).bind fun d =>
    if d.running = none ∧ d.targets ≠ [] then
      some { s with dispatches := updateInnermost thread (fun d =>
        { d with running := d.targets.head?, targets := d.targets.tail }) s.dispatches }
    else none
  | .handlerReturns thread => (s.innermost thread).bind fun d =>
    if s.waiting thread = none ∧ d.running ≠ none then
      some { s with dispatches := updateInnermost thread (fun d =>
        { d with running := none }) s.dispatches }
    else none
  | .handlerThrows thread => (s.innermost thread).bind fun d =>
    if s.waiting thread = none ∧ d.running ≠ none then
      some { s with dispatches := updateInnermost thread (fun d =>
        { d with running := none, targets := [] }) s.dispatches }
    else none
  | .leave thread => (s.innermost thread).bind fun d =>
    if d.running = none ∧ d.targets = [] then
      some { s with
        dispatch_ := s.dispatch_.end_ thread
        dispatches := s.dispatches.eraseP fun d => d.thread == thread }
    else none
  | .register thread kind key callback =>
    if s.inUserCode thread then
      some (s.setRegistry kind ((s.registry kind).registerKeyedCallback key callback))
    else none
  | .call thread call =>
    if s.inUserCode thread then
      if s.dispatch_.waits thread then
        some { s with waiting := Function.update s.waiting thread (some call) }
      else some (s.perform call)
    else none
  | .wake thread => (s.waiting thread).bind fun call =>
    if s.dispatch_.inFlight_ = 0 then
      some { s.perform call with waiting := Function.update s.waiting thread none }
    else none

/-- The callbacks of a client, from its construction on. -/
def machine : Machine TcpCallbacks Label where
  init s := s = {}
  step := step

/-- The call that the step completes, and its thread. -/
def completes : Label → Option (ℕ × RegistryCall)
  | .call thread call => if s.dispatch_.waits thread then none else some (thread, call)
  | .wake thread => (s.waiting thread).map fun call => (thread, call)
  | _ => none

/-- The step registers the callback. -/
def Registers (kind : HandlerKind) (callback : ℕ) (a : Label) : Prop :=
  (∃ thread key, a = .register thread kind key (some callback)) ∨
    (∃ thread, s.completes a = some (thread, .setMessageCallback (some callback)) ∧
      kind = .message) ∨
    ∃ thread, s.completes a = some (thread, .setErrorCallback (some callback)) ∧ kind = .error

/-- The callback is not running, no dispatch will call it, and it is not registered. -/
structure Quiet (kind : HandlerKind) (callback : ℕ) (s : TcpCallbacks) : Prop where
  running : ∀ d ∈ s.dispatches, d.kind = kind → d.running ≠ some callback
  targets : ∀ d ∈ s.dispatches, d.kind = kind → callback ∉ d.targets
  registry : ∀ key, (key, callback) ∉ s.registry kind

/-- **The barrier counts the dispatches**, in all and for each thread, and no thread waits for its
own. -/
structure Balanced (s : TcpCallbacks) : Prop where
  sum : s.dispatch_.inFlight_ = total s.dispatch_.depthByThread_
  inFlight : s.dispatch_.inFlight_ = s.dispatches.length
  waiting : ∀ thread, (s.waiting thread).isSome = true → ∀ d ∈ s.dispatches, d.thread ≠ thread

/-! ## The counts -/

/-- What the counts rest on. -/
structure Inv (s : TcpCallbacks) : Prop where
  tallies : Tallies s.dispatch_.depthByThread_ (s.dispatches.map (·.thread))
  inFlight : s.dispatch_.inFlight_ = s.dispatches.length
  waiting : ∀ thread, (s.waiting thread).isSome = true → ∀ d ∈ s.dispatches, d.thread ≠ thread

variable {s} {t : TcpCallbacks}

theorem Inv.balanced (hI : Inv s) : Balanced s :=
  ⟨by rw [hI.inFlight, hI.tallies.total, List.length_map], hI.inFlight, hI.waiting⟩

/-- No entry for a thread without a dispatch. -/
theorem Inv.waits_iff (hI : Inv s) {thread : ℕ} : s.dispatch_.waits thread = true ↔
    (∀ d ∈ s.dispatches, d.thread ≠ thread) ∧ s.dispatches ≠ [] := by
  rw [DispatchBarrier.waits, Bool.and_eq_true, Option.isNone_iff_eq_none, decide_eq_true_eq,
    hI.tallies.lookup_eq_none, hI.inFlight, ← List.length_pos_iff, Nat.pos_iff_ne_zero]
  refine and_congr_left fun _ => ?_
  simp

theorem updateInnermost_threads (thread : ℕ) {f : Dispatch → Dispatch}
    (hf : ∀ d, (f d).thread = d.thread) (ds : List Dispatch) :
    (updateInnermost thread f ds).map (·.thread) = ds.map (·.thread) := by
  induction ds with
  | nil => rfl
  | cons d ds ih =>
    rw [updateInnermost]
    split
    · rw [List.map_cons, List.map_cons, hf]
    · rw [List.map_cons, List.map_cons, ih]

theorem mem_updateInnermost {thread : ℕ} {f : Dispatch → Dispatch} {ds : List Dispatch}
    {d : Dispatch} (hd : d ∈ updateInnermost thread f ds) : d ∈ ds ∨ ∃ d' ∈ ds, d = f d' := by
  induction ds with
  | nil => cases hd
  | cons d' ds ih =>
    rw [updateInnermost] at hd
    split at hd
    · rcases List.mem_cons.mp hd with rfl | hd
      · exact .inr ⟨d', List.mem_cons_self .., rfl⟩
      · exact .inl (List.mem_cons_of_mem _ hd)
    · rcases List.mem_cons.mp hd with rfl | hd
      · exact .inl (List.mem_cons_self ..)
      · rcases ih hd with hd | ⟨d'', hd'', heq⟩
        · exact .inl (List.mem_cons_of_mem _ hd)
        · exact .inr ⟨d'', List.mem_cons_of_mem _ hd'', heq⟩

/-- Within the dispatches, something changes. -/
theorem Inv.updateInnermost (hI : Inv s) (thread : ℕ) {f : Dispatch → Dispatch}
    (hf : ∀ d, (f d).thread = d.thread) :
    Inv { s with dispatches := updateInnermost thread f s.dispatches } := by
  have hthreads := updateInnermost_threads thread hf s.dispatches
  refine ⟨?_, ?_, fun thread' hwait d hd => ?_⟩
  · rw [hthreads]
    exact hI.tallies
  · rw [← List.length_map (f := (·.thread)), hthreads, List.length_map]
    exact hI.inFlight
  · have hmem : d.thread ∈ s.dispatches.map (·.thread) := hthreads ▸ List.mem_map_of_mem hd
    obtain ⟨d', hd', heq⟩ := List.mem_map.mp hmem
    exact heq ▸ hI.waiting thread' hwait d' hd'

/-- A registry call leaves the dispatches. -/
theorem perform_frame (s : TcpCallbacks) (call : RegistryCall) :
    (s.perform call).dispatch_ = s.dispatch_ ∧ (s.perform call).dispatches = s.dispatches ∧
      (s.perform call).waiting = s.waiting := by
  cases call <;> exact ⟨rfl, rfl, rfl⟩

theorem Inv.perform (hI : Inv s) (call : RegistryCall) : Inv (s.perform call) := by
  obtain ⟨hbarrier, hdispatches, hwaiting⟩ := s.perform_frame call
  exact ⟨by rw [hbarrier, hdispatches]; exact hI.tallies,
    by rw [hbarrier, hdispatches]; exact hI.inFlight,
    by rw [hdispatches, hwaiting]; exact hI.waiting⟩

/-- `begin()`, by a thread that does not wait. -/
theorem Inv.beginDispatch (hI : Inv s) {thread : ℕ} (huser : s.inUserCode thread = true)
    (kind : HandlerKind) : Inv (s.beginDispatch thread kind) := by
  rw [TcpCallbacks.beginDispatch]
  split
  · exact hI
  · refine ⟨hI.tallies.countUp thread, ?_, fun thread' hwait d hd => ?_⟩
    · change s.dispatch_.inFlight_ + 1 = s.dispatches.length + 1
      rw [hI.inFlight]
    · rcases List.mem_cons.mp hd with rfl | hd
      · rintro rfl
        have hnone := (Bool.and_eq_true_iff.mp huser).1
        rw [Option.isNone_iff_eq_none] at hnone
        have hsome : (s.waiting thread).isSome = true := hwait
        rw [hnone] at hsome
        cases hsome
      · exact hI.waiting thread' hwait d hd

theorem mem_of_innermost {thread : ℕ} {d : Dispatch} (hd : s.innermost thread = some d) :
    d ∈ s.dispatches ∧ d.thread = thread :=
  ⟨List.mem_of_find?_eq_some hd, by simpa using List.find?_some hd⟩

theorem map_eraseP_thread (thread : ℕ) (ds : List Dispatch) :
    (ds.eraseP fun d => d.thread == thread).map (·.thread) = (ds.map (·.thread)).erase thread := by
  induction ds with
  | nil => rfl
  | cons d ds ih =>
    rw [List.map_cons]
    by_cases heq : d.thread = thread
    · rw [List.eraseP_cons_of_pos (by simpa using heq), heq, List.erase_cons_head]
    · rw [List.eraseP_cons_of_neg (by simpa using heq), List.map_cons, ih,
        List.erase_cons_tail (by simpa using heq)]

/-- `end()`. -/
theorem Inv.leave (hI : Inv s) {thread : ℕ} {d : Dispatch} (hd : s.innermost thread = some d) :
    Inv { s with
      dispatch_ := s.dispatch_.end_ thread
      dispatches := s.dispatches.eraseP fun d => d.thread == thread } := by
  obtain ⟨hmem, hthread⟩ := mem_of_innermost hd
  have hin : thread ∈ s.dispatches.map (·.thread) := hthread ▸ List.mem_map_of_mem hmem
  refine ⟨?_, ?_, fun thread' hwait d' hd' => hI.waiting thread' hwait d' (List.mem_of_mem_eraseP hd')⟩
  · rw [map_eraseP_thread]
    exact hI.tallies.countDown hin
  · change s.dispatch_.inFlight_ - 1 = _
    rw [List.length_eraseP_of_mem hmem (by simpa using hthread), hI.inFlight]

/-- **Every step keeps the counts.** -/
theorem Inv.step (hI : Inv s) {a : Label} (hstep : s.step a = some t) : Inv t := by
  cases a with
  | dispatchMessage thread =>
    obtain ⟨huser, hsome⟩ := Option.ite_none_right_eq_some.mp hstep
    exact Option.some.inj hsome ▸ hI.beginDispatch huser .message
  | reportError thread elsewhere =>
    obtain ⟨huser, hsome⟩ := Option.ite_none_right_eq_some.mp hstep
    split at hsome
    · exact Option.some.inj hsome ▸ hI
    · exact Option.some.inj hsome ▸ hI.beginDispatch huser .error
  | invoke thread =>
    obtain ⟨d, -, hsome⟩ := Option.bind_eq_some_iff.mp hstep
    obtain ⟨-, hsome⟩ := Option.ite_none_right_eq_some.mp hsome
    exact Option.some.inj hsome ▸ hI.updateInnermost thread fun _ => rfl
  | handlerReturns thread =>
    obtain ⟨d, -, hsome⟩ := Option.bind_eq_some_iff.mp hstep
    obtain ⟨-, hsome⟩ := Option.ite_none_right_eq_some.mp hsome
    exact Option.some.inj hsome ▸ hI.updateInnermost thread fun _ => rfl
  | handlerThrows thread =>
    obtain ⟨d, -, hsome⟩ := Option.bind_eq_some_iff.mp hstep
    obtain ⟨-, hsome⟩ := Option.ite_none_right_eq_some.mp hsome
    exact Option.some.inj hsome ▸ hI.updateInnermost thread fun _ => rfl
  | leave thread =>
    obtain ⟨d, hd, hsome⟩ := Option.bind_eq_some_iff.mp hstep
    obtain ⟨-, hsome⟩ := Option.ite_none_right_eq_some.mp hsome
    exact Option.some.inj hsome ▸ hI.leave hd
  | register thread kind key callback =>
    obtain ⟨-, hsome⟩ := Option.ite_none_right_eq_some.mp hstep
    exact Option.some.inj hsome ▸ ⟨hI.tallies, hI.inFlight, hI.waiting⟩
  | call thread call =>
    obtain ⟨-, hsome⟩ := Option.ite_none_right_eq_some.mp hstep
    split at hsome
    next hwaits =>
      -- a thread that waits is in no dispatch
      refine Option.some.inj hsome ▸ ⟨hI.tallies, hI.inFlight, fun thread' hwait d hd => ?_⟩
      by_cases heq : thread' = thread
      · exact heq ▸ (hI.waits_iff.mp hwaits).1 d hd
      · have hbefore : (s.waiting thread').isSome = true := by
          simpa [Function.update_of_ne heq] using hwait
        exact hI.waiting thread' hbefore d hd
    · exact Option.some.inj hsome ▸ hI.perform call
  | wake thread =>
    obtain ⟨call, -, hsome⟩ := Option.bind_eq_some_iff.mp hstep
    obtain ⟨-, hsome⟩ := Option.ite_none_right_eq_some.mp hsome
    have hp := hI.perform call
    refine Option.some.inj hsome ▸ ⟨hp.tallies, hp.inFlight, fun thread' hwait d hd => ?_⟩
    by_cases heq : thread' = thread
    · simp [heq] at hwait
    · have hbefore : (s.waiting thread').isSome = true := by
        simpa [Function.update_of_ne heq] using hwait
      exact hI.waiting thread' hbefore d ((s.perform_frame call).2.1 ▸ hd)

theorem inv_of_reachable (hr : machine.Reachable s) : Inv s := by
  refine Machine.ReachableUnder.invariant (I := Inv) ⟨fun s hs => ?_, fun _ _ _ hI _ => hI.step⟩ hr
  exact hs ▸ ⟨.empty, rfl, fun _ hwait => by cases hwait⟩

/-! ## A handler that is gone -/

variable {kind : HandlerKind} {callback : ℕ}

@[simp] theorem setRegistry_self (callbacks : CallerKeyed) :
    (s.setRegistry kind callbacks).registry kind = callbacks := Function.update_self ..

theorem setRegistry_of_ne {kind' : HandlerKind} (hkind : kind ≠ kind') {callbacks : CallerKeyed} :
    (s.setRegistry kind' callbacks).registry kind = s.registry kind :=
  Function.update_of_ne hkind ..

/-- Under the only key, it is gone. -/
theorem not_mem_erase {callbacks : CallerKeyed} {key : String}
    (hmem : (key, callback) ∈ callbacks) (hone : callbacks.registrations callback = 1)
    (key' : String) : (key', callback) ∉ callbacks.erase (key, callback) := by
  intro hmem'
  have hcount : callbacks.countP (fun c => c.2 == callback) =
      ((key, callback) :: callbacks.erase (key, callback)).countP fun c => c.2 == callback :=
    (List.perm_cons_erase hmem).countP_eq _
  rw [List.countP_cons_of_pos (by simp)] at hcount
  have hone' : callbacks.countP (fun c => c.2 == callback) = 1 := hone
  have hpos : 0 < (callbacks.erase (key, callback)).countP fun c => c.2 == callback :=
    List.countP_pos_iff.mpr ⟨(key', callback), hmem', by simp⟩
  omega

theorem mem_snapshot {callbacks : CallerKeyed} {key : String} :
    callback ∈ callbacks.snapshotCallbacksForKey key ↔ (key, callback) ∈ callbacks := by
  simp [CallerKeyed.snapshotCallbacksForKey]

/-- What a registry call leaves registered was registered, or is the new default. -/
theorem mem_perform {call : RegistryCall} {key : String}
    (hmem : (key, callback) ∈ (s.perform call).registry kind) :
    (key, callback) ∈ s.registry kind ∨
      (call = .setMessageCallback (some callback) ∧ kind = .message) ∨
      call = .setErrorCallback (some callback) ∧ kind = .error := by
  have herase (callbacks : CallerKeyed) (key' : String) (c : Option ℕ)
      (hmem : (key, callback) ∈ (callbacks.unregisterKeyedCallback key' c).1) :
      (key, callback) ∈ callbacks := by
    cases c with
    | none => exact hmem
    | some c => exact List.mem_of_mem_erase hmem
  have hreplace (callbacks : CallerKeyed) (old new : Option ℕ)
      (hmem : (key, callback) ∈ ((callbacks.unregisterKeyedCallback defaultKey old).1
        ).registerKeyedCallback defaultKey new) :
      (key, callback) ∈ callbacks ∨ new = some callback := by
    rcases List.mem_append.mp hmem with hmem | hmem
    · exact .inl (herase callbacks defaultKey old hmem)
    · obtain ⟨c, hc, heq⟩ := Option.map_eq_some_iff.mp (Option.mem_toList.mp hmem)
      exact .inr ((Prod.mk.inj heq).2 ▸ hc)
  have hother {kind' : HandlerKind} {callbacks : CallerKeyed} (hkind : kind ≠ kind')
      (hmem : (key, callback) ∈ Function.update s.registry kind' callbacks kind) :
      (key, callback) ∈ s.registry kind := by
    rwa [Function.update_of_ne hkind] at hmem
  cases call with
  | unregister kind' key' c =>
    by_cases hkind : kind = kind'
    · subst hkind
      rw [perform, setRegistry_self] at hmem
      exact .inl (herase _ _ _ hmem)
    · exact .inl (hother hkind hmem)
  | unregisterAll kind' key' =>
    by_cases hkind : kind = kind'
    · subst hkind
      rw [perform, setRegistry_self] at hmem
      exact .inl (List.mem_of_mem_filter hmem)
    · exact .inl (hother hkind hmem)
  | setMessageCallback c =>
    by_cases hkind : kind = .message
    · subst hkind
      change (key, callback) ∈ Function.update s.registry .message _ .message at hmem
      rw [Function.update_self] at hmem
      rcases hreplace _ _ _ hmem with hmem | hc
      · exact .inl hmem
      · exact .inr (.inl ⟨by rw [hc], rfl⟩)
    · exact .inl (hother hkind hmem)
  | setErrorCallback c =>
    by_cases hkind : kind = .error
    · subst hkind
      change (key, callback) ∈ Function.update s.registry .error _ .error at hmem
      rw [Function.update_self] at hmem
      rcases hreplace _ _ _ hmem with hmem | hc
      · exact .inl hmem
      · exact .inr (.inr ⟨by rw [hc], rfl⟩)
    · exact .inl (hother hkind hmem)

/-- A registry call that does not register it. -/
theorem Quiet.perform (hq : Quiet kind callback s) {call : RegistryCall}
    (hmessage : ¬ (call = .setMessageCallback (some callback) ∧ kind = .message))
    (herror : ¬ (call = .setErrorCallback (some callback) ∧ kind = .error)) :
    Quiet kind callback (s.perform call) := by
  obtain ⟨-, hdispatches, -⟩ := s.perform_frame call
  refine ⟨hdispatches ▸ hq.running, hdispatches ▸ hq.targets, fun key hmem => ?_⟩
  rcases mem_perform hmem with hmem | hnew | hnew
  · exact hq.registry key hmem
  · exact hmessage hnew
  · exact herror hnew

/-- A new dispatch does not have it in its snapshot. -/
theorem Quiet.beginDispatch (hq : Quiet kind callback s) (thread : ℕ) (kind' : HandlerKind) :
    Quiet kind callback (s.beginDispatch thread kind') := by
  rw [TcpCallbacks.beginDispatch]
  split
  · exact hq
  · refine ⟨fun d hd hkind => ?_, fun d hd hkind => ?_, hq.registry⟩
    · rcases List.mem_cons.mp hd with rfl | hd
      · simp
      · exact hq.running d hd hkind
    · rcases List.mem_cons.mp hd with rfl | hd
      · obtain rfl : kind' = kind := hkind
        exact fun hmem => hq.registry _ (mem_snapshot.mp hmem)
      · exact hq.targets d hd hkind

/-- A dispatch that goes on runs what it had still to call. -/
theorem Quiet.updateInnermost (hq : Quiet kind callback s) (thread : ℕ) {f : Dispatch → Dispatch}
    (hkind : ∀ d, (f d).kind = d.kind)
    (hrunning : ∀ d, (f d).running = some callback → callback ∈ d.targets)
    (htargets : ∀ d, callback ∈ (f d).targets → callback ∈ d.targets) :
    Quiet kind callback { s with dispatches := updateInnermost thread f s.dispatches } := by
  refine ⟨fun d hd hk => ?_, fun d hd hk => ?_, hq.registry⟩
  · rcases mem_updateInnermost hd with hd | ⟨d', hd', rfl⟩
    · exact hq.running d hd hk
    · exact fun hr => hq.targets d' hd' (hkind d' ▸ hk) (hrunning d' hr)
  · rcases mem_updateInnermost hd with hd | ⟨d', hd', rfl⟩
    · exact hq.targets d hd hk
    · exact fun hmem => hq.targets d' hd' (hkind d' ▸ hk) (htargets d' hmem)

/-- **A handler that is gone stays gone**, until it is registered again. -/
theorem Quiet.step (hq : Quiet kind callback s) {a : Label} (hnew : ¬ s.Registers kind callback a)
    (hstep : s.step a = some t) : Quiet kind callback t := by
  have hperform {thread : ℕ} {call : RegistryCall} (hc : s.completes a = some (thread, call)) :
      Quiet kind callback (s.perform call) := by
    refine hq.perform ?_ ?_
    · rintro ⟨rfl, hkind⟩
      exact hnew (.inr (.inl ⟨thread, hc, hkind⟩))
    · rintro ⟨rfl, hkind⟩
      exact hnew (.inr (.inr ⟨thread, hc, hkind⟩))
  cases a with
  | dispatchMessage thread =>
    obtain ⟨-, hsome⟩ := Option.ite_none_right_eq_some.mp hstep
    exact Option.some.inj hsome ▸ hq.beginDispatch thread .message
  | reportError thread elsewhere =>
    obtain ⟨-, hsome⟩ := Option.ite_none_right_eq_some.mp hstep
    split at hsome
    · exact Option.some.inj hsome ▸ hq
    · exact Option.some.inj hsome ▸ hq.beginDispatch thread .error
  | invoke thread =>
    obtain ⟨d, -, hsome⟩ := Option.bind_eq_some_iff.mp hstep
    obtain ⟨-, hsome⟩ := Option.ite_none_right_eq_some.mp hsome
    exact Option.some.inj hsome ▸ hq.updateInnermost thread (fun _ => rfl)
      (fun _ hr => List.mem_of_mem_head? hr) fun _ => List.mem_of_mem_tail
  | handlerReturns thread =>
    obtain ⟨d, -, hsome⟩ := Option.bind_eq_some_iff.mp hstep
    obtain ⟨-, hsome⟩ := Option.ite_none_right_eq_some.mp hsome
    exact Option.some.inj hsome ▸ hq.updateInnermost thread (fun _ => rfl) (fun _ hr => by cases hr)
      fun _ => id
  | handlerThrows thread =>
    obtain ⟨d, -, hsome⟩ := Option.bind_eq_some_iff.mp hstep
    obtain ⟨-, hsome⟩ := Option.ite_none_right_eq_some.mp hsome
    exact Option.some.inj hsome ▸ hq.updateInnermost thread (fun _ => rfl) (fun _ hr => by cases hr)
      fun _ hmem => absurd hmem List.not_mem_nil
  | leave thread =>
    obtain ⟨d, -, hsome⟩ := Option.bind_eq_some_iff.mp hstep
    obtain ⟨-, hsome⟩ := Option.ite_none_right_eq_some.mp hsome
    exact Option.some.inj hsome ▸ ⟨fun d hd => hq.running d (List.mem_of_mem_eraseP hd),
      fun d hd => hq.targets d (List.mem_of_mem_eraseP hd), hq.registry⟩
  | register thread kind' key c =>
    obtain ⟨-, hsome⟩ := Option.ite_none_right_eq_some.mp hstep
    refine Option.some.inj hsome ▸ ⟨hq.running, hq.targets, fun key' hmem => ?_⟩
    by_cases hkind : kind = kind'
    · subst hkind
      rw [setRegistry_self] at hmem
      rcases List.mem_append.mp hmem with hmem | hmem
      · exact hq.registry key' hmem
      · obtain ⟨c', hc', heq⟩ := Option.map_eq_some_iff.mp (Option.mem_toList.mp hmem)
        have hc : c = some callback := (Prod.mk.inj heq).2 ▸ hc'
        exact hnew (.inl ⟨thread, key, by rw [hc]⟩)
    · rw [setRegistry_of_ne hkind] at hmem
      exact hq.registry key' hmem
  | call thread call =>
    obtain ⟨-, hsome⟩ := Option.ite_none_right_eq_some.mp hstep
    split at hsome
    · exact Option.some.inj hsome ▸ ⟨hq.running, hq.targets, hq.registry⟩
    next hwaits =>
      exact Option.some.inj hsome ▸ hperform (by rw [completes, if_neg hwaits])
  | wake thread =>
    obtain ⟨call, hcall, hsome⟩ := Option.bind_eq_some_iff.mp hstep
    obtain ⟨-, hsome⟩ := Option.ite_none_right_eq_some.mp hsome
    have hp := hperform (by rw [completes, hcall]; rfl : s.completes (.wake thread) = some (thread, call))
    exact Option.some.inj hsome ▸ ⟨hp.running, hp.targets, hp.registry⟩

/-- A call completes outside its thread's dispatches only when none is in flight. -/
theorem Inv.quiescent (hI : Inv s) {a : Label} {thread : ℕ} {call : RegistryCall}
    (hstep : s.step a = some t) (hc : s.completes a = some (thread, call))
    (houtside : ∀ d ∈ s.dispatches, d.thread ≠ thread) :
    s.dispatches = [] ∧ t.dispatches = [] ∧ t.registry = (s.perform call).registry := by
  have hframe := (s.perform_frame call).2.1
  cases a with
  | call thread' call' =>
    rw [completes] at hc
    obtain ⟨hwaits, ⟨⟩⟩ := Option.ite_none_left_eq_some.mp hc
    obtain ⟨-, hsome⟩ := Option.ite_none_right_eq_some.mp hstep
    rw [if_neg hwaits] at hsome
    obtain rfl := Option.some.inj hsome
    have hnil : s.dispatches = [] := by
      by_contra hsome
      exact hwaits (hI.waits_iff.mpr ⟨houtside, hsome⟩)
    exact ⟨hnil, hframe.trans hnil, rfl⟩
  | wake thread' =>
    obtain ⟨call', hcall, ⟨⟩⟩ := Option.map_eq_some_iff.mp hc
    obtain ⟨call'', hcall', hsome⟩ := Option.bind_eq_some_iff.mp hstep
    obtain rfl := Option.some.inj (hcall.symm.trans hcall')
    obtain ⟨hzero, rfl⟩ := guarded hsome
    have hnil : s.dispatches = [] := List.eq_nil_of_length_eq_zero (hI.inFlight.symm.trans hzero)
    exact ⟨hnil, hframe.trans hnil, rfl⟩
  | _ => cases hc

/-- **The barrier is sound.**  In every state of every run it counts the dispatches and no thread
waits for its own; and a handler that was registered once and is unregistered from outside every
dispatch is not running when the call returns, and is not invoked again until it is registered
again. -/
theorem barrier_sound (hr : machine.Reachable s) : Balanced s ∧
    ∀ a t thread kind key callback, machine.step s a = some t →
      s.completes a = some (thread, .unregister kind key (some callback)) →
      ((s.registry kind).unregisterKeyedCallback key (some callback)).2 = true →
      (∀ d ∈ s.dispatches, d.thread ≠ thread) → (s.registry kind).registrations callback = 1 →
      ∀ as, machine.Allowed (fun s a => ¬ s.Registers kind callback a) t as →
        machine.Always (Quiet kind callback) t as := by
  have hI := inv_of_reachable hr
  refine ⟨hI.balanced, fun a t thread kind key callback hstep hc hfound houtside hone as hall => ?_⟩
  obtain ⟨-, hnil, hregistry⟩ := hI.quiescent hstep hc houtside
  have hquiet : Quiet kind callback t := by
    refine ⟨fun d hd => ?_, fun d hd => ?_, fun key' hmem => ?_⟩
    · exact absurd (hnil ▸ hd) List.not_mem_nil
    · exact absurd (hnil ▸ hd) List.not_mem_nil
    · rw [hregistry, perform, setRegistry_self] at hmem
      exact not_mem_erase (of_decide_eq_true hfound) hone key' hmem
  exact hall.always (fun _ _ _ hq hnew hstep => hq.step hnew hstep) hquiet

/-- A handler that runs while it is being unregistered, and is then gone. -/
theorem barrier_sound_running : ∃ s t, machine.Reachable s ∧ s.step (.wake 2) = some t ∧
    Balanced s ∧ machine.Always (Quiet .message 7) t [.dispatchMessage 1] := by
  have hrun : (machine.exec {}
      [.register 0 .message "default" (some 7), .dispatchMessage 1, .invoke 1,
        .call 2 (.unregister .message "default" (some 7)), .handlerReturns 1, .leave 1]).any (fun s =>
          (s.step (.wake 2)).isSome &&
            decide (s.completes (.wake 2) = some (2, .unregister .message "default" (some 7))) &&
            ((s.registry .message).unregisterKeyedCallback "default" (some 7)).2 &&
            s.dispatches.isEmpty && decide ((s.registry .message).registrations 7 = 1)) = true := by
    decide +kernel
  obtain ⟨s, hexec, hs⟩ := (Option.any_eq_true _ _).mp hrun
  simp only [Bool.and_eq_true, decide_eq_true_eq, List.isEmpty_iff] at hs
  obtain ⟨⟨⟨⟨hsome, hc⟩, hfound⟩, hnil⟩, hone⟩ := hs
  obtain ⟨t, hstep⟩ := Option.isSome_iff_exists.mp hsome
  have hinit : machine.Reachable {} := .init rfl
  have hr : machine.Reachable s := hinit.exec hexec
  obtain ⟨hbalanced, hgone⟩ := barrier_sound hr
  refine ⟨s, t, hr, hstep, hbalanced, hgone (.wake 2) t 2 .message "default" 7 hstep hc hfound ?_ hone _ ?_⟩
  · exact fun d hd => absurd (hnil ▸ hd) List.not_mem_nil
  · refine fun u _ => ⟨?_, trivial⟩
    rintro (⟨thread, key, h⟩ | ⟨thread, h, -⟩ | ⟨thread, h, -⟩)
    · cases h
    · cases h
    · cases h

end TcpCallbacks

end AxonVex
