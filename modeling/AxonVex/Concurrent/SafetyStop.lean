import AxonVex.Concurrent.Shutdown
import AxonVex.Machinery.WaitFor

/-!
# Concurrent/SafetyStop — a safety manager's e-stop halts the system

    trigger:  latch;  handlers;  lock emergencyCallbackMutex_;  emergencyShutdown();  unlock
    set:                         lock emergencyCallbackMutex_;  store;                unlock

The callback that `setSafetyHook` installs runs under the mutex, and it joins the workers.  The latch
keeps a worker's trip away from the mutex, but no worker's `setEmergencyCallback`, and no trip after a
reset.

Any thread may call at any time, a worker from the user code it runs, and a handler inside a call.
-/

namespace AxonVex

open Machinery

namespace SafetyStop

/-- What may be installed; null is `none`. -/
inductive EmergencyCallback
  /-- the function of `setSafetyHook` -/
  | ofSystem
  /-- another function, which returns -/
  | other
  deriving DecidableEq, Repr

/-- What an e-stop uses of a `SafetyManager`. -/
structure Manager where
  emergencyStopped_ : Bool := false
  emergencyCallback_ : Option EmergencyCallback := none
  /-- the thread that holds it -/
  emergencyCallbackMutex_ : Option Thread := none
  deriving DecidableEq, Repr

/-- The mutexes that are held while a worker is joined. -/
inductive HeldMutex
  | emergencyCallback (manager : ℕ)
  | teardown
  deriving DecidableEq, Repr

/-- `triggerEmergencyStop()`: what it is about to do. -/
inductive TriggerPc
  | exchange
  /-- the handlers of the event run -/
  | handlers
  | lock
  /-- in the `emergencyShutdown()` of the callback -/
  | shutdown (pc : ShutdownPc)
  /-- another callback runs -/
  | other
  | unlock

/-- `resetEmergencyStop()`. -/
inductive ResetPc
  | load
  | store
  | handlers

/-- `setEmergencyCallback()`. -/
inductive SetPc
  | lock
  | store
  | unlock

/-- `setSafetyHook()`. -/
inductive HookPc
  /-- the callback of the hook there was is about to be cleared -/
  | clear
  | assign

/-- A call. -/
inductive Frame
  | trigger (manager : ℕ) (pc : TriggerPc)
  | reset (manager : ℕ) (pc : ResetPc)
  | set (manager : ℕ) (callback : Option EmergencyCallback) (pc : SetPc)
  | setHook (hook : Option ℕ) (pc : HookPc)
  /-- `emergencyShutdown()`, called by itself -/
  | shutdown (pc : ShutdownPc)

/-- What a thread may call. -/
inductive Call
  | triggerEmergencyStop (manager : ℕ)
  | resetEmergencyStop (manager : ℕ)
  | setEmergencyCallback (manager : ℕ) (callback : Option EmergencyCallback)
  | setSafetyHook (hook : Option ℕ)
  | emergencyShutdown

def Call.frame : Call → Frame
  | triggerEmergencyStop manager => .trigger manager .exchange
  | resetEmergencyStop manager => .reset manager .load
  | setEmergencyCallback manager callback => .set manager callback .lock
  | setSafetyHook hook => .setHook hook .clear
  | emergencyShutdown => .shutdown .transition

/-- User code runs in the call. -/
def Frame.calling : Frame → Bool
  | trigger _ .handlers => true
  | reset _ .handlers => true
  | _ => false

end SafetyStop

open SafetyStop

/-- A system, the safety managers and the threads. -/
structure SafetyStop where
  shared : Shared
  managers : ℕ → Manager := fun _ => {}
  safetyHook_ : Option ℕ := none
  /-- the calls of a thread, the last one first -/
  calls : Thread → List Frame := fun _ => []

namespace SafetyStop

variable (s : SafetyStop) (t : Thread)

def setFrames (frames : List Frame) : SafetyStop :=
  { s with calls := Function.update s.calls t frames }

def setManager (k : ℕ) (manager : Manager) : SafetyStop :=
  { s with managers := Function.update s.managers k manager }

/-- User code runs on the thread. -/
def userCode : Bool :=
  match s.calls t with
  | [] => s.shared.system.isPresent t
  | frame :: _ => frame.calling

/-- Where a trip goes on that has taken the mutex. -/
def callbackPc : Option EmergencyCallback → TriggerPc
  | some .ofSystem => .shutdown .transition
  | some .other => .other
  | none => .unlock

def triggerStep (k : ℕ) (rest : List Frame) : TriggerPc → Option SafetyStop
  | .exchange =>
    if (s.managers k).emergencyStopped_ then some (s.setFrames t rest)
    else some ((s.setManager k { s.managers k with emergencyStopped_ := true }).setFrames t
      (.trigger k .handlers :: rest))
  | .handlers => some (s.setFrames t (.trigger k .lock :: rest))
  | .lock =>
    if (s.managers k).emergencyCallbackMutex_.isNone then
      some ((s.setManager k { s.managers k with emergencyCallbackMutex_ := some t }).setFrames t
        (.trigger k (callbackPc (s.managers k).emergencyCallback_) :: rest))
    else none
  | .shutdown pc => (s.shared.shutdownStep t pc).map fun r => { s with shared := r.1 }.setFrames t
      (.trigger k (match r.2 with
        | .done => .unlock
        | pc => .shutdown pc) :: rest)
  | .other => some (s.setFrames t (.trigger k .unlock :: rest))
  | .unlock =>
    some ((s.setManager k { s.managers k with emergencyCallbackMutex_ := none }).setFrames t rest)

def resetStep (k : ℕ) (rest : List Frame) : ResetPc → SafetyStop
  | .load => s.setFrames t (if (s.managers k).emergencyStopped_ then .reset k .store :: rest else rest)
  | .store => (s.setManager k { s.managers k with emergencyStopped_ := false }).setFrames t
      (.reset k .handlers :: rest)
  | .handlers => s.setFrames t rest

def setStep (k : ℕ) (callback : Option EmergencyCallback) (rest : List Frame) :
    SetPc → Option SafetyStop
  | .lock =>
    if (s.managers k).emergencyCallbackMutex_.isNone then
      some ((s.setManager k { s.managers k with emergencyCallbackMutex_ := some t }).setFrames t
        (.set k callback .store :: rest))
    else none
  | .store => some ((s.setManager k { s.managers k with emergencyCallback_ := callback }).setFrames t
      (.set k callback .unlock :: rest))
  | .unlock =>
    some ((s.setManager k { s.managers k with emergencyCallbackMutex_ := none }).setFrames t rest)

/-- The hook whose callback `setSafetyHook(hook)` clears. -/
def replaced (hook : Option ℕ) : Option ℕ := s.safetyHook_.filter fun k => some k != hook

def hookStep (hook : Option ℕ) (rest : List Frame) : HookPc → SafetyStop
  | .clear => s.setFrames t (match s.replaced hook with
    | some k => .set k none .lock :: .setHook hook .assign :: rest
    | none => .setHook hook .assign :: rest)
  | .assign => { s with safetyHook_ := hook }.setFrames t (match hook with
    | some k => .set k (some .ofSystem) .lock :: rest
    | none => rest)

/-- A thread steps in the last of its calls. -/
def execute (rest : List Frame) : Frame → Option SafetyStop
  | .trigger k pc => s.triggerStep t k rest pc
  | .reset k pc => some (s.resetStep t k rest pc)
  | .set k callback pc => s.setStep t k callback rest pc
  | .setHook hook pc => some (s.hookStep t hook rest pc)
  | .shutdown pc => (s.shared.shutdownStep t pc).map fun r => { s with shared := r.1 }.setFrames t
      (match r.2 with
        | .done => rest
        | pc => .shutdown pc :: rest)

/-- What happens. -/
inductive Label
  | call (thread : Thread) (c : Call)
  | advance (thread : Thread)
  /-- a step of a worker loop -/
  | worker (a : Action)

/-- One step.  A worker whose user code is in a call goes on when the call returns. -/
def step : Label → Option SafetyStop
  | .call t c => if s.userCode t then some (s.setFrames t (c.frame :: s.calls t)) else none
  | .advance t => match s.calls t with
    | [] => none
    | frame :: rest => s.execute t rest frame
  | .worker a =>
    if a.workerThread.all fun thread => (s.calls thread).isEmpty then
      (s.shared.system.workerStep a).map fun system => { s with shared := s.shared.put system }
    else none

/-- Any system and any safety managers, with no call under way. -/
def idle (system : AxonVexSystem) (emergencyStopped_ : ℕ → Bool)
    (emergencyCallback_ : ℕ → Option EmergencyCallback) (safetyHook_ : Option ℕ) : SafetyStop where
  shared := { system := system }
  managers k :=
    { emergencyStopped_ := emergencyStopped_ k, emergencyCallback_ := emergencyCallback_ k }
  safetyHook_ := safetyHook_

def machine : Machine SafetyStop Label where
  init s := ∃ system stopped callback hook, s = idle system stopped callback hook
  step := step

/-! ## Who waits for whom -/

/-- The worker that a thread joins at this step of `emergencyShutdown()`; its own loop it does not. -/
def joins (t : Thread) : ShutdownPc → Option Thread
  | .joinBus => if t = .dispatch then none else some .dispatch
  | .joinMonitor => if t = .monitor then none else some .monitor
  | .joinScheduler => if t = .scheduler then none else some .scheduler
  | _ => none

/-- The worker that the next step is to join. -/
def comesToJoin (t : Thread) : ShutdownPc → Option Thread
  | .stopBusAgain => joins t .joinBus
  | .drain => joins t .joinMonitor
  | .halt => joins t .joinScheduler
  | _ => none

namespace Frame

/-- Where a call stands in `emergencyShutdown()`. -/
def shutdownPc? : Frame → Option ShutdownPc
  | trigger _ (.shutdown pc) => some pc
  | shutdown pc => some pc
  | _ => none

def joins (t : Thread) (f : Frame) : Option Thread := f.shutdownPc?.bind (SafetyStop.joins t)

def comesToJoin (t : Thread) (f : Frame) : Option Thread :=
  f.shutdownPc?.bind (SafetyStop.comesToJoin t)

/-- The mutex that a call is about to take. -/
def waits : Frame → Option HeldMutex
  | trigger k .lock => some (.emergencyCallback k)
  | set k _ .lock => some (.emergencyCallback k)
  | _ => none

/-- The call neither waits nor joins. -/
def Resting (f : Frame) : Prop := (∀ t, f.joins t = none) ∧ f.waits = none

end Frame

/-- The mutex that a call comes to with its next step. -/
def comesTo : Frame → Option HeldMutex
  | .trigger k .handlers => some (.emergencyCallback k)
  | .setHook hook .clear => (s.replaced hook).map .emergencyCallback
  | .setHook hook .assign => hook.map .emergencyCallback
  | _ => none

def holder : HeldMutex → Option Thread
  | .emergencyCallback k => (s.managers k).emergencyCallbackMutex_
  | .teardown => s.shared.teardown

/-- Who holds the mutexes, and who waits. -/
def waitFor : WaitFor Thread HeldMutex where
  holder := s.holder
  joining t := (s.calls t).head?.bind (Frame.joins t)
  waiting t := (s.calls t).head?.bind Frame.waits

/-- **The condition**: a thread comes to `emergencyCallbackMutex_` only while no thread that holds it
joins that thread; and a thread comes to a join only while the worker waits for no mutex it holds. -/
def Spares : Label → Prop
  | .call t c => s.waitFor.Clear t c.frame.waits none
  | .advance t =>
    s.waitFor.Clear t ((s.calls t).head?.bind s.comesTo) ((s.calls t).head?.bind (Frame.comesToJoin t))
  | .worker _ => True

/-- The calls below the last one rest. -/
def Nested : Prop := ∀ t, ∀ f ∈ (s.calls t).tail, f.Resting

variable {s} {t} {s' : SafetyStop} {frame : Frame} {frames rest : List Frame}

theorem joins_ne (pc : ShutdownPc) : joins t pc ≠ some t := by
  intro h
  cases pc <;> simp only [joins] at h <;> try cases h
  all_goals
    split_ifs at h with hself
    exact hself (Option.some.inj h).symm

theorem Frame.joins_ne : frame.joins t ≠ some t := by
  intro h
  obtain ⟨pc, -, hpc⟩ := Option.bind_eq_some_iff.mp h
  exact SafetyStop.joins_ne pc hpc

/-- **A step of `emergencyShutdown()`** comes to its joins one by one. -/
theorem joins_shutdownStep {m m' : Shared} {pc pc' : ShutdownPc}
    (h : m.shutdownStep t pc = some (m', pc')) :
    joins t pc' = comesToJoin t pc ∧
      (m'.teardown = m.teardown ∨
        comesToJoin t pc = none ∧ (m'.teardown = none ∨ m'.teardown = some t)) := by
  cases pc with
  | tryTeardown =>
    simp only [Shared.shutdownStep] at h
    split_ifs at h
    · obtain ⟨⟩ := h
      exact ⟨rfl, .inl rfl⟩
    · obtain ⟨⟩ := h
      exact ⟨rfl, .inr ⟨rfl, .inr rfl⟩⟩
  | joinBus =>
    simp only [Shared.shutdownStep] at h
    split at h
    · obtain ⟨⟩ := h
      exact ⟨rfl, .inl rfl⟩
    · cases h
  | joinMonitor =>
    simp only [Shared.shutdownStep] at h
    split_ifs at h
    obtain ⟨⟩ := h
    exact ⟨rfl, .inl rfl⟩
  | joinScheduler =>
    simp only [Shared.shutdownStep] at h
    split_ifs at h
    obtain ⟨⟩ := h
    exact ⟨rfl, .inl rfl⟩
  | release =>
    obtain ⟨⟩ := h
    exact ⟨rfl, .inr ⟨rfl, .inl rfl⟩⟩
  | done => exact absurd h (by simp [Shared.shutdownStep])
  | _ =>
    obtain ⟨⟩ := h
    exact ⟨rfl, .inl rfl⟩

/-! ## The steps -/

/-- A thread steps, with these calls left. -/
theorem moves {comes : Option HeldMutex} {joining : Option Thread}
    (hcalls : s'.calls = Function.update s.calls t frames)
    (hcomes : frames.head?.bind Frame.waits = comes)
    (hjoins : frames.head?.bind (Frame.joins t) = joining)
    (htaken : ∀ x h, s'.holder x = some h → s.holder x = some h ∨ h = t ∧ joining = none)
    (hkept : comes.isSome = true ∨ joining.isSome = true → s'.holder = s.holder) :
    s.waitFor.Moves s'.waitFor t comes joining where
  waiting := by
    rw [← hcomes]
    change (s'.calls t).head?.bind Frame.waits = _
    rw [hcalls, Function.update_self]
  joining := by
    rw [← hjoins]
    change (s'.calls t).head?.bind (Frame.joins t) = _
    rw [hcalls, Function.update_self]
  waiting_of_ne u hu := by
    change (s'.calls u).head?.bind Frame.waits = (s.calls u).head?.bind Frame.waits
    rw [hcalls, Function.update_of_ne hu]
  joining_of_ne u hu := by
    change (s'.calls u).head?.bind (Frame.joins u) = (s.calls u).head?.bind (Frame.joins u)
    rw [hcalls, Function.update_of_ne hu]
  taken := htaken
  kept := hkept

/-- A manager changes, but not who holds its mutex. -/
theorem holder_setManager (s : SafetyStop) {k : ℕ} (manager : Manager)
    (h : manager.emergencyCallbackMutex_ = (s.managers k).emergencyCallbackMutex_) :
    (s.setManager k manager).holder = s.holder := by
  funext x
  cases x with
  | teardown => rfl
  | emergencyCallback j =>
    change (Function.update s.managers k manager j).emergencyCallbackMutex_ = _
    by_cases hj : j = k
    · subst hj
      rw [Function.update_self, h]
      rfl
    · rw [Function.update_of_ne hj]
      rfl

/-- A thread takes a mutex. -/
theorem holder_lock (k : ℕ) {x : HeldMutex} {u : Thread}
    (hx : (s.setManager k { s.managers k with emergencyCallbackMutex_ := some t }).holder x =
      some u) : s.holder x = some u ∨ u = t := by
  cases x with
  | teardown => exact .inl hx
  | emergencyCallback j =>
    change (Function.update s.managers k _ j).emergencyCallbackMutex_ = some u at hx
    by_cases hj : j = k
    · subst hj
      rw [Function.update_self] at hx
      exact .inr (Option.some.inj hx).symm
    · rw [Function.update_of_ne hj] at hx
      exact .inl hx

/-- A mutex is given back. -/
theorem holder_unlock (k : ℕ) {x : HeldMutex} {u : Thread}
    (hx : (s.setManager k { s.managers k with emergencyCallbackMutex_ := none }).holder x =
      some u) : s.holder x = some u := by
  cases x with
  | teardown => exact hx
  | emergencyCallback j =>
    change (Function.update s.managers k _ j).emergencyCallbackMutex_ = some u at hx
    by_cases hj : j = k
    · subst hj
      rw [Function.update_self] at hx
      cases hx
    · rw [Function.update_of_ne hj] at hx
      exact hx

/-- A thread's step: its calls, and where it comes. -/
structure Advances (s s' : SafetyStop) (t : Thread) (frames : List Frame)
    (comes : Option HeldMutex) (joining : Option Thread) : Prop where
  calls : s'.calls = Function.update s.calls t frames
  resting : ∀ f ∈ frames.tail, f.Resting
  moves : s.waitFor.Moves s'.waitFor t comes joining

variable {comes : Option HeldMutex} {joining : Option Thread}

theorem head_resting (t : Thread) (hrest : ∀ f ∈ rest, f.Resting) :
    rest.head?.bind Frame.waits = none ∧ rest.head?.bind (Frame.joins t) = none := by
  cases rest with
  | nil => exact ⟨rfl, rfl⟩
  | cons f rest => exact ⟨(hrest f List.mem_cons_self).2, (hrest f List.mem_cons_self).1 t⟩

/-- The last call is over. -/
theorem advances_pop (hrest : ∀ f ∈ rest, f.Resting)
    (hcalls : s'.calls = Function.update s.calls t rest)
    (hfreed : ∀ x h, s'.holder x = some h → s.holder x = some h) :
    s.Advances s' t rest none none :=
  ⟨hcalls, fun f hf => hrest f (List.mem_of_mem_tail hf), moves hcalls (head_resting t hrest).1
    (head_resting t hrest).2 (fun x h hx => .inl (hfreed x h hx)) (by simp)⟩

/-- The last call goes on. -/
theorem advances_next (frame : Frame) (hrest : ∀ f ∈ rest, f.Resting)
    (hcalls : s'.calls = Function.update s.calls t (frame :: rest)) (hcomes : frame.waits = comes)
    (hjoins : frame.joins t = joining)
    (htaken : ∀ x h, s'.holder x = some h → s.holder x = some h ∨ h = t ∧ joining = none)
    (hkept : comes.isSome = true ∨ joining.isSome = true → s'.holder = s.holder) :
    s.Advances s' t (frame :: rest) comes joining :=
  ⟨hcalls, hrest, moves hcalls hcomes hjoins htaken hkept⟩

/-- A step of `emergencyShutdown()`, in the callback or by itself. -/
theorem advances_shutdown {m : Shared} {pc pc' : ShutdownPc}
    (hstep : s.shared.shutdownStep t pc = some (m, pc')) (hframes : ∀ f ∈ frames.tail, f.Resting)
    (hwaits : frames.head?.bind Frame.waits = none)
    (hhead : frames.head?.bind (Frame.joins t) = joins t pc') :
    s.Advances ({ s with shared := m }.setFrames t frames) t frames none (comesToJoin t pc) := by
  obtain ⟨hjoins, hteardown⟩ := joins_shutdownStep hstep
  refine ⟨rfl, hframes, moves rfl hwaits (hhead.trans hjoins) (fun x h hx => ?_) fun hsome => ?_⟩
  · cases x with
    | emergencyCallback k => exact .inl hx
    | teardown =>
      rcases hteardown with hsame | ⟨hnone, hgone | htook⟩
      · exact .inl (hsame.symm.trans hx)
      · exact absurd (hgone.symm.trans hx) (by simp)
      · exact .inr ⟨(Option.some.inj (htook.symm.trans hx)).symm, hnone⟩
  · funext x
    cases x with
    | emergencyCallback k => rfl
    | teardown =>
      rcases hteardown with hsame | ⟨hnone, -⟩
      · exact hsame
      · rw [hnone] at hsome
        simp at hsome

theorem callback_resting (k : ℕ) (callback : Option EmergencyCallback) :
    (Frame.trigger k (callbackPc callback)).Resting := by
  rcases callback with _ | _ | _ <;> exact ⟨fun _ => rfl, rfl⟩

/-- **A thread steps in its last call.** -/
theorem execute_spec (hrest : ∀ f ∈ rest, f.Resting) (h : s.execute t rest frame = some s') :
    ∃ frames, s.Advances s' t frames (s.comesTo frame) (frame.comesToJoin t) := by
  cases frame with
  | trigger k pc =>
    cases pc with
    | exchange =>
      simp only [execute, triggerStep] at h
      split_ifs at h
      · obtain ⟨⟩ := h
        exact ⟨rest, advances_pop hrest rfl fun _ _ hx => hx⟩
      · obtain ⟨⟩ := h
        have hsame := s.holder_setManager (k := k)
          { s.managers k with emergencyStopped_ := true } rfl
        exact ⟨_, advances_next (.trigger k .handlers) hrest rfl rfl rfl
          (fun x u hx => .inl (congrFun hsame x ▸ hx)) fun _ => hsame⟩
    | handlers =>
      obtain ⟨⟩ := h
      exact ⟨_, advances_next (.trigger k .lock) hrest rfl rfl rfl (fun _ _ hx => .inl hx)
        fun _ => rfl⟩
    | lock =>
      simp only [execute, triggerStep] at h
      split_ifs at h
      obtain ⟨⟩ := h
      have hrests := callback_resting k (s.managers k).emergencyCallback_
      exact ⟨_, advances_next _ hrest rfl hrests.2 (hrests.1 t)
        (fun _ _ hx => (holder_lock k hx).imp_right fun hu => ⟨hu, rfl⟩)
        fun hsome => absurd hsome (by simp [comesTo, Frame.comesToJoin, Frame.shutdownPc?])⟩
    | shutdown pc =>
      obtain ⟨⟨m, pc'⟩, hstep, rfl⟩ := Option.map_eq_some_iff.mp h
      exact ⟨_, advances_shutdown hstep hrest (by cases pc' <;> rfl) (by cases pc' <;> rfl)⟩
    | other =>
      obtain ⟨⟩ := h
      exact ⟨_, advances_next (.trigger k .unlock) hrest rfl rfl rfl (fun _ _ hx => .inl hx)
        fun _ => rfl⟩
    | unlock =>
      obtain ⟨⟩ := h
      exact ⟨rest, advances_pop hrest rfl fun _ _ hx => holder_unlock k hx⟩
  | reset k pc =>
    cases pc with
    | load =>
      obtain ⟨⟩ := h
      rw [resetStep]
      split_ifs
      · exact ⟨_, advances_next (.reset k .store) hrest rfl rfl rfl (fun _ _ hx => .inl hx)
          fun _ => rfl⟩
      · exact ⟨rest, advances_pop hrest rfl fun _ _ hx => hx⟩
    | store =>
      obtain ⟨⟩ := h
      have hsame := s.holder_setManager (k := k)
        { s.managers k with emergencyStopped_ := false } rfl
      exact ⟨_, advances_next (.reset k .handlers) hrest rfl rfl rfl
        (fun x u hx => .inl (congrFun hsame x ▸ hx)) fun _ => hsame⟩
    | handlers =>
      obtain ⟨⟩ := h
      exact ⟨rest, advances_pop hrest rfl fun _ _ hx => hx⟩
  | set k callback pc =>
    cases pc with
    | lock =>
      simp only [execute, setStep] at h
      split_ifs at h
      obtain ⟨⟩ := h
      exact ⟨_, advances_next (.set k callback .store) hrest rfl rfl rfl (fun _ _ hx =>
        (holder_lock k hx).imp_right fun hu => ⟨hu, rfl⟩)
          fun hsome => absurd hsome (by simp [comesTo, Frame.comesToJoin, Frame.shutdownPc?])⟩
    | store =>
      obtain ⟨⟩ := h
      have hsame := s.holder_setManager (k := k)
        { s.managers k with emergencyCallback_ := callback } rfl
      exact ⟨_, advances_next (.set k callback .unlock) hrest rfl rfl rfl
        (fun x u hx => .inl (congrFun hsame x ▸ hx)) fun _ => hsame⟩
    | unlock =>
      obtain ⟨⟩ := h
      exact ⟨rest, advances_pop hrest rfl fun _ _ hx => holder_unlock k hx⟩
  | setHook hook pc =>
    obtain ⟨⟩ := h
    cases pc with
    | clear =>
      rw [hookStep, comesTo]
      cases s.replaced hook with
      | some k =>
        have hrest' : ∀ f ∈ .setHook hook .assign :: rest, f.Resting := by
          intro f hf
          rcases List.mem_cons.mp hf with rfl | hf
          · exact ⟨fun _ => rfl, rfl⟩
          · exact hrest f hf
        exact ⟨_, advances_next (.set k none .lock) hrest' rfl rfl rfl (fun _ _ hx => .inl hx)
          fun _ => rfl⟩
      | none =>
        exact ⟨_, advances_next (.setHook hook .assign) hrest rfl rfl rfl (fun _ _ hx => .inl hx)
          fun _ => rfl⟩
    | assign =>
      cases hook with
      | some k =>
        exact ⟨_, advances_next (.set k (some .ofSystem) .lock) hrest rfl rfl rfl
          (fun _ _ hx => .inl hx) fun _ => rfl⟩
      | none => exact ⟨rest, advances_pop hrest rfl fun _ _ hx => hx⟩
  | shutdown pc =>
    obtain ⟨⟨m, pc'⟩, hstep, rfl⟩ := Option.map_eq_some_iff.mp h
    cases pc' with
    | done =>
      exact ⟨rest, advances_shutdown hstep (fun f hf => hrest f (List.mem_of_mem_tail hf))
        (head_resting t hrest).1 (head_resting t hrest).2⟩
    | _ => exact ⟨_, advances_shutdown hstep hrest rfl rfl⟩

theorem Advances.nested (h : s.Advances s' t frames comes joining) (hnested : s.Nested) :
    s'.Nested := by
  intro u f hf
  rw [h.calls] at hf
  by_cases hu : u = t
  · subst hu
    rw [Function.update_self] at hf
    exact h.resting f hf
  · rw [Function.update_of_ne hu] at hf
    exact hnested u f hf

/-- Foreign code runs: the calls rest. -/
theorem resting_of_userCode (hnested : s.Nested) (h : s.userCode t = true) :
    ∀ f ∈ s.calls t, f.Resting := by
  intro f hf
  have htail := hnested t
  rw [userCode] at h
  cases hcalls : s.calls t with
  | nil =>
    rw [hcalls] at hf
    exact absurd hf List.not_mem_nil
  | cons frame rest =>
    rw [hcalls] at hf htail h
    rcases List.mem_cons.mp hf with rfl | hf
    · cases f with
      | trigger k pc => cases pc <;> first | exact ⟨fun _ => rfl, rfl⟩ | cases h
      | reset k pc => exact ⟨fun _ => rfl, rfl⟩
      | _ => cases h
    · exact htail f hf

theorem joining_ne : s.waitFor.joining t ≠ some t := by
  intro h
  obtain ⟨frame, -, hframe⟩ := Option.bind_eq_some_iff.mp h
  exact Frame.joins_ne hframe

theorem comesToJoin_ne : frame.comesToJoin t ≠ some t := by
  intro h
  obtain ⟨pc, -, hpc⟩ := Option.bind_eq_some_iff.mp h
  cases pc with
  | stopBusAgain => exact joins_ne .joinBus hpc
  | drain => exact joins_ne .joinMonitor hpc
  | halt => exact joins_ne .joinScheduler hpc
  | _ => cases hpc

/-- **One step keeps every thread from waiting in vain exactly if the condition holds.** -/
theorem step_spec (hnested : s.Nested) (hfree : s.waitFor.Free) {a : Label}
    (hstep : s.step a = some s') : s'.Nested ∧ (s'.waitFor.Free ↔ s.Spares a) := by
  cases a with
  | call t c =>
    simp only [step] at hstep
    split_ifs at hstep with huser
    obtain ⟨⟩ := hstep
    have hcall : s.Advances (s.setFrames t (c.frame :: s.calls t)) t _ c.frame.waits none :=
      ⟨rfl, resting_of_userCode hnested huser,
        moves rfl rfl (by cases c <;> rfl) (fun _ _ hx => .inl hx) fun _ => rfl⟩
    exact ⟨hcall.nested hnested, hcall.moves.free_iff hfree joining_ne (by simp)⟩
  | advance t =>
    simp only [step] at hstep
    cases hcalls : s.calls t with
    | nil =>
      rw [hcalls] at hstep
      cases hstep
    | cons frame rest =>
      rw [hcalls] at hstep
      have hrest : ∀ f ∈ rest, f.Resting := fun f hf => hnested t f (by rw [hcalls]; exact hf)
      obtain ⟨frames, hadvances⟩ := execute_spec hrest hstep
      refine ⟨hadvances.nested hnested, ?_⟩
      rw [Spares, hcalls]
      exact hadvances.moves.free_iff hfree joining_ne comesToJoin_ne
  | worker a =>
    simp only [step] at hstep
    split_ifs at hstep
    obtain ⟨system, -, rfl⟩ := Option.map_eq_some_iff.mp hstep
    exact ⟨hnested, iff_of_true hfree trivial⟩

/-- An external thread trips the e-stop and comes to the join of the dispatch thread, in whose event
callback the emergency callback is then cleared. -/
def clearedInTrip : List Label :=
  [.worker (.dispatchStep .dequeue), .call (.external 0) (.triggerEmergencyStop 0)] ++
    List.replicate 9 (.advance (.external 0)) ++ [.call .dispatch (.setEmergencyCallback 0 none)]

end SafetyStop

end AxonVex
