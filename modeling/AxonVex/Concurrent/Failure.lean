import AxonVex.Concurrent.Initialize

/-!
# Concurrent/Failure — how an initialization that fails leaves the system

An initialization that has entered `INITIALIZING` fails in one of these ways:

    load           the configuration file        leaves `INITIALIZING`
    layout         returns false                 ERROR, components gone
    layout         throws, `std::exception`      components gone, ERROR
    layout         throws something else         leaves `INITIALIZING`
    start          a worker cannot be created    components gone, ERROR
    finish         refused after a shutdown      components gone, FATAL_ERROR

* `failedCleanly_iff` — a run leaves the system failed as it should exactly if it takes neither of
  the two steps that forget the state.
* `emergency_wins` — a shutdown between the two transitions of `initialize` decides the race: the
  call fails, the state stays `FATAL_ERROR`, and the workers see the shutdown.
-/

namespace AxonVex

open Machinery

/-- The system is failed, says so, lets its workers go, and can be initialized again. -/
structure AxonVexSystem.CleanFailure (s : AxonVexSystem) : Prop where
  failed : s.state = .error ∨ s.state = .fatalError
  notHealthy : s.isHealthy = false
  shutdownRequested : s.lifecycle.shutdownRequested = true
  /-- at once from `ERROR`, after `reset()` from `FATAL_ERROR` -/
  reinitializable : validTransition s.state .initializing = true ∨
    s.state = .fatalError ∧
      ∀ n, validTransition (s.reset (.external n)).state .initializing = true

/-- Either of the two states is enough. -/
theorem AxonVexSystem.cleanFailure_of_failed {s : AxonVexSystem}
    (h : s.state = .error ∨ s.state = .fatalError) : s.CleanFailure where
  failed := h
  notHealthy := by rcases h with h | h <;> rw [isHealthy, h] <;> rfl
  shutdownRequested :=
    LifecycleController.shutdownRequested_of_stopping_le <| by
      rcases h with h | h <;> rw [show s.lifecycle.currentState = _ from h] <;> decide
  reinitializable := by
    refine h.imp (fun h => by rw [h]; rfl) fun h => ⟨h, fun n => ?_⟩
    have hfatal : (s.emergencyShutdown (.external n)).state = .fatalError := emergencyShutdown_state
    have hreset : (s.reset (.external n)).state = .uninitialized := by
      rw [reset, if_neg (by simp [isOnWorkerThread])]
      refine transitionState_state.trans (if_pos ?_)
      change validTransition (s.emergencyShutdown (.external n)).state _ = true
      rw [hfatal]
      rfl
    rw [hreset]
    rfl

namespace Initialization

variable {p q : Initialization} {a : Move} {pc pc' : InitializePc} {state : SystemState}

/-! ## Failing cleanly -/

/-- Where an initialization that has entered `INITIALIZING` is over, the state has moved on, and a
failure is a clean one. -/
def FailedCleanly (p : Initialization) : Prop :=
  ∀ res, p.pc = .leave true res ∨ p.pc = .done true res →
    p.system.state ≠ .initializing ∧ (res = .returned false → p.system.CleanFailure)

/-- **The condition**: outside `FATAL_ERROR`, the file that is asked for loads, and the layout
throws nothing but `std::exception`. -/
def MovesOn (p : Initialization) (a : Move) : Prop :=
  a = .advance → p.system.state ≠ .fatalError →
    (p.pc = .load → ¬ p.LoadFails) ∧ (p.pc = .layout [] → p.env.layoutResult ≠ .throwsOther)

/-- The states in which `initialize` works: `INITIALIZING` until it fails, and `FATAL_ERROR` any
time. -/
def InFlight : InitializePc → SystemState → Prop
  | .cleanup, state => state = .error ∨ state = .fatalError
  | .leave _ _, _ => True
  | .done _ _, _ => True
  | pc, state => pc.entered = true → state = .initializing ∨ state = .fatalError

/-- `FailedCleanly`, as a matter of position and state. -/
def Settled (pc : InitializePc) (state : SystemState) : Prop :=
  ∀ res, pc = .leave true res ∨ pc = .done true res →
    state ≠ .initializing ∧ (res = .returned false → state = .error ∨ state = .fatalError)

theorem failedCleanly_iff_settled : p.FailedCleanly ↔ Settled p.pc p.system.state :=
  forall₂_congr fun _ _ => and_congr_right fun _ =>
    imp_congr_right fun _ => ⟨(·.failed), AxonVexSystem.cleanFailure_of_failed⟩

theorem settled_fatalError (pc : InitializePc) : Settled pc .fatalError :=
  fun _ _ => ⟨by decide, fun _ => .inr rfl⟩

theorem inFlight_fatalError (pc : InitializePc) : InFlight pc .fatalError := by
  cases pc <;> simp [InFlight]

theorem afterError_of_inFlight (h : state = .initializing ∨ state = .fatalError) :
    afterError state = .error ∨ afterError state = .fatalError := by
  rcases h with rfl | rfl
  · exact .inl rfl
  · exact .inr rfl

theorem Advance.inFlight (h : Advance p pc pc' state) (hI : InFlight pc p.system.state) :
    InFlight pc' state := by
  cases h with
  | @before pc pc' h h' => cases pc' <;> simp_all [InFlight, InitializePc.entered]
  | enter _ => exact fun _ => .inl rfl
  | loadFails _ => trivial
  | layoutEscapes _ => trivial
  | startThrows h => rcases h with rfl | rfl <;> exact hI
  | finish _ => trivial
  | finishRefused hv =>
    rcases hI rfl with hs | hs
    · exact absurd (hs ▸ hv) (by decide)
    · exact .inr hs
  | fail => exact afterError_of_inFlight (hI rfl)
  | cleanup => trivial
  | catchError => trivial
  | leave _ => trivial
  | _ => exact hI

/-- Everything but the two forgetful steps settles the state. -/
theorem Advance.settled_iff (h : Advance p pc pc' state) (hpc : p.pc = pc)
    (hI : InFlight pc p.system.state) (hS : Settled pc p.system.state) :
    Settled pc' state ↔ p.MovesOn .advance := by
  -- the two exits that leave the state alone
  have hexit {res : AxonVexSystem.CallResult}
      (hs : p.system.state = .initializing ∨ p.system.state = .fatalError) :
      Settled (.leave true res) p.system.state ↔ p.system.state = .fatalError := by
    constructor
    · exact fun h => hs.resolve_left (h res (.inl rfl)).1
    · exact fun h => h ▸ settled_fatalError _
  -- a step that does not end `initialize`, and neither of the two
  have hgoes (hload : pc ≠ .load ∨ ¬ p.LoadFails)
      (hlayout : pc ≠ .layout [] ∨ p.env.layoutResult ≠ .throwsOther) : p.MovesOn .advance :=
    fun _ _ => ⟨fun h => hload.resolve_left (not_not.mpr (hpc ▸ h)),
      fun h => hlayout.resolve_left (not_not.mpr (hpc ▸ h))⟩
  have hon {pc' : InitializePc} {state : SystemState}
      (h : ∀ res, pc' ≠ .leave true res ∧ pc' ≠ .done true res) : Settled pc' state :=
    fun res hr => hr.elim (fun h' => absurd h' (h res).1) fun h' => absurd h' (h res).2
  cases h with
  | @before pc pc' h h' =>
    refine iff_of_true (hon ?_) (hgoes ?_ ?_)
    · rintro res
      constructor <;> rintro rfl <;> exact absurd h' (by simp [InitializePc.entered])
    · exact .inl (by rintro rfl; exact absurd h (by simp [InitializePc.entered]))
    · exact .inl (by rintro rfl; exact absurd h (by simp [InitializePc.entered]))
  | enter _ => exact iff_of_true (hon (by simp)) (hgoes (by simp) (by simp))
  | loadFails hl =>
    rw [hexit (hI rfl)]
    exact ⟨fun hs _ hn => absurd hs hn, fun hm => by_contra fun hn => (hm rfl hn).1 hpc hl⟩
  | loaded hl => exact iff_of_true (hon (by simp)) (hgoes (.inr hl) (by simp))
  | layoutCall c calls => exact iff_of_true (hon (by simp)) (hgoes (by simp) (by simp))
  | layoutReturnsTrue hr => exact iff_of_true (hon (by simp)) (hgoes (by simp) (by simp [hr]))
  | layoutReturnsFalse hr => exact iff_of_true (hon (by simp)) (hgoes (by simp) (by simp [hr]))
  | layoutThrows hr => exact iff_of_true (hon (by simp)) (hgoes (by simp) (by simp [hr]))
  | layoutEscapes hr =>
    rw [hexit (hI rfl)]
    exact ⟨fun hs _ hn => absurd hs hn, fun hm => by_contra fun hn => (hm rfl hn).2 hpc hr⟩
  | startThrows h =>
    exact iff_of_true (hon (by simp)) (hgoes (by rcases h with rfl | rfl <;> simp)
      (by rcases h with rfl | rfl <;> simp))
  | finish _ =>
    refine iff_of_true (fun res hr => ⟨by decide, ?_⟩) (hgoes (by simp) (by simp))
    rintro rfl
    simp at hr
  | cleanup =>
    refine iff_of_true (fun res _ => ⟨fun hs => ?_, fun _ => hI⟩) (hgoes (by simp) (by simp))
    rcases hI with h | h <;> exact absurd (h.symm.trans hs) (by decide)
  | catchError =>
    have herr := afterError_of_inFlight (hI rfl)
    refine iff_of_true (fun res _ => ⟨fun hs => ?_, fun _ => herr⟩) (hgoes (by simp) (by simp))
    rcases herr with h | h <;> exact absurd (h.symm.trans hs) (by decide)
  | leave res =>
    refine iff_of_true (fun res' hr => hS res' (.inl ?_)) (hgoes (by simp) (by simp))
    simpa using hr
  | _ => exact iff_of_true (hon (by simp)) (hgoes (by simp) (by simp))

/-- **A run fails cleanly exactly if it takes neither forgetful step.** -/
theorem failedCleanly_iff (hp : machine.init p) (as : List Move) :
    machine.Always FailedCleanly p as ↔ machine.Allowed MovesOn p as := by
  refine Machine.always_iff_allowed (I := fun p => InFlight p.pc p.system.state) ?_ ?_ ?_ ?_ as
  · intro p a q hI _ h
    rcases step_cases h with ⟨-, hs⟩ | ⟨-, hpc, -, ⟨-, hq⟩ | ⟨-, hq⟩⟩
    · exact (advance_of_stepAt hs).2.inFlight hI
    · exact hq ▸ inFlight_fatalError q.pc
    · rwa [hpc, hq]
  · intro p a q hI hP h
    rw [failedCleanly_iff_settled] at hP ⊢
    rcases step_cases h with ⟨rfl, hs⟩ | ⟨ha, hpc, -, ⟨-, hq⟩ | ⟨-, hq⟩⟩
    · exact (advance_of_stepAt hs).2.settled_iff rfl hI hP
    · exact iff_of_true (hq ▸ settled_fatalError q.pc) fun h => absurd h ha
    · exact iff_of_true (by rwa [hpc, hq]) fun h => absurd h ha
  · rw [hp.1]
    exact fun h => absurd h (by simp [InitializePc.entered])
  · rw [failedCleanly_iff_settled, hp.1]
    exact fun res h => absurd h (by simp)

/-- Without a file to load, and with a layout that keeps to `std::exception`, every run moves on. -/
theorem allowed_of_noFile (hpath : p.env.configPath = "")
    (hlayout : p.env.layoutResult ≠ .throwsOther) (as : List Move) :
    machine.Allowed MovesOn p as := by
  induction as generalizing p with
  | nil => trivial
  | cons a as ih =>
    refine fun q hq => ⟨fun _ _ => ⟨fun _ hl => hl.1 hpath, fun _ => hlayout⟩, ?_⟩
    have henv : q.env = p.env := step_env hq
    exact ih (henv ▸ hpath) (henv ▸ hlayout)

/-- A call by an external thread, on a system as constructed. -/
def called (env : AxonVexSystem.InitializeEnv) : Initialization :=
  { shared := ⟨AxonVexSystem.new {} 0, none⟩, caller := .external 0, env }

theorem init_called (env : AxonVexSystem.InitializeEnv) : machine.init (called env) :=
  ⟨rfl, fun _ => rfl⟩

set_option maxRecDepth 4000 in
/-- A layout that returns false fails cleanly. -/
theorem failedCleanly_layoutReturnsFalse :
    machine.Always FailedCleanly (called { layoutResult := .returnsFalse })
        (List.replicate 10 .advance) ∧
      (machine.exec (called { layoutResult := .returnsFalse }) (List.replicate 10 .advance)).any
        (fun p => p.system.state == .error) = true :=
  ⟨(failedCleanly_iff (init_called _) _).mpr (allowed_of_noFile rfl (by decide) _), by decide⟩

set_option maxRecDepth 4000 in
/-- **A configuration file that does not load leaves the system `INITIALIZING`.** -/
theorem missingFile_leaves_initializing : ¬ ∀ p, machine.Reachable p →
    p.pc = .done true (.returned false) → p.system.CleanFailure := by
  intro h
  have hrun : (machine.exec (called { configPath := "missing.json", configLoads := false })
      (List.replicate 7 .advance)).any (fun p => match p.pc with
        | .done true (.returned false) => p.system.state == .initializing
        | _ => false) = true := by decide
  obtain ⟨p, hp, hs⟩ := (Option.any_eq_true _ _).mp hrun
  split at hs
  next hpc =>
    have hfail := h p (.exec (.init (init_called _)) (Option.mem_def.mp hp)) hpc
    rw [beq_iff_eq] at hs
    rcases hfail.failed with hf | hf <;> exact absurd (hs.symm.trans hf) (by decide)
  · exact absurd hs Bool.false_ne_true

/-! ## A shutdown in between -/

/-- Between the two transitions: `INITIALIZING` has been entered, and `INITIALIZED` has not. -/
def between : InitializePc → Bool
  | .leave entered res => entered && res != .returned true
  | .done entered res => entered && res != .returned true
  | pc => pc.entered

/-- The runs of an initialization, with whether a shutdown has set `FATAL_ERROR` while `initialize`
stood at one of the positions `during`. -/
def interruptedMachine (during : InitializePc → Bool) : Machine (Initialization × Bool) Move :=
  machine.withHistory false fun p a _ interrupted =>
    interrupted || (during p.pc && p.isEmergency a)

/-- The call of `initialize` is over. -/
def IsDone (p : Initialization) : Prop := ∃ entered res, p.pc = .done entered res

/-- An upper bound for the steps `initialize` has left. -/
def remaining (env : AxonVexSystem.InitializeEnv) : InitializePc → ℕ
  | .checkCaller => env.layout.length + 14
  | .joinMonitor => env.layout.length + 13
  | .joinBus => env.layout.length + 12
  | .makeComponents => env.layout.length + 11
  | .enter => env.layout.length + 10
  | .load => env.layout.length + 9
  | .layout calls => calls.length + 8
  | .clearLatch => 7
  | .startMonitor => 6
  | .startBus => 5
  | .finish => 4
  | .fail => 3
  | .catchCleanup => 3
  | .cleanup => 2
  | .catchError => 2
  | .leave _ _ => 1
  | .done _ _ => 0

/-- **The shutdown has won**: the state is and stays `FATAL_ERROR`, the workers see it, and
`initialize` is over with a failure or has a step that brings it nearer to one. -/
structure EmergencyWins (p : Initialization) : Prop where
  state : p.system.state = .fatalError
  shutdownRequested : p.system.lifecycle.shutdownRequested = true
  fails : ∀ entered res, p.pc = .done entered res →
    res = .returned false ∨ res = .escaped ∧ p.env.layoutResult = .throwsOther
  returns : p.IsDone ∨ ∃ q, p.step .advance = some q ∧ remaining p.env q.pc < remaining p.env p.pc

/-- After its first transition nothing keeps `initialize` waiting. -/
theorem stepAt_isSome (h : pc.entered = true) (hd : ∀ res, pc ≠ .done true res) :
    ∃ q, p.stepAt pc = some q := by
  rw [← Option.isSome_iff_exists]
  cases pc with
  | load =>
    rw [stepAt]
    split <;> rfl
  | layout calls => cases calls <;> rfl
  | done entered res =>
    obtain rfl : entered = true := h
    exact absurd rfl (hd res)
  | _ => first | rfl | exact absurd h (by simp [InitializePc.entered])

theorem Advance.remaining_lt (h : Advance p pc pc' state) (hpc : pc.entered = true) :
    remaining p.env pc' < remaining p.env pc := by
  cases h with
  | before h => exact absurd (h.symm.trans hpc) Bool.false_ne_true
  | startThrows h => rcases h with rfl | rfl <;> simp [remaining]
  | _ => simp [remaining]

/-- A foreign exception comes from the layout. -/
def EscapesFromLayout (env : AxonVexSystem.InitializeEnv) (pc : InitializePc) : Prop :=
  pc = .leave true .escaped ∨ pc = .done true .escaped → env.layoutResult = .throwsOther

theorem Advance.escapesFromLayout (h : Advance p pc pc' state)
    (he : EscapesFromLayout p.env pc) : EscapesFromLayout p.env pc' := by
  cases h with
  | before _ h' => rintro (rfl | rfl) <;> exact absurd h' (by simp [InitializePc.entered])
  | layoutEscapes hr => exact fun _ => hr
  | leave res => exact fun h => he (by simpa using h)
  | _ => exact fun h => absurd h (by simp)

/-- In `FATAL_ERROR` the second transition is refused. -/
theorem Advance.between (h : Advance p pc pc' state) (hs : p.system.state = .fatalError)
    (hpc : between pc = true) : between pc' = true := by
  cases h with
  | @before pc _ h => cases pc <;> simp_all [Initialization.between, InitializePc.entered]
  | finish hv => exact absurd (hs ▸ hv) (by decide)
  | leave res => exact hpc
  | _ => rfl

/-- What an interrupted initialization keeps. -/
structure Losing (p : Initialization × Bool) : Prop where
  escapes : EscapesFromLayout p.1.env p.1.pc
  state : p.2 = true → p.1.system.state = .fatalError
  between : p.2 = true → between p.1.pc = true

theorem losing_inductive : (interruptedMachine between).Inductive (fun _ _ => True) Losing where
  init p hp := by
    refine ⟨fun h => ?_, fun h => ?_, fun h => ?_⟩
    · rw [hp.1.1] at h
      exact absurd h (by simp)
    · exact absurd (hp.2.symm.trans h) Bool.false_ne_true
    · exact absurd (hp.2.symm.trans h) Bool.false_ne_true
  step p a q hp _ h := by
    obtain ⟨hstep, hq⟩ := Machine.withHistory_step.mp h
    rcases step_cases hstep with ⟨rfl, hs⟩ | ⟨-, hpc, henv, hcase⟩
    · obtain ⟨henv, hadv⟩ := advance_of_stepAt hs
      have hsame : q.2 = p.2 := by simpa [isEmergency] using hq.symm
      refine ⟨henv ▸ hadv.escapesFromLayout hp.escapes, fun hi => ?_, fun hi => ?_⟩
      · exact hadv.fatalError (hp.state (hsame ▸ hi))
      · exact hadv.between (hp.state (hsame ▸ hi)) (hp.between (hsame ▸ hi))
    · refine ⟨henv ▸ hpc ▸ hp.escapes, fun hi => ?_, fun hi => ?_⟩
      · rcases hcase with ⟨-, hf⟩ | ⟨he, hf⟩
        · exact hf
        · exact hf.trans (hp.state (by simpa [he, hi] using hq))
      · rw [hpc]
        rw [← hq, Bool.or_eq_true, Bool.and_eq_true] at hi
        exact hi.elim hp.between And.left

/-- **The shutdown wins**, in every run in which it comes between the two transitions. -/
theorem emergency_wins {p : Initialization × Bool} (h : (interruptedMachine between).Reachable p)
    (hi : p.2 = true) : p.1.EmergencyWins := by
  have hL : Losing p := h.invariant losing_inductive
  have hentered : p.1.pc.entered = true := by
    have := hL.between hi
    cases hpc : p.1.pc <;> simp_all [Initialization.between, InitializePc.entered]
  refine ⟨hL.state hi, ?_, fun entered res hd => ?_, ?_⟩
  · refine LifecycleController.shutdownRequested_of_stopping_le ?_
    rw [show p.1.system.lifecycle.currentState = _ from hL.state hi]
    decide
  · have hb := hL.between hi
    rw [hd, Initialization.between, Bool.and_eq_true, bne_iff_ne] at hb
    obtain ⟨rfl, hres⟩ := hb
    match res with
    | .returned true => exact absurd rfl hres
    | .returned false => exact .inl rfl
    | .escaped => exact .inr ⟨rfl, hL.escapes (.inr hd)⟩
  · by_cases hd : p.1.IsDone
    · exact .inl hd
    · obtain ⟨q, hq⟩ := stepAt_isSome (p := p.1) hentered fun res h => hd ⟨true, res, h⟩
      exact .inr ⟨q, hq, (advance_of_stepAt hq).2.remaining_lt hentered⟩

/-- A shutdown up to its latch, and then `initialize` to its end. -/
def latchCleared : List Move :=
  List.replicate 7 .advance ++ List.replicate 3 (.shutdown (.external 1)) ++
    List.replicate 6 .advance

set_option maxRecDepth 4000 in
/-- The shutdown wins although `initialize` clears the latch after it. -/
theorem emergency_wins_latchCleared : ∃ p, (interruptedMachine between).Reachable p ∧
    p.1.system.lifecycle.isShuttingDown = false ∧ p.1.IsDone ∧ p.1.EmergencyWins := by
  have hrun : ((interruptedMachine between).exec (called {}, false) latchCleared).any (fun p =>
      p.2 && !p.1.system.lifecycle.isShuttingDown && match p.1.pc with
        | .done _ _ => true
        | _ => false) = true := by decide
  obtain ⟨p, hp, hs⟩ := (Option.any_eq_true _ _).mp hrun
  rw [Bool.and_eq_true, Bool.and_eq_true, Bool.not_eq_true'] at hs
  have hreach : (interruptedMachine between).Reachable p :=
    .exec (.init ⟨init_called _, rfl⟩) (Option.mem_def.mp hp)
  refine ⟨p, hreach, hs.1.2, ?_, emergency_wins hreach hs.1.1⟩
  obtain ⟨-, hdone⟩ := hs
  split at hdone
  next entered res hpc => exact ⟨entered, res, hpc⟩
  · exact absurd hdone Bool.false_ne_true

/-- A shutdown that comes once `INITIALIZED` is reached. -/
def lateShutdown : List Move :=
  List.replicate 11 .advance ++ List.replicate 2 (.shutdown (.external 1)) ++ [.advance]

set_option maxRecDepth 4000 in
/-- **After the second transition `initialize` returns true**, shutdown or not. -/
theorem late_shutdown_returns_true : ¬ ∀ p, (interruptedMachine InitializePc.entered).Reachable p →
    p.2 = true → p.1.EmergencyWins := by
  intro h
  have hrun : ((interruptedMachine InitializePc.entered).exec (called {}, false) lateShutdown).any
      (fun p => p.2 && match p.1.pc with
        | .done true (.returned true) => true
        | _ => false) = true := by decide
  obtain ⟨p, hp, hs⟩ := (Option.any_eq_true _ _).mp hrun
  rw [Bool.and_eq_true] at hs
  have hwins := h p (.exec (.init ⟨init_called _, rfl⟩) (Option.mem_def.mp hp)) hs.1
  obtain ⟨-, hdone⟩ := hs
  split at hdone
  next hpc => exact absurd (hwins.fails _ _ hpc) (by simp)
  · exact absurd hdone Bool.false_ne_true

end Initialization

end AxonVex
