import AxonVex.Mission.Brackets

/-!
# Mission/Commands — `startPipeline` and `reset` before one tick

    startPipeline ──▸ pendingStart_      the tick:  reset if pendingReset_ (and forget the start),
    reset ──────────▸ pendingReset_                 then start if pendingStart_

The two flags do not tell which command came last.  On an idle pipeline any number of commands ends
as their reset if there was one, and as a start otherwise (`tickAfter_iff`): that is what the last
of them asks for, unless it is a start with a reset somewhere before it (`obeys_iff`).
-/

namespace AxonVex

open Machinery

namespace MissionPipeline

/-! ## The commands of a thread -/

/-- A command that does not go over the control port. -/
inductive Command
  | startPipeline
  | reset
  deriving DecidableEq, Repr

/-- The thread calls it, and the call returns. -/
def Command.labels (u : MissionThread) : Command → List Label
  | startPipeline => [.call u .startPipeline, .step u, .step u]
  | reset => [.call u .reset, .step u]

/-- A pipeline that a tick has left idle, with no command pending and nobody in a call. -/
structure IdleAfterTick (s : MissionPipeline) (start : MissionElement) : Prop where
  reached : ∃ hooks, recorded.Reachable (s, hooks)
  between : s.BetweenTicks
  idle : s.status_ = .idle
  valid : s.graph.validateGraph s.name = .ok start
  calls : ∀ u, s.calls u = []
  pendingReset : s.pendingReset_ = false
  pendingStart : s.pendingStart_ = false
  control : s.controlPort_.wasUpdated_ = false

variable {s : MissionPipeline} {start : MissionElement} {u : MissionThread}

theorem IdleAfterTick.current (h : s.IdleAfterTick start) : s.currentElement_ = none := by
  obtain ⟨hooks, hreached⟩ := h.reached
  have hinv : Inv (s, hooks) := hreached.invariant inv_inductive
  exact hinv.2.consistent.none_of_idle h.idle

/-- These flags are set. -/
def pending (s : MissionPipeline) (reset start : Bool) : MissionPipeline :=
  { s with pendingReset_ := reset, pendingStart_ := start }

theorem step_call {c : Call} (hmay : s.mayCall u) :
    missionPipeline.step s (.call u c) = some (s.setCall u c.code) := if_pos hmay

theorem step_step (c : CallStep) (rest : List CallStep) :
    missionPipeline.step (s.setCall u (c :: rest)) (.step u) =
      some ((s.setCall u (c :: rest)).execCall u rest c) := by
  simp [missionPipeline, MissionPipeline.step, setCall]

theorem setCall_setCall (steps steps' : List CallStep) :
    (s.setCall u steps).setCall u steps' = s.setCall u steps' := by
  simp [setCall]

/-- A call that is over leaves nothing. -/
theorem setCall_nil (h : s.calls u = []) : s.setCall u [] = s := by
  rw [setCall, ← h, Function.update_eq_self]

/-- One command sets its flag, and leaves the rest. -/
theorem exec_command (h : s.IdleAfterTick start) (c : Command) (r b : Bool) :
    missionPipeline.exec (s.pending r b) (c.labels u) =
      some (s.pending (r || decide (c = .reset)) (b || decide (c = .startPipeline))) := by
  have hmay : (s.pending r b).mayCall u := ⟨h.calls u, fun _ => .inr h.between.1⟩
  have hover (r b : Bool) : (s.pending r b).setCall u [] = s.pending r b := setCall_nil (h.calls u)
  cases c with
  | startPipeline =>
    have hcheck : ((s.pending r b).setCall u [.checkStart]).execCall u [] .checkStart =
        (s.pending r b).setCall u [.storePendingStart] := by
      simp only [execCall, checkStart, pending, setCall, h.idle, h.valid, if_true,
        Function.update_idem]
    have hstore : ((s.pending r b).setCall u [.storePendingStart]).execCall u []
        .storePendingStart = (s.pending r true).setCall u [] :=
      setCall_setCall (s := s.pending r true) ..
    rw [Command.labels, Machine.exec_cons, step_call hmay, Option.bind_some, Machine.exec_cons,
      Call.code, step_step, Option.bind_some, hcheck, Machine.exec_cons, step_step,
      Option.bind_some, hstore, hover, Machine.exec_nil]
    simp
  | reset =>
    have hstore : ((s.pending r b).setCall u [.storePendingReset]).execCall u []
        .storePendingReset = (s.pending true b).setCall u [] :=
      setCall_setCall (s := s.pending true b) ..
    rw [Command.labels, Machine.exec_cons, step_call hmay, Option.bind_some, Machine.exec_cons,
      Call.code, step_step, Option.bind_some, hstore, hover, Machine.exec_nil]
    simp

/-- **The commands set the flags of those that are among them.** -/
theorem exec_commands (h : s.IdleAfterTick start) (cmds : List Command) (r b : Bool) :
    missionPipeline.exec (s.pending r b) (cmds.flatMap (Command.labels u)) =
      some (s.pending (r || decide (.reset ∈ cmds)) (b || decide (.startPipeline ∈ cmds))) := by
  induction cmds generalizing r b with
  | nil => simp
  | cons c cmds ih =>
    rw [List.flatMap_cons, Machine.exec_append, exec_command h, Option.bind_some, ih]
    congr 2
    · simp only [List.mem_cons, Bool.decide_or, Bool.or_assoc, eq_comm]
    · simp only [List.mem_cons, Bool.decide_or, Bool.or_assoc, eq_comm]

/-! ## The tick -/

/-- The scheduler alone takes steps, and hooks return, until the tick is over. -/
inductive Settles : MissionPipeline × List Hook → MissionPipeline × List Hook → Prop
  | done {p : MissionPipeline × List Hook} (between : p.1.BetweenTicks) : Settles p p
  | step {p q r : MissionPipeline × List Hook} {a : Label}
      (alone : a = .run ∨ ∃ result, a = .returns result) (step : recorded.step p a = some q)
      (rest : Settles q r) : Settles p r

variable {p : MissionPipeline × List Hook} {hooks : List Hook}

theorem settles_done (h : s.BetweenTicks) : Settles (s, hooks) p ↔ p = (s, hooks) := by
  refine ⟨fun hp => ?_, fun hp => ?_⟩
  swap
  · rw [hp]
    exact .done h
  cases hp with
  | done _ => rfl
  | step alone step rest =>
    obtain ⟨hstep, -⟩ := Machine.withHistory_step.mp step
    rcases alone with rfl | ⟨result, rfl⟩
    · obtain ⟨-, hnext⟩ := Option.ite_none_right_eq_some.mp hstep
      simp [MissionPipeline.next, h.1] at hnext
    · obtain ⟨-, hreturns⟩ := Option.ite_none_right_eq_some.mp hstep
      simp [hookReturns, h.2] at hreturns

/-- The only step is the next one of the tick. -/
theorem settles_run {t : MissionPipeline} (hruns : s.runs) (hnext : s.next = some t) :
    Settles (s, hooks) p ↔ Settles (t, hooks ++ s.called .run) p := by
  have hrun : recorded.step (s, hooks) .run = some (t, hooks ++ s.called .run) :=
    Machine.withHistory_step.mpr ⟨(if_pos hruns).trans hnext, rfl⟩
  refine ⟨fun hp => ?_, .step (.inl rfl) hrun⟩
  cases hp with
  | done between =>
    have hdone : s.todo = [] := between.1
    simp [MissionPipeline.next, hdone] at hnext
  | step alone step rest =>
    rcases alone with rfl | ⟨result, rfl⟩
    · rw [hrun] at step
      exact Option.some.inj step ▸ rest
    · obtain ⟨hstep, -⟩ := Machine.withHistory_step.mp step
      obtain ⟨-, hreturns⟩ := Option.ite_none_right_eq_some.mp hstep
      simp [hookReturns, hruns.1] at hreturns

/-- The only step is the return of the hook, whatever it returns. -/
theorem settles_returns {h : Hook} (hcalls : s.calls .scheduler = []) (hhook : s.hook = some h)
    (hexecute : ∀ e, h ≠ Hook.execute e) :
    Settles (s, hooks) p ↔ Settles ({ s with hook := none }, hooks) p := by
  have hreturns (result : TransitionResult) :
      recorded.step (s, hooks) (.returns result) = some ({ s with hook := none }, hooks) := by
    refine Machine.withHistory_step.mpr ⟨(if_pos hcalls).trans ?_, List.append_nil _⟩
    rw [hookReturns, hhook]
    cases h with
    | use e => exact absurd rfl (hexecute e)
    | _ => rfl
  refine ⟨fun hp => ?_, .step (.inr ⟨.awaiting, rfl⟩) (hreturns .awaiting)⟩
  cases hp with
  | done between =>
    have hnone : s.hook = none := between.2
    rw [hhook] at hnone
    cases hnone
  | step alone step rest =>
    rcases alone with rfl | ⟨result, rfl⟩
    · obtain ⟨hstep, -⟩ := Machine.withHistory_step.mp step
      obtain ⟨hruns, -⟩ := Option.ite_none_right_eq_some.mp hstep
      have hnone : s.hook = none := hruns.1
      rw [hhook] at hnone
      cases hnone
    · rw [hreturns] at step
      exact Option.some.inj step ▸ rest

theorem settles_code {c : Code} {rest : List (Duty Code MissionElement)} {t : MissionPipeline}
    (hruns : s.runs) (htodo : s.todo = .code c :: rest) (hexec : { s with todo := rest }.exec c = t) :
    Settles (s, hooks) p ↔ Settles (t, hooks) p := by
  have hnext : s.next = some t := by rw [MissionPipeline.next, htodo, ← hexec]
  have hcalled : s.called .run = [] := by simp [called, htodo, Duty.call?]
  rw [settles_run hruns hnext, hcalled, List.append_nil]

/-- A hook other than `execute` is called, and returns. -/
theorem settles_call {h : Hook} {rest : List (Duty Code MissionElement)} (hruns : s.runs)
    (htodo : s.todo = .call h :: rest) (hexecute : ∀ e, h ≠ Hook.execute e) :
    Settles (s, hooks) p ↔ Settles ({ s with todo := rest }, hooks ++ [h]) p := by
  have hnext : s.next = some { s with todo := rest, hook := some h } := by
    rw [MissionPipeline.next, htodo]
  have hcalled : s.called .run = [h] := by simp [called, htodo, Duty.call?]
  have hback : { s with todo := rest, hook := none } = { s with todo := rest } := by
    rw [← hruns.1]
  rw [settles_run hruns hnext, hcalled,
    settles_returns (s := { s with todo := rest, hook := some h }) hruns.2 rfl hexecute]
  exact iff_of_eq (congrArg (fun s => Settles (s, hooks ++ [h]) p) hback)

/-- All elements are reset. -/
theorem settles_resets (es : List MissionElement) {rest : List (Duty Code MissionElement)}
    (hruns : s.runs) (htodo : s.todo = es.map (fun e => .call (Hook.reset e)) ++ rest) :
    Settles (s, hooks) p ↔ Settles ({ s with todo := rest }, hooks ++ es.map Hook.reset) p := by
  induction es generalizing s hooks with
  | nil =>
    have hsame : { s with todo := rest } = s := by rw [← show s.todo = rest from htodo]
    rw [hsame, List.map_nil, List.append_nil]
  | cons e es ih =>
    rw [List.map_cons, List.cons_append] at htodo
    have hsplit : hooks ++ (e :: es).map Hook.reset = hooks ++ [Hook.reset e] ++ es.map Hook.reset := by
      rw [List.append_assoc, List.map_cons, List.singleton_append]
    rw [hsplit, settles_call hruns htodo (by simp)]
    exact ih (s := { s with todo := es.map (fun e => Duty.call (Hook.reset e)) ++ rest }) hruns rfl

/-! ## From the flags to the outcome -/

/-- In the drain: this is left to do, and these flags are set. -/
def draining (s : MissionPipeline) (todo : List (Duty Code MissionElement)) (reset start : Bool) :
    MissionPipeline :=
  { s with todo := todo, pendingReset_ := reset, pendingStart_ := start }

variable {rest : List (Duty Code MissionElement)} {r b : Bool}

theorem draining_done (htodo : s.todo = []) (hreset : s.pendingReset_ = false)
    (hstart : s.pendingStart_ = false) : s.draining [] false false = s := by
  cases s
  cases htodo
  cases hreset
  cases hstart
  rfl

theorem IdleAfterTick.exec_resetImpl (h : s.IdleAfterTick start) :
    (s.draining rest r b).exec .resetImpl = s.draining (.code .cancelStart ::
      (s.graph.elements_.values.map (fun e => .call (Hook.reset e)) ++
        .code (.setState .initialized) :: rest)) r b := by
  simp [MissionPipeline.exec, MissionPipeline.resetImpl, exitAndReset, push, draining, h.current,
    h.idle]

theorem IdleAfterTick.exec_startImmediate (h : s.IdleAfterTick start) :
    (s.draining rest r b).exec .startImmediate =
      { s.draining (.call (Hook.onEnter start) :: rest) r b with
        currentElement_ := some start, status_ := .executing } := by
  simp [MissionPipeline.exec, MissionPipeline.startImmediate, push, draining, h.idle, h.valid]

/-- Nothing is pending, nothing is on the control port: the drain is over. -/
theorem settles_drained (htodo : s.todo = []) (hreset : s.pendingReset_ = false)
    (hstart : s.pendingStart_ = false) (hruns : s.runs)
    (hcontrol : s.controlPort_.wasUpdated_ = false) :
    Settles (s.draining [.code .testControl] false false, hooks) p ↔ p = (s, hooks) := by
  have hexec : (s.draining [] false false).exec .testControl = s := by
    rw [draining_done htodo hreset hstart]
    simp [MissionPipeline.exec, push, hcontrol]
  have hlast : Settles (s.draining [.code .testControl] false false, hooks) p ↔
      Settles (s, hooks) p := settles_code (s := s.draining _ _ _) hruns rfl hexec
  exact hlast.trans (settles_done ⟨htodo, hruns.1⟩)

/-- What the tick makes of the two flags. -/
def settled (s : MissionPipeline) (start : MissionElement) (reset begun : Bool) :
    MissionPipeline × List Hook :=
  if reset then ({ s with state_ := .initialized }, s.graph.elements_.values.map Hook.reset)
  else if begun then
    ({ s with currentElement_ := some start, status_ := .executing }, [Hook.onEnter start])
  else (s, [])

/-- **The reset is drained first**, and cancels the start. -/
theorem settles_pending (h : s.IdleAfterTick start) (r b : Bool) :
    Settles (s.draining processAsync r b, []) p ↔ p = s.settled start r b := by
  have hruns : s.runs := ⟨h.between.2, h.calls .scheduler⟩
  cases r with
  | true =>
    calc Settles (s.draining processAsync true b, []) p
      _ ↔ Settles (s.draining [.code .resetImpl, .code .drainStart, .code .testControl] false b,
            []) p := settles_code hruns rfl rfl
      _ ↔ Settles (s.draining (.code .cancelStart :: (s.graph.elements_.values.map
            (fun e => .call (Hook.reset e)) ++ [.code (.setState .initialized), .code .drainStart,
              .code .testControl])) false b, []) p := settles_code hruns rfl h.exec_resetImpl
      _ ↔ Settles (s.draining (s.graph.elements_.values.map (fun e => .call (Hook.reset e)) ++
            [.code (.setState .initialized), .code .drainStart, .code .testControl]) false false,
              []) p := settles_code hruns rfl rfl
      _ ↔ Settles (s.draining [.code (.setState .initialized), .code .drainStart,
            .code .testControl] false false, s.graph.elements_.values.map Hook.reset) p :=
          settles_resets _ hruns rfl
      _ ↔ Settles ({ s with state_ := .initialized }.draining [.code .drainStart,
            .code .testControl] false false, s.graph.elements_.values.map Hook.reset) p :=
          settles_code hruns rfl rfl
      _ ↔ Settles ({ s with state_ := .initialized }.draining [.code .testControl] false false,
            s.graph.elements_.values.map Hook.reset) p := settles_code hruns rfl rfl
      _ ↔ p = s.settled start true b :=
          settles_drained (s := { s with state_ := .initialized }) h.between.1 h.pendingReset
            h.pendingStart hruns h.control
  | false =>
    have hfirst : Settles (s.draining processAsync false b, []) p ↔
        Settles (s.draining [.code .drainStart, .code .testControl] false b, []) p :=
      settles_code hruns rfl rfl
    rw [hfirst]
    cases b with
    | true =>
      calc Settles (s.draining [.code .drainStart, .code .testControl] false true, []) p
        _ ↔ Settles (s.draining [.code .startImmediate, .code .testControl] false false, []) p :=
            settles_code hruns rfl rfl
        _ ↔ Settles ({ s with currentElement_ := some start, status_ := .executing }.draining
              [.call (Hook.onEnter start), .code .testControl] false false, []) p :=
            settles_code hruns rfl h.exec_startImmediate
        _ ↔ Settles ({ s with currentElement_ := some start, status_ := .executing }.draining
              [.code .testControl] false false, [Hook.onEnter start]) p :=
            settles_call (s := { s with
              currentElement_ := some start, status_ := .executing }.draining _ _ _)
              (h := Hook.onEnter start) hruns rfl (by simp)
        _ ↔ p = s.settled start false true :=
            settles_drained (s := { s with currentElement_ := some start, status_ := .executing })
              h.between.1 h.pendingReset h.pendingStart hruns h.control
    | false =>
      calc Settles (s.draining [.code .drainStart, .code .testControl] false false, []) p
        _ ↔ Settles (s.draining [.code .testControl] false false, []) p :=
            settles_code hruns rfl rfl
        _ ↔ p = s.settled start false false := settles_drained h.between.1 h.pendingReset
            h.pendingStart hruns h.control

/-! ## The last command -/

/-- The tick after these commands of this thread, with the hooks that it calls. -/
def TickAfter (s : MissionPipeline) (u : MissionThread) (cmds : List Command)
    (p : MissionPipeline × List Hook) : Prop :=
  ∃ t, missionPipeline.exec s (cmds.flatMap (Command.labels u) ++ [.processAsync]) = some t ∧
    Settles (t, []) p

/-- **The tick has one outcome**: that of a reset if there was one, and of a start if there was
none. -/
theorem tickAfter_iff (h : s.IdleAfterTick start) (cmds : List Command) :
    TickAfter s u cmds p ↔
      p = s.settled start (decide (.reset ∈ cmds)) (decide (.startPipeline ∈ cmds)) := by
  have hself : s.pending false false = s := by
    rw [pending, ← h.pendingReset]
    nth_rewrite 2 [h.pendingReset]
    rw [← h.pendingStart]
  have hcmds := exec_commands (u := u) h cmds false false
  rw [hself, Bool.false_or, Bool.false_or] at hcmds
  generalize decide (.reset ∈ cmds) = r at hcmds ⊢
  generalize decide (.startPipeline ∈ cmds) = b at hcmds ⊢
  have hruns : (s.pending r b).runs ∧ (s.pending r b).todo = [] :=
    ⟨⟨h.between.2, h.calls .scheduler⟩, h.between.1⟩
  have hexec : missionPipeline.exec s (cmds.flatMap (Command.labels u) ++ [.processAsync]) =
      some (s.draining processAsync r b) := by
    have hbegin : missionPipeline.step (s.pending r b) .processAsync =
        some ((s.pending r b).push processAsync) := if_pos hruns
    have hpush : (s.pending r b).push processAsync = s.draining processAsync r b := by
      rw [push, hruns.2, List.append_nil]
      rfl
    rw [Machine.exec_append, hcmds, Option.bind_some, Machine.exec_cons, hbegin, hpush]
    rfl
  constructor
  · rintro ⟨t, ht, hp⟩
    rw [hexec] at ht
    exact (settles_pending h r b).mp (Option.some.inj ht ▸ hp)
  · exact fun hp => ⟨_, hexec, (settles_pending h r b).mpr hp⟩

/-- **The last command is obeyed**: the start element is entered once, and the mission executes,
exactly if that is a start; else the mission is idle, and no start is pending. -/
structure Obeys (start : MissionElement) (cmds : List Command) (p : MissionPipeline × List Hook) :
    Prop where
  started : cmds.getLast? = some .startPipeline ↔
    p.1.status_ = .executing ∧ p.2.count (Hook.onEnter start) = 1
  idle : cmds.getLast? ≠ some .startPipeline → p.1.status_ = .idle ∧ p.1.pendingStart_ = false

/-- **The last command is obeyed** exactly if it is a reset, or no reset is among the commands. -/
theorem obeys_iff (h : s.IdleAfterTick start) (u : MissionThread) {cmds : List Command}
    (hcmds : cmds ≠ []) : ∃ p, (∀ q, TickAfter s u cmds q ↔ q = p) ∧
      (Obeys start cmds p ↔ cmds.getLast? = some .reset ∨ .reset ∉ cmds) := by
  refine ⟨_, fun q => tickAfter_iff h cmds, ?_⟩
  have hlast : ∃ c, cmds.getLast? = some c ∧ c ∈ cmds :=
    ⟨cmds.getLast hcmds, List.getLast?_eq_some_getLast hcmds, List.getLast_mem hcmds⟩
  obtain ⟨c, hlast, hmem⟩ := hlast
  by_cases hreset : .reset ∈ cmds
  · have hnone : (s.graph.elements_.values.map Hook.reset).count (Hook.onEnter start) = 0 := by
      simp [List.count_eq_zero]
    simp only [settled, hreset, decide_true, if_true, not_true_eq_false, or_false, hlast]
    refine ⟨fun hobeys => ?_, fun hc => ?_⟩
    · cases c with
      | startPipeline =>
        have hcount := (hobeys.started.mp hlast).2
        rw [hnone] at hcount
        cases hcount
      | reset => rfl
    · obtain rfl := Option.some.inj hc
      refine ⟨?_, fun _ => ⟨h.idle, h.pendingStart⟩⟩
      simp [hlast, h.idle]
  · have hc : c = .startPipeline := by
      cases c with
      | startPipeline => rfl
      | reset => exact absurd hmem hreset
    subst hc
    simp only [settled, hreset, hmem, decide_true, decide_false, if_true, Bool.false_eq_true,
      if_false, not_false_eq_true, or_true, iff_true]
    exact ⟨by simp [hlast], fun hne => absurd hlast hne⟩

/-- The pipeline of `flight`, as it is constructed. -/
theorem idle_flight : IdleAfterTick { graph := flight } ⟨0, "takeoff"⟩ where
  reached := ⟨[], .init ⟨rfl, rfl⟩⟩
  between := ⟨rfl, rfl⟩
  idle := rfl
  valid := by decide +kernel
  calls _ := rfl
  pendingReset := rfl
  pendingStart := rfl
  control := rfl

theorem obeys_restarted : ∃ p, (∀ q, TickAfter { graph := flight } (.other 0)
    [.startPipeline, .reset] q ↔ q = p) ∧ (Obeys ⟨0, "takeoff"⟩ [.startPipeline, .reset] p ↔
      [Command.startPipeline, .reset].getLast? = some .reset ∨
        .reset ∉ [Command.startPipeline, .reset]) :=
  obeys_iff idle_flight (.other 0) (by decide)

/-- A start behind a reset is forgotten. -/
theorem reset_cancels_later_start : ¬ ∀ (s : MissionPipeline) (start : MissionElement)
    (u : MissionThread) (cmds : List Command) (p : MissionPipeline × List Hook),
    s.IdleAfterTick start → cmds ≠ [] → TickAfter s u cmds p → Obeys start cmds p := by
  intro h
  have hobeys := h _ _ (.other 0) [.reset, .startPipeline] _ idle_flight (by decide)
    ((tickAfter_iff idle_flight _).mpr rfl)
  have hexecuting := (hobeys.started.mp rfl).1
  cases hexecuting

end MissionPipeline

end AxonVex
