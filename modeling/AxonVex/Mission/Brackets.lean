import AxonVex.Mission.Pipeline

/-!
# Mission/Brackets — an element is entered, executed and left before the next is entered

    onEnter a  execute a … execute a  onExit a  reset …  onEnter b  execute b …

Whatever the results of `execute`, and whoever calls what and when: the hook calls of a pipeline form
such a sequence, and between ticks the entered element is `currentElement_`
(`MissionPipeline.hooks_bracketed`).

What carries the proof is a property of the list of what the scheduler has still to do.  A section
of `stateMutex_` that changes `currentElement_` puts the hooks that make up for it first on that
list, and no section runs before they have been called.
-/

namespace AxonVex

open Machinery

namespace MissionPipeline

/-! ## The hooks of a run -/

/-- The hook that a step of the scheduler calls. -/
def called (s : MissionPipeline) : Label → List Hook
  | .run => (s.todo.head?.bind Duty.call?).toList
  | _ => []

/-- The pipeline, with the hooks called so far. -/
def recorded : Machine (MissionPipeline × List Hook) Label :=
  missionPipeline.withHistory [] fun s a _ hooks => hooks ++ s.called a

/-- The scheduler is in no tick. -/
def BetweenTicks (s : MissionPipeline) : Prop := s.todo = [] ∧ s.hook = none

/-! ## The invariant -/

/-- All statements but one rely on the current element being the entered one. -/
def Code.Decides (c : Code) : Prop := c ≠ .cancelStart

/-- An element is current exactly if the pipeline executes, or pauses. -/
def Consistent (s : MissionPipeline) : Prop :=
  s.currentElement_.isSome ↔ s.status_ = .executing ∨ s.status_ = .paused

/-- With `q` entered, the hooks that are left to call lead to the current element. -/
structure Owes (s : MissionPipeline) (q : Option MissionElement) : Prop where
  leads : Leads Code.Decides s.currentElement_ q s.todo
  consistent : s.Consistent

variable {s t : MissionPipeline} {q : Option MissionElement}

/-- What a step does not touch. -/
theorem Owes.congr (h : s.Owes q) (htodo : t.todo = s.todo)
    (hcurrent : t.currentElement_ = s.currentElement_) (hstatus : t.status_ = s.status_) :
    t.Owes q where
  leads := by
    rw [htodo, hcurrent]
    exact h.leads
  consistent := by
    rw [Consistent, hcurrent, hstatus]
    exact h.consistent

/-! ## The sections -/

/-- The scheduler has nothing but statements to run, and an element is current as it should be. -/
structure Settled (s : MissionPipeline) : Prop where
  callFree : CallFree s.todo
  consistent : s.Consistent

theorem Settled.owes (h : s.Settled) : s.Owes s.currentElement_ where
  leads := .of_callFree h.callFree
  consistent := h.consistent

/-- Statements come first. -/
theorem Settled.push (h : s.Settled) {duties : List (Duty Code MissionElement)}
    (hfree : CallFree duties) : (s.push duties).Settled where
  callFree := hfree.append h.callFree
  consistent := h.consistent

/-- **The hooks of a section that lets the current element go** bring back that nothing is entered. -/
theorem leads_exitAndReset (hfree : CallFree s.todo) (last : Code) :
    Leads Code.Decides none s.currentElement_ (s.exitAndReset last ++ s.todo) := by
  have hlast : Leads Code.Decides none none (.code last :: s.todo) :=
    .of_callFree (callFree_code.mpr hfree)
  have hresets := Leads.asides s.graph.elements_.values hlast
  simpa [exitAndReset] using Leads.leave hresets

theorem Settled.resetImpl (h : s.Settled) : s.resetImpl.Owes s.currentElement_ where
  leads := .pass (by simp [Code.Decides]) (leads_exitAndReset h.callFree _)
  consistent := by simp [MissionPipeline.resetImpl, Consistent, MissionPipeline.push]

theorem Settled.restartImpl (h : s.Settled) : s.restartImpl.Owes s.currentElement_ where
  leads := leads_exitAndReset h.callFree _
  consistent := by simp [MissionPipeline.restartImpl, Consistent, MissionPipeline.push]

/-- An idle pipeline has no current element. -/
theorem Consistent.none_of_idle (h : s.Consistent) (hidle : s.status_ = .idle) :
    s.currentElement_ = none := by
  have hnone : ¬ s.currentElement_.isSome := fun hsome => by simpa [hidle] using h.mp hsome
  simpa using hnone

theorem Settled.startImmediate (h : s.Settled) : s.startImmediate.Owes s.currentElement_ := by
  rw [MissionPipeline.startImmediate]
  split
  · next hidle =>
    have hnone := h.consistent.none_of_idle hidle
    split
    · next firstError _ =>
      have hfailed : { s with status_ := .failed }.Settled :=
        ⟨h.callFree, by simp [Consistent, hnone]⟩
      exact (hfailed.push (by simp)).owes
    · next start _ =>
      rw [hnone]
      exact ⟨.call (.enter start) (.of_callFree h.callFree), by simp [Consistent, MissionPipeline.push]⟩
  · exact h.owes

theorem Settled.abortImpl (h : s.Settled) : s.abortImpl.Owes s.currentElement_ := by
  rw [MissionPipeline.abortImpl]
  split
  · exact ⟨.leave (.of_callFree h.callFree), by simp [Consistent, MissionPipeline.push]⟩
  · exact h.owes

theorem Settled.pauseImpl (h : s.Settled) : s.pauseImpl.Owes s.currentElement_ := by
  rw [MissionPipeline.pauseImpl]
  split
  · next hexec =>
    have hsome : s.currentElement_.isSome := h.consistent.mpr (.inl hexec)
    exact ⟨.of_callFree h.callFree, by simp [Consistent, hsome]⟩
  · exact h.owes

theorem Settled.resumeImpl (h : s.Settled) : s.resumeImpl.Owes s.currentElement_ := by
  rw [MissionPipeline.resumeImpl]
  split
  · next hpaused =>
    have hsome : s.currentElement_.isSome := h.consistent.mpr (.inr hpaused)
    exact ⟨.of_callFree h.callFree, by simp [Consistent, hsome]⟩
  · exact h.owes

/-- `processSync` executes the element that is entered. -/
theorem Settled.snapshot (h : s.Settled) : s.snapshot.Owes s.currentElement_ := by
  rw [MissionPipeline.snapshot]
  split
  · next element hstatus hcurrent =>
    have hfree : CallFree (.code (.examine element .executing) :: s.todo) :=
      callFree_code.mpr h.callFree
    refine ⟨?_, h.consistent⟩
    rw [hcurrent]
    have hcurrent' : (s.push [.call (Hook.execute element),
        .code (.examine element .executing)]).currentElement_ = some element := hcurrent
    rw [hcurrent']
    exact .call (.use element) (.of_callFree hfree)
  · exact (h.push (by simp)).owes

/-- **A result is applied** to the element that is entered, or not at all. -/
theorem Settled.apply (h : s.Settled) (element : MissionElement) {status : PipelineStatus}
    {next : Option MissionElement} (hnext : next.isSome ↔ status = .executing ∨ status = .paused) :
    (s.apply element status next).Owes s.currentElement_ := by
  rw [MissionPipeline.apply]
  split
  · next hsame =>
    have hfree : CallFree (.code (.writeStatus status) :: s.todo) := callFree_code.mpr h.callFree
    refine ⟨?_, hnext⟩
    rw [hsame.1]
    have hnext : Leads Code.Decides next next (.code (.writeStatus status) :: s.todo) :=
      .of_callFree hfree
    simpa [MissionPipeline.push] using Leads.call (.leave element) hnext.enter
  · exact (h.push (by simp)).owes

/-- **Every statement that relies on it** finds the current element entered, and owes what it
changes. -/
theorem Settled.exec (h : s.Settled) (c : Code) : (s.exec c).Owes s.currentElement_ := by
  cases c with
  | drainReset =>
    have hfree : CallFree (E := MissionElement)
        (if s.pendingReset_ then [.code Code.resetImpl] else []) := by
      split <;> simp
    exact (h.push hfree).owes.congr rfl rfl rfl
  | drainStart =>
    have hfree : CallFree (E := MissionElement)
        (if s.pendingStart_ then [.code Code.startImmediate] else []) := by
      split <;> simp
    exact (h.push hfree).owes.congr rfl rfl rfl
  | testControl =>
    refine (h.push ?_).owes
    split <;> simp
  | readControl =>
    rw [MissionPipeline.exec]
    split
    · exact (h.push (by simp)).owes
    · exact ⟨.done, h.consistent⟩
  | dispatchControl =>
    rw [MissionPipeline.exec, MissionPipeline.dispatchControl]
    repeat' split
    all_goals first | exact (h.push (by simp)).owes | exact h.owes
  | resetImpl => exact h.resetImpl
  | startImmediate => exact h.startImmediate
  | abortImpl => exact h.abortImpl
  | restartImpl => exact h.restartImpl
  | pauseImpl => exact h.pauseImpl
  | resumeImpl => exact h.resumeImpl
  | snapshot => exact h.snapshot
  | examine element statusSnapshot =>
    rw [MissionPipeline.exec, MissionPipeline.examine]
    split <;> exact (h.push (by simp)).owes
  | lookUp element result =>
    rw [MissionPipeline.exec, MissionPipeline.lookUp]
    split <;> exact (h.push (by simp)).owes
  | applyFailed element => exact h.apply element (by simp)
  | applyFinished element => exact h.apply element (by simp)
  | applyNext element next => exact h.apply element (by simp)
  | _ => exact h.owes.congr rfl rfl rfl

/-! ## One step -/

/-- What the scheduler has just called, or run. -/
theorem Owes.next (h : s.Owes q) (hnext : s.next = some t) :
    ∃ r, t.Owes r ∧ Visit.Moved (s.called .run) q r := by
  rw [MissionPipeline.next] at hnext
  split at hnext
  · cases hnext
  · next v rest htodo =>
    obtain ⟨⟩ := hnext
    have hleads := h.leads
    rw [htodo] at hleads
    cases hleads with
    | call hv hrest =>
      have hv' : s.called .run = [v] := by simp [called, htodo, Duty.call?]
      exact ⟨_, ⟨hrest, h.consistent⟩, hv' ▸ .one hv⟩
  · next c rest htodo =>
    obtain ⟨⟩ := hnext
    have hleads := h.leads
    rw [htodo] at hleads
    have hnone : s.called .run = [] := by simp [called, htodo, Duty.call?]
    by_cases hc : c = .cancelStart
    · subst hc
      exact ⟨q, ⟨hleads.passed (by simp [Code.Decides]), h.consistent⟩, hnone ▸ .none q⟩
    · obtain ⟨rfl, hfree⟩ := hleads.decided hc
      have hsettled : { s with todo := rest }.Settled := ⟨hfree, h.consistent⟩
      exact ⟨_, hsettled.exec c, hnone ▸ .none _⟩

/-- A statement of a call changes none of it: `startPipeline` fails an idle pipeline at most. -/
theorem Owes.execCall (h : s.Owes q) (u : MissionThread) (rest : List CallStep) (c : CallStep) :
    (s.execCall u rest c).Owes q := by
  cases c with
  | checkStart =>
    rw [MissionPipeline.execCall, MissionPipeline.checkStart]
    split
    · next hidle =>
      have hnone := h.consistent.none_of_idle hidle
      split
      · exact ⟨h.leads, by simp [Consistent, setCall, hnone]⟩
      · exact h.congr rfl rfl rfl
    · exact h.congr rfl rfl rfl
  | _ => exact h.congr rfl rfl rfl

/-- A tick begins where nothing is left to do. -/
theorem Owes.tick (h : s.Owes q) (hdone : s.todo = []) {duties : List (Duty Code MissionElement)}
    (hfree : CallFree duties) : (s.push duties).Owes q := by
  have hleads := h.leads
  rw [hdone] at hleads
  obtain rfl := hleads.eq_of_nil
  have hsettled : s.Settled := ⟨by simp [hdone], h.consistent⟩
  exact (hsettled.push hfree).owes

/-- **One step** calls at most one hook, one that is due, and leaves the rest owed. -/
theorem Owes.step (h : s.Owes q) {a : Label} (hstep : missionPipeline.step s a = some t) :
    ∃ r, t.Owes r ∧ Visit.Moved (s.called a) q r := by
  change MissionPipeline.step s a = some t at hstep
  have hquiet (ht : t.Owes q) (hcalled : s.called a = []) :
      ∃ r, t.Owes r ∧ Visit.Moved (s.called a) q r := ⟨q, ht, hcalled ▸ .none q⟩
  cases a with
  | call u c =>
    obtain ⟨-, rfl⟩ := guarded hstep
    exact hquiet (h.congr rfl rfl rfl) rfl
  | step u =>
    rw [MissionPipeline.step] at hstep
    split at hstep
    · cases hstep
    · obtain ⟨⟩ := hstep
      exact hquiet (h.execCall u _ _) rfl
  | processAsync =>
    obtain ⟨hidle, rfl⟩ := guarded hstep
    exact hquiet (h.tick hidle.2 (by simp [MissionPipeline.processAsync])) rfl
  | processSync =>
    obtain ⟨hidle, rfl⟩ := guarded hstep
    exact hquiet (h.tick hidle.2 (by simp [MissionPipeline.processSync])) rfl
  | run =>
    obtain ⟨-, hnext⟩ := Option.ite_none_right_eq_some.mp hstep
    exact h.next hnext
  | returns result =>
    obtain ⟨-, hreturns⟩ := Option.ite_none_right_eq_some.mp hstep
    rw [MissionPipeline.hookReturns] at hreturns
    split at hreturns
    · cases hreturns
    · obtain ⟨⟩ := hreturns
      exact hquiet (h.congr rfl rfl rfl) rfl
    · obtain ⟨⟩ := hreturns
      exact hquiet (h.congr rfl rfl rfl) rfl
  | _ =>
    obtain ⟨⟩ := hstep
    exact hquiet (h.congr rfl rfl rfl) rfl

/-! ## Every run -/

/-- The hooks called so far are bracketed, and what is left to call makes up for the rest. -/
def Inv (p : MissionPipeline × List Hook) : Prop :=
  Bracketed p.2 (entered p.2) ∧ p.1.Owes (entered p.2)

theorem inv_inductive : recorded.Inductive (fun _ _ => True) Inv where
  init p hp := by
    obtain ⟨hinit, hhooks⟩ := hp
    have hp1 : p.1 = { name := p.1.name, graph := p.1.graph } := hinit
    rw [Inv, hhooks, hp1]
    exact ⟨.nil, .done, by simp [Consistent]⟩
  step p a p' h _ hstep := by
    obtain ⟨ht, hhooks⟩ := Machine.withHistory_step.mp hstep
    obtain ⟨hbracketed, howes⟩ := h
    obtain ⟨r, howes', hmoved⟩ := howes.step ht
    obtain ⟨hbracketed', hentered⟩ := hbracketed.moved hmoved
    rw [hhooks] at hbracketed' hentered
    exact ⟨hbracketed', hentered ▸ howes'⟩

/-- **The hooks of a pipeline are bracketed**, for every graph, whatever `execute` returns, and
however the calls of other threads and of the hooks themselves fall between the steps of the ticks.
Between ticks the entered element is the current one, and there is one exactly if the pipeline
executes or pauses. -/
theorem hooks_bracketed {s : MissionPipeline} {hooks : List Hook}
    (h : recorded.Reachable (s, hooks)) :
    Bracketed hooks (entered hooks) ∧
      (s.BetweenTicks → s.currentElement_ = entered hooks ∧
        (s.currentElement_.isSome ↔ s.status_ = .executing ∨ s.status_ = .paused)) := by
  obtain ⟨hbracketed, hleads, hconsistent⟩ := h.invariant inv_inductive
  refine ⟨hbracketed, fun hbetween => ⟨?_, hconsistent⟩⟩
  have hdone : s.todo = [] := hbetween.1
  rw [hdone] at hleads
  exact hleads.eq_of_nil.symm

/-- The mission takes off, then lands. -/
def flight : Graph :=
  ((({} : Graph).addElement ⟨0, "takeoff"⟩).addElement ⟨1, "land"⟩).addSequentialTransition
    "takeoff" "land"

/-- The element that takes off aborts the mission from its `execute`, and returns `Default`: the
abort is drained in the next tick, when the mission is landing. -/
def abortedInHook : List Label :=
  [.call (.other 0) .startPipeline, .step (.other 0), .step (.other 0),
    .processAsync, .run, .run, .run, .run, .returns .default, .run,
    .processSync, .run, .run, .run, .call .scheduler .abort, .step .scheduler, .step .scheduler,
    .returns .default, .run, .run, .run, .run, .returns .default, .run, .returns .default, .run,
    .processAsync, .run, .run, .run, .run, .run, .run, .run, .run, .returns .default]

set_option maxRecDepth 4000 in
/-- In the state of `abortedInHook`. -/
theorem hooks_bracketed_abortedInHook :
    ∃ p, recorded.exec ({ graph := flight }, []) abortedInHook = some p ∧
      p.2 = [Hook.onEnter ⟨0, "takeoff"⟩, Hook.execute ⟨0, "takeoff"⟩, Hook.onExit ⟨0, "takeoff"⟩,
        Hook.onEnter ⟨1, "land"⟩, Hook.onExit ⟨1, "land"⟩] ∧
      Bracketed p.2 (entered p.2) ∧ p.1.status_ = .aborted ∧ p.1.currentElement_ = none := by
  have hrun : (recorded.exec ({ graph := flight }, []) abortedInHook).any (fun p =>
      p.2 == [Hook.onEnter ⟨0, "takeoff"⟩, Hook.execute ⟨0, "takeoff"⟩, Hook.onExit ⟨0, "takeoff"⟩,
        Hook.onEnter ⟨1, "land"⟩, Hook.onExit ⟨1, "land"⟩] &&
      (p.1.status_ == .aborted && (p.1.todo == [] && p.1.hook == none))) = true := by
    decide +kernel
  obtain ⟨p, hp, hresult⟩ := (Option.any_eq_true _ _).mp hrun
  simp only [Bool.and_eq_true, beq_iff_eq] at hresult
  obtain ⟨hhooks, hstatus, hbetween⟩ := hresult
  have hinit : recorded.Reachable ({ graph := flight }, []) := .init ⟨rfl, rfl⟩
  have hreached : recorded.Reachable (p.1, p.2) := .exec hinit hp
  obtain ⟨hbracketed, hcurrent⟩ := hooks_bracketed hreached
  refine ⟨p, hp, hhooks, hbracketed, hstatus, ?_⟩
  have hnone : ¬ p.1.currentElement_.isSome := fun hsome => by
    simpa [hstatus] using (hcurrent hbetween).2.mp hsome
  simpa using hnone

end MissionPipeline

end AxonVex
