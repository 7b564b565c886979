import AxonVex.Mission.Brackets

/-!
# Mission/Throws — hooks that throw

    onEnter a  execute a  onExit a ✗                     the scheduler catches it, the tick is over
                                       execute b         the next tick: b is current

A section of `stateMutex_` changes `currentElement_` before the hooks that belong to the change have
run.  A hook that throws ends the tick, and with it the hooks behind it: an `onEnter` that throws, or
an `onExit` behind which an `onEnter` was due, leaves an element current that was never entered
(`execute_without_enter`).  Whatever else throws, no tick calls `execute` or `onExit` on an element
that is not entered (`hooks_inside`), and status and current element stay consistent in any case
(`consistent_of_reachable`).
-/

namespace AxonVex

open Machinery

namespace MissionPipeline

/-! ## Runs in which hooks may throw -/

/-- A step of such a run. -/
inductive ThrowLabel
  | does (a : Label)
  /-- the hook that runs throws -/
  | throws
  deriving DecidableEq, Repr

/-- `executeTask` catches what a hook throws, and nothing is left to do in this tick. -/
def hookThrows (s : MissionPipeline) : Option MissionPipeline :=
  if s.calls .scheduler = [] ∧ s.hook.isSome then some { s with hook := none, todo := [] } else none

/-- Pipelines whose hooks may throw. -/
def throwing : Machine MissionPipeline ThrowLabel where
  init := missionPipeline.init
  step s
    | .does a => s.step a
    | .throws => s.hookThrows

/-- What the elements have been through. -/
structure Visited where
  /-- whether `onEnter` has returned since the element was last left -/
  inside : MissionElement → Bool := fun _ => false
  /-- the calls of `execute` and `onExit` on an element where it has not -/
  stray : List Hook := []

/-- A hook is called; an element is left when its `onExit` is called. -/
def Visited.call (v : Visited) : Hook → Visited
  | .use e => { v with stray := if v.inside e then v.stray else v.stray ++ [.use e] }
  | .leave e =>
    { inside := Function.update v.inside e false
      stray := if v.inside e then v.stray else v.stray ++ [.leave e] }
  | _ => v

/-- A hook returns. -/
def Visited.complete (v : Visited) : Option Hook → Visited
  | some (.enter e) => { v with inside := Function.update v.inside e true }
  | _ => v

/-- What a step adds. -/
def visit (s : MissionPipeline) : ThrowLabel → MissionPipeline → Visited → Visited
  | .does .run, _, v => (s.called .run).foldl Visited.call v
  | .does (.returns _), _, v => v.complete s.hook
  | _, _, v => v

/-- The pipeline, with what its elements have been through. -/
def visited : Machine (MissionPipeline × Visited) ThrowLabel := throwing.withHistory {} visit

def Hook.isEnter : Hook → Bool
  | .enter _ => true
  | _ => false

/-- What throws is no `onEnter`, and no hook behind which an `onEnter` is due. -/
def Contained (s : MissionPipeline) : ThrowLabel → Prop
  | .throws => s.hook.any Hook.isEnter = false ∧ ∀ d ∈ s.todo, d.call?.any Hook.isEnter = false
  | .does _ => True

instance (s : MissionPipeline) : ∀ a, Decidable (s.Contained a)
  | .does _ => inferInstanceAs (Decidable True)
  | .throws => inferInstanceAs (Decidable (_ ∧ _))

variable {s t : MissionPipeline} {q : Option MissionElement}

/-! ## What a tick has left to do -/

/-- No `onExit` is left to call. -/
def NoLeave (todo : List (Duty Code MissionElement)) : Prop :=
  ∀ e, Duty.call (Hook.onExit e) ∉ todo

/-- An `onExit` is the first hook that is left to call. -/
def LeaveFirst : List (Duty Code MissionElement) → Prop
  | [] => True
  | .code _ :: todo => LeaveFirst todo
  | .call _ :: todo => NoLeave todo

theorem noLeave_of_callFree {todo : List (Duty Code MissionElement)} (h : CallFree todo) :
    NoLeave todo := fun e he => by simpa [Duty.call?] using h _ he

theorem NoLeave.leaveFirst {todo : List (Duty Code MissionElement)} (h : NoLeave todo) :
    LeaveFirst todo := by
  induction todo with
  | nil => trivial
  | cons d todo ih =>
    have hrest : NoLeave todo := fun e he => h e (List.mem_cons_of_mem _ he)
    cases d with
    | code c => exact ih hrest
    | call v => exact hrest

/-- With neither an `onExit` nor an `onEnter` to call, what is entered is current. -/
theorem eq_current_of_leads {decides : Code → Prop} {current : Option MissionElement}
    {todo : List (Duty Code MissionElement)} (h : Leads decides current q todo)
    (henter : ∀ e, Duty.call (Hook.onEnter e) ∉ todo) (hleave : NoLeave todo) : q = current := by
  induction h with
  | done => rfl
  | @call v q r todo hv hrest ih =>
    have hr := ih (fun e he => henter e (List.mem_cons_of_mem _ he))
      fun e he => hleave e (List.mem_cons_of_mem _ he)
    cases hv with
    | enter e => exact absurd (List.mem_cons_self ..) (henter e)
    | use e => exact hr
    | leave e => exact absurd (List.mem_cons_self ..) (hleave e)
    | aside e => exact hr
  | pass _ hrest ih =>
    exact ih (fun e he => henter e (List.mem_cons_of_mem _ he))
      fun e he => hleave e (List.mem_cons_of_mem _ he)
  | decide _ _ => rfl

theorem leaveFirst_exitAndReset (hfree : CallFree s.todo) (last : Code) :
    LeaveFirst (s.exitAndReset last ++ s.todo) := by
  have hresets : NoLeave (s.graph.elements_.values.map (fun e => .call (Hook.reset e)) ++
      [Duty.code last] ++ s.todo) := by
    intro e he
    rcases List.mem_append.mp he with he | he
    · simp at he
    · exact noLeave_of_callFree hfree e he
  rw [exitAndReset, List.append_assoc]
  cases s.currentElement_ with
  | none => exact hresets.leaveFirst
  | some e => exact hresets

/-- **Every section that lets an element go calls its `onExit` first.** -/
theorem leaveFirst_exec (hfree : CallFree s.todo) (c : Code) : LeaveFirst (s.exec c).todo := by
  have hkeep : LeaveFirst s.todo := (noLeave_of_callFree hfree).leaveFirst
  have hpush (duties : List (Duty Code MissionElement)) (h : CallFree duties) :
      LeaveFirst (duties ++ s.todo) := (noLeave_of_callFree (h.append hfree)).leaveFirst
  have happly (element : MissionElement) (status : PipelineStatus) (next : Option MissionElement) :
      LeaveFirst (s.apply element status next).todo := by
    rw [MissionPipeline.apply]
    split
    · intro e he
      rcases List.mem_append.mp he with he | he
      · simp at he
      · exact noLeave_of_callFree hfree e he
    · exact hpush _ (by simp)
  cases c with
  | drainReset => exact hpush _ (by split <;> simp)
  | drainStart => exact hpush _ (by split <;> simp)
  | testControl => exact hpush _ (by split <;> simp)
  | readControl =>
    rw [MissionPipeline.exec]
    split
    · exact hpush _ (by simp)
    · trivial
  | dispatchControl =>
    rw [MissionPipeline.exec, MissionPipeline.dispatchControl]
    repeat' split
    all_goals first | exact hpush _ (by simp) | exact hkeep
  | resetImpl => exact leaveFirst_exitAndReset hfree _
  | startImmediate =>
    rw [MissionPipeline.exec, MissionPipeline.startImmediate]
    split
    · split
      · exact hpush _ (by simp)
      · exact noLeave_of_callFree hfree
    · exact hkeep
  | abortImpl =>
    rw [MissionPipeline.exec, MissionPipeline.abortImpl]
    split
    · cases hcurrent : s.currentElement_ with
      | none => exact hkeep
      | some e => exact noLeave_of_callFree hfree
    · exact hkeep
  | restartImpl => exact leaveFirst_exitAndReset hfree _
  | pauseImpl =>
    rw [MissionPipeline.exec, MissionPipeline.pauseImpl]
    split <;> exact hkeep
  | resumeImpl =>
    rw [MissionPipeline.exec, MissionPipeline.resumeImpl]
    split <;> exact hkeep
  | snapshot =>
    rw [MissionPipeline.exec, MissionPipeline.snapshot]
    split
    · exact noLeave_of_callFree (callFree_code.mpr hfree)
    · exact hpush _ (by simp)
  | examine element statusSnapshot =>
    rw [MissionPipeline.exec, MissionPipeline.examine]
    split <;> exact hpush _ (by simp)
  | lookUp element result =>
    rw [MissionPipeline.exec, MissionPipeline.lookUp]
    split <;> exact hpush _ (by simp)
  | applyFailed element => exact happly ..
  | applyFinished element => exact happly ..
  | applyNext element next => exact happly ..
  | _ => exact hkeep

/-! ## What the statements leave alone -/

/-- No statement of the scheduler begins or ends a hook. -/
theorem exec_hook (c : Code) : (s.exec c).hook = s.hook := by
  have happly (element : MissionElement) (status : PipelineStatus) (next : Option MissionElement) :
      (s.apply element status next).hook = s.hook := by
    rw [MissionPipeline.apply]
    split <;> rfl
  cases c with
  | readControl =>
    rw [MissionPipeline.exec]
    split <;> rfl
  | dispatchControl =>
    rw [MissionPipeline.exec, MissionPipeline.dispatchControl]
    repeat' split
    all_goals rfl
  | startImmediate =>
    rw [MissionPipeline.exec, MissionPipeline.startImmediate]
    repeat' split
    all_goals rfl
  | abortImpl =>
    rw [MissionPipeline.exec, MissionPipeline.abortImpl]
    split <;> rfl
  | pauseImpl =>
    rw [MissionPipeline.exec, MissionPipeline.pauseImpl]
    split <;> rfl
  | resumeImpl =>
    rw [MissionPipeline.exec, MissionPipeline.resumeImpl]
    split <;> rfl
  | snapshot =>
    rw [MissionPipeline.exec, MissionPipeline.snapshot]
    split <;> rfl
  | examine element statusSnapshot =>
    rw [MissionPipeline.exec, MissionPipeline.examine]
    split <;> rfl
  | lookUp element result =>
    rw [MissionPipeline.exec, MissionPipeline.lookUp]
    split <;> rfl
  | applyFailed element => exact happly ..
  | applyFinished element => exact happly ..
  | applyNext element next => exact happly ..
  | _ => rfl

/-- A statement of a call leaves the tick alone. -/
theorem execCall_tick (u : MissionThread) (rest : List CallStep) (c : CallStep) :
    (s.execCall u rest c).hook = s.hook ∧ (s.execCall u rest c).todo = s.todo := by
  cases c with
  | checkStart =>
    rw [MissionPipeline.execCall, MissionPipeline.checkStart]
    repeat' split
    all_goals exact ⟨rfl, rfl⟩
  | _ => exact ⟨rfl, rfl⟩

/-- **What a step does to the tick.** -/
inductive Ticks (s : MissionPipeline) : Label → MissionPipeline → Prop
  /-- nothing -/
  | keeps {a : Label} {t : MissionPipeline} (hook : t.hook = s.hook) (todo : t.todo = s.todo)
      (called : s.called a = []) (returns : ∀ result, a ≠ .returns result) : Ticks s a t
  | begins {a : Label} {t : MissionPipeline} (hook : t.hook = s.hook) (free : CallFree t.todo)
      (called : s.called a = []) (returns : ∀ result, a ≠ .returns result) : Ticks s a t
  | calls {v : Hook} {rest : List (Duty Code MissionElement)} (idle : s.hook = none)
      (todo : s.todo = .call v :: rest) : Ticks s .run { s with todo := rest, hook := some v }
  | runs {c : Code} {rest : List (Duty Code MissionElement)} (idle : s.hook = none)
      (todo : s.todo = .code c :: rest) : Ticks s .run ({ s with todo := rest }.exec c)
  | returns {result : TransitionResult} {t : MissionPipeline} (hook : t.hook = none)
      (todo : t.todo = s.todo) : Ticks s (.returns result) t

theorem ticks {a : Label} (hstep : s.step a = some t) : s.Ticks a t := by
  cases a with
  | call u c =>
    obtain ⟨-, rfl⟩ := guarded hstep
    exact .keeps rfl rfl rfl (by simp)
  | step u =>
    rw [MissionPipeline.step] at hstep
    split at hstep
    · cases hstep
    · obtain ⟨⟩ := hstep
      exact .keeps (execCall_tick ..).1 (execCall_tick ..).2 rfl (by simp)
  | processAsync =>
    obtain ⟨hidle, rfl⟩ := guarded hstep
    refine .begins rfl ?_ rfl (by simp)
    rw [MissionPipeline.push, hidle.2]
    simp [MissionPipeline.processAsync]
  | processSync =>
    obtain ⟨hidle, rfl⟩ := guarded hstep
    refine .begins rfl ?_ rfl (by simp)
    rw [MissionPipeline.push, hidle.2]
    simp [MissionPipeline.processSync]
  | run =>
    obtain ⟨hruns, hnext⟩ := Option.ite_none_right_eq_some.mp hstep
    rw [MissionPipeline.next] at hnext
    split at hnext
    · cases hnext
    · next v rest htodo =>
      obtain ⟨⟩ := hnext
      exact .calls hruns.1 htodo
    · next c rest htodo =>
      obtain ⟨⟩ := hnext
      exact .runs hruns.1 htodo
  | returns result =>
    obtain ⟨-, hreturns⟩ := Option.ite_none_right_eq_some.mp hstep
    rw [MissionPipeline.hookReturns] at hreturns
    split at hreturns
    · cases hreturns
    · obtain ⟨⟩ := hreturns
      exact .returns rfl rfl
    · obtain ⟨⟩ := hreturns
      exact .returns rfl rfl
  | _ =>
    obtain ⟨⟩ := hstep
    exact .keeps rfl rfl rfl (by simp)

/-! ## Who is inside -/

variable {v : Visited}

/-- With `q` entered: it is inside unless its `onEnter` still runs, no `onExit` is due behind the
hook that runs, and nothing has strayed. -/
structure Tracked (s : MissionPipeline) (v : Visited) (q : Option MissionElement) : Prop where
  owes : s.Owes q
  inside : ∀ e, q = some e → s.hook ≠ some (Hook.onEnter e) → v.inside e = true
  entering : ∀ e, s.hook = some (Hook.onEnter e) → q = some e
  order : LeaveFirst s.todo
  spent : s.hook.isSome → NoLeave s.todo
  stray : v.stray = []

/-- A hook that is due finds its element as it needs it. -/
theorem Tracked.call {h : Hook} {rest : List (Duty Code MissionElement)} {r : Option MissionElement}
    (ht : Tracked s v q) (hidle : s.hook = none) (htodo : s.todo = .call h :: rest)
    (howes : { s with todo := rest, hook := some h }.Owes r) (hmoves : Visit.Moves h q r) :
    Tracked { s with todo := rest, hook := some h } (v.call h) r := by
  have horder : NoLeave rest := by
    have horder := ht.order
    rwa [htodo] at horder
  have hinside (e : MissionElement) (he : q = some e) : v.inside e = true :=
    ht.inside e he (by rw [hidle]; simp)
  refine ⟨howes, fun e he hne => ?_, fun e he => ?_, horder.leaveFirst, fun _ => horder, ?_⟩
  · cases hmoves with
    | enter e' => exact absurd (congrArg (fun o => o.map Visit.enter) he) hne
    | use e' => exact hinside e he
    | leave e' => cases he
    | aside e' => cases he
  · cases hmoves with
    | enter e' =>
      obtain rfl : e' = e := Visit.enter.inj (Option.some.inj he)
      rfl
    | use e' => cases Option.some.inj he
    | leave e' => cases Option.some.inj he
    | aside e' => cases Option.some.inj he
  · cases hmoves with
    | use e' => exact (if_pos (hinside e' rfl)).trans ht.stray
    | leave e' => exact (if_pos (hinside e' rfl)).trans ht.stray
    | enter e' => exact ht.stray
    | aside e' => exact ht.stray

/-- A step that calls no hook and ends none. -/
theorem visit_quiet {a : Label} (hcalled : s.called a = [])
    (hreturns : ∀ result, a ≠ .returns result) : visit s (.does a) t v = v := by
  cases a with
  | run => rw [visit, hcalled]; rfl
  | returns result => exact absurd rfl (hreturns result)
  | _ => rfl

/-- **A step in which nothing throws** keeps track. -/
theorem Tracked.does (ht : Tracked s v q) {a : Label} (hstep : s.step a = some t) :
    ∃ r, Tracked t (visit s (.does a) t v) r := by
  obtain ⟨r, howes, hmoved⟩ := ht.owes.step hstep
  cases ticks hstep with
  | keeps hook todo called returns =>
    rw [called] at hmoved
    cases hmoved
    rw [visit_quiet called returns]
    refine ⟨q, howes, ?_, ?_, ?_, ?_, ht.stray⟩
    · rw [hook]
      exact ht.inside
    · rw [hook]
      exact ht.entering
    · rw [todo]
      exact ht.order
    · rw [hook, todo]
      exact ht.spent
  | begins hook free called returns =>
    rw [called] at hmoved
    cases hmoved
    rw [visit_quiet called returns]
    refine ⟨q, howes, ?_, ?_, (noLeave_of_callFree free).leaveFirst,
      fun _ => noLeave_of_callFree free, ht.stray⟩
    · rw [hook]
      exact ht.inside
    · rw [hook]
      exact ht.entering
  | @calls h rest idle todo =>
    have hcalled : s.called .run = [h] := by simp [called, todo, Duty.call?]
    have hvisit : visit s (.does .run) { s with todo := rest, hook := some h } v = v.call h := by
      rw [visit, hcalled]
      rfl
    rw [hcalled] at hmoved
    cases hmoved with
    | one hmoves =>
      rw [hvisit]
      exact ⟨r, ht.call idle todo howes hmoves⟩
  | @runs c rest idle todo =>
    have hcalled : s.called .run = [] := by simp [called, todo, Duty.call?]
    have hvisit : visit s (.does .run) ({ s with todo := rest }.exec c) v = v := by
      rw [visit, hcalled]
      rfl
    have hhook : ({ s with todo := rest }.exec c).hook = none := (exec_hook c).trans idle
    have hleads := ht.owes.leads
    have horder := ht.order
    rw [todo] at hleads horder
    rw [hcalled] at hmoved
    cases hmoved
    rw [hvisit]
    refine ⟨q, howes, fun e he _ => ht.inside e he (by rw [idle]; simp), fun e he => ?_, ?_,
      fun hsome => ?_, ht.stray⟩
    · rw [hhook] at he
      cases he
    · by_cases hc : c = .cancelStart
      · subst hc
        exact horder
      · exact leaveFirst_exec (s := { s with todo := rest }) (hleads.decided hc).2 c
    · rw [hhook] at hsome
      cases hsome
  | @returns result _ hook todo =>
    cases hmoved
    have hnone (h : Hook) : t.hook ≠ some h := by rw [hook]; simp
    refine ⟨q, howes, fun e he _ => ?_, fun e he => absurd he (hnone _), ?_, fun hsome => ?_, ?_⟩
    · by_cases hentering : s.hook = some (Hook.onEnter e)
      · rw [visit, hentering]
        exact Function.update_self ..
      · have hinside := ht.inside e he hentering
        rw [visit]
        cases hhook : s.hook with
        | none => exact hinside
        | some h =>
          cases h with
          | enter e' =>
            have heq := ht.entering e' hhook
            rw [he] at heq
            obtain ⟨⟩ := heq
            exact absurd hhook hentering
          | _ => exact hinside
    · rw [todo]
      exact ht.order
    · rw [hook] at hsome
      cases hsome
    · rw [visit]
      cases s.hook with
      | none => exact ht.stray
      | some h => cases h <;> exact ht.stray

/-- **A hook that throws** where the condition allows it leaves the entered element current. -/
theorem Tracked.throws (ht : Tracked s v q) (hcontained : s.Contained .throws)
    (hstep : s.hookThrows = some t) : Tracked t v q := by
  obtain ⟨⟨-, hsome⟩, ⟨⟩⟩ := Option.ite_none_right_eq_some.mp hstep
  have hhook (e : MissionElement) : s.hook ≠ some (Hook.onEnter e) := fun he => by
    simpa [he, Hook.isEnter] using hcontained.1
  have htodo (e : MissionElement) : Duty.call (Hook.onEnter e) ∉ s.todo := fun he => by
    simpa [Duty.call?, Hook.isEnter] using hcontained.2 _ he
  have hcurrent : q = s.currentElement_ :=
    eq_current_of_leads ht.owes.leads htodo (ht.spent hsome)
  refine ⟨⟨?_, ht.owes.consistent⟩, fun e he _ => ht.inside e he (hhook e), by simp, trivial,
    by simp, ht.stray⟩
  rw [hcurrent]
  exact .done

/-! ## Status and current element -/

theorem Consistent.apply (h : s.Consistent) (element : MissionElement) {status : PipelineStatus}
    {next : Option MissionElement} (hnext : next.isSome ↔ status = .executing ∨ status = .paused) :
    (s.apply element status next).Consistent := by
  rw [MissionPipeline.apply]
  split
  · exact hnext
  · exact h

/-- **Every section keeps status and current element consistent**, whatever is left to do. -/
theorem Consistent.exec (h : s.Consistent) (c : Code) : (s.exec c).Consistent := by
  cases c with
  | readControl =>
    rw [MissionPipeline.exec]
    split <;> exact h
  | dispatchControl =>
    rw [MissionPipeline.exec, MissionPipeline.dispatchControl]
    repeat' split
    all_goals exact h
  | resetImpl => simp [MissionPipeline.exec, MissionPipeline.resetImpl, Consistent, push]
  | restartImpl => simp [MissionPipeline.exec, MissionPipeline.restartImpl, Consistent, push]
  | startImmediate =>
    rw [MissionPipeline.exec, MissionPipeline.startImmediate]
    split
    · next hidle =>
      have hnone := h.none_of_idle hidle
      split <;> simp [Consistent, push, hnone]
    · exact h
  | abortImpl =>
    rw [MissionPipeline.exec, MissionPipeline.abortImpl]
    split
    · simp [Consistent, push]
    · exact h
  | pauseImpl =>
    rw [MissionPipeline.exec, MissionPipeline.pauseImpl]
    split
    · next hexec => simp [Consistent, h.mpr (.inl hexec)]
    · exact h
  | resumeImpl =>
    rw [MissionPipeline.exec, MissionPipeline.resumeImpl]
    split
    · next hpaused => simp [Consistent, h.mpr (.inr hpaused)]
    · exact h
  | snapshot =>
    rw [MissionPipeline.exec, MissionPipeline.snapshot]
    split <;> exact h
  | examine element statusSnapshot =>
    rw [MissionPipeline.exec, MissionPipeline.examine]
    split <;> exact h
  | lookUp element result =>
    rw [MissionPipeline.exec, MissionPipeline.lookUp]
    split <;> exact h
  | applyFailed element => exact h.apply element (by simp)
  | applyFinished element => exact h.apply element (by simp)
  | applyNext element next => exact h.apply element (by simp)
  | _ => exact h

theorem Consistent.execCall (h : s.Consistent) (u : MissionThread) (rest : List CallStep)
    (c : CallStep) : (s.execCall u rest c).Consistent := by
  cases c with
  | checkStart =>
    rw [MissionPipeline.execCall, MissionPipeline.checkStart]
    split
    · next hidle =>
      have hnone := h.none_of_idle hidle
      split
      · simp [Consistent, setCall, hnone]
      · exact h
    · exact h
  | _ => exact h

theorem Consistent.step (h : s.Consistent) {a : Label} (hstep : s.step a = some t) :
    t.Consistent := by
  cases a with
  | call u c =>
    obtain ⟨-, hsome⟩ := Option.ite_none_right_eq_some.mp hstep
    exact Option.some.inj hsome ▸ h
  | step u =>
    rw [MissionPipeline.step] at hstep
    split at hstep
    · cases hstep
    · exact Option.some.inj hstep ▸ h.execCall ..
  | processAsync =>
    obtain ⟨-, hsome⟩ := Option.ite_none_right_eq_some.mp hstep
    exact Option.some.inj hsome ▸ h
  | processSync =>
    obtain ⟨-, hsome⟩ := Option.ite_none_right_eq_some.mp hstep
    exact Option.some.inj hsome ▸ h
  | run =>
    obtain ⟨-, hnext⟩ := Option.ite_none_right_eq_some.mp hstep
    rw [MissionPipeline.next] at hnext
    split at hnext
    · cases hnext
    · exact Option.some.inj hnext ▸ h
    · next c rest htodo =>
      have hrest : { s with todo := rest }.Consistent := h
      exact Option.some.inj hnext ▸ hrest.exec c
  | returns result =>
    obtain ⟨-, hreturns⟩ := Option.ite_none_right_eq_some.mp hstep
    rw [MissionPipeline.hookReturns] at hreturns
    split at hreturns
    · cases hreturns
    · exact Option.some.inj hreturns ▸ h
    · exact Option.some.inj hreturns ▸ h
  | _ => exact Option.some.inj hstep ▸ h

/-! ## Every run -/

/-- **Status and current element are consistent in every state**, whatever throws. -/
theorem consistent_of_reachable {p : MissionPipeline × Visited} (h : visited.Reachable p) :
    p.1.Consistent := by
  refine h.invariant (I := fun p => p.1.Consistent) ⟨fun p hp => ?_, fun p a p' hp _ hstep => ?_⟩
  · have hp1 : p.1 = { name := p.1.name, graph := p.1.graph } := hp.1
    rw [hp1]
    simp [Consistent]
  · obtain ⟨ht, -⟩ := Machine.withHistory_step.mp hstep
    cases a with
    | does a => exact hp.step ht
    | throws =>
      obtain ⟨-, hsome⟩ := Option.ite_none_right_eq_some.mp ht
      exact Option.some.inj hsome ▸ hp

/-- **No tick calls `execute` or `onExit` on an element that is not inside**, and between ticks an
element is current exactly if the pipeline executes or pauses, in the runs in which no `onEnter`
throws and no hook behind which one is due. -/
theorem hooks_inside {p : MissionPipeline × Visited}
    (h : visited.ReachableUnder (fun p a => p.1.Contained a) p) :
    p.2.stray = [] ∧ (p.1.BetweenTicks →
      (p.1.currentElement_.isSome ↔ p.1.status_ = .executing ∨ p.1.status_ = .paused)) := by
  have hinv : ∃ q, Tracked p.1 p.2 q := by
    refine h.invariant (I := fun p => ∃ q, Tracked p.1 p.2 q)
      ⟨fun p hp => ?_, fun p a p' ⟨q, hq⟩ hG hstep => ?_⟩
    · have hp1 : p.1 = { name := p.1.name, graph := p.1.graph } := hp.1
      rw [hp1, hp.2]
      exact ⟨none, ⟨.done, by simp [Consistent]⟩, by simp, by simp, trivial, by simp, rfl⟩
    · obtain ⟨ht, hhistory⟩ := Machine.withHistory_step.mp hstep
      rw [← hhistory]
      cases a with
      | does a => exact hq.does ht
      | throws => exact ⟨q, hq.throws hG ht⟩
  obtain ⟨q, hq⟩ := hinv
  exact ⟨hq.stray, fun _ => hq.owes.consistent⟩

/-- The mission takes off, unless its first `onEnter` throws; the next tick executes it. -/
def started : List ThrowLabel :=
  [.does (.call (.other 0) .startPipeline), .does (.step (.other 0)), .does (.step (.other 0)),
    .does .processAsync, .does .run, .does .run, .does .run, .does .run]

def executed : List ThrowLabel :=
  [.does .processSync, .does .run, .does .run, .does .run]

set_option maxRecDepth 4000 in
/-- An `execute` that throws: the element is executed again in the next tick. -/
theorem hooks_inside_executed : ∃ p, visited.exec ({ graph := flight }, {}) (started ++
    .does (.returns .default) :: .does .run :: executed ++ .throws :: executed) = some p ∧
      p.1.hook = some (Hook.execute ⟨0, "takeoff"⟩) ∧ p.2.stray = [] ∧ (p.1.BetweenTicks →
        (p.1.currentElement_.isSome ↔ p.1.status_ = .executing ∨ p.1.status_ = .paused)) := by
  have hrun : (visited.exec ({ graph := flight }, {}) (started ++
      .does (.returns .default) :: .does .run :: executed ++ .throws :: executed)).any (fun p =>
        p.1.hook == some (Hook.execute ⟨0, "takeoff"⟩)) = true := by decide +kernel
  obtain ⟨p, hp, hhook⟩ := (Option.any_eq_true _ _).mp hrun
  have hallowed : visited.Allowed (fun p a => p.1.Contained a) ({ graph := flight }, {}) (started ++
      .does (.returns .default) :: .does .run :: executed ++ .throws :: executed) :=
    Machine.allowed_of_checks (g := fun p a => decide (p.1.Contained a))
      (fun _ _ => of_decide_eq_true) (by decide +kernel)
  have hinit : visited.init ({ graph := flight }, {}) := ⟨rfl, rfl⟩
  exact ⟨p, hp, eq_of_beq hhook, hooks_inside (.exec (.init hinit) hallowed hp)⟩

set_option maxRecDepth 4000 in
/-- The `onEnter` throws. -/
theorem consistent_of_reachable_throws : ∃ p,
    visited.exec ({ graph := flight }, {}) (started ++ [.throws]) = some p ∧ p.1.Consistent := by
  have hrun : (visited.exec ({ graph := flight }, {}) (started ++ [.throws])).isSome = true := by
    decide +kernel
  obtain ⟨p, hp⟩ := Option.isSome_iff_exists.mp hrun
  have hinit : visited.init ({ graph := flight }, {}) := ⟨rfl, rfl⟩
  exact ⟨p, hp, consistent_of_reachable (.exec (.init hinit) hp)⟩

set_option maxRecDepth 4000 in
/-- The `onEnter` throws: the next tick executes an element that was never entered. -/
theorem execute_without_enter : ¬ ∀ p, visited.Reachable p → p.2.stray = [] := by
  intro h
  have hrun : (visited.exec ({ graph := flight }, {}) (started ++ .throws :: executed)).any (fun p =>
      p.2.stray == [Hook.execute ⟨0, "takeoff"⟩]) = true := by decide +kernel
  obtain ⟨p, hp, hstray⟩ := (Option.any_eq_true _ _).mp hrun
  have hinit : visited.init ({ graph := flight }, {}) := ⟨rfl, rfl⟩
  have hnone := h p (.exec (.init hinit) hp)
  rw [eq_of_beq hstray] at hnone
  cases hnone

end MissionPipeline

end AxonVex
