import AxonVex.Core.Ports
import AxonVex.Machinery.Machine
import AxonVex.Ports.Bridges

/-!
# Units/Control — the Reset and Disable ports of a processing unit

    tick:  Reset pending? ▸ reset(), all ports, counter, INITIALIZED
           Disable pending? ▸ isDisabled_, DISABLED or RUNNING
           not disabled? ▸ processAsync()

A reset clears all ports of the unit, the Disable port among them, before the Disable message of the
same tick is looked at, and it sets the state without a look at `isDisabled_`.  So a tick keeps its
promises exactly if a reset finds the unit enabled and no Disable message pending
(`controls_take_effect`).
-/

namespace AxonVex

open Machinery

/-- `reset()`. -/
def InputPort.reset {P T : Type*} (port : InputPort P T) (empty : T) : InputPort P T :=
  { port with data := empty, hasNewData := false }

namespace Units

variable {P I O D E : Type*}

/-- What the unit's own code reaches: its data, its input ports, and the data of its output ports. -/
structure Body (P I O D E : Type*) where
  own : E
  inputs : I → InputPort P D
  outputs : O → D

/-- The unit's own code, which throws at `false`, and the default values of its ports. -/
structure UnitCode (P I O D E : Type*) where
  reset : Body P I O D E → Body P I O D E × Bool
  processAsync : Body P I O D E → Body P I O D E × Bool
  emptyInput : I → D
  emptyOutput : O → D

/-- A processing unit; the fields that begin with a value have it from the constructor. -/
structure UnitState (P I O D E : Type*) where
  body : Body P I O D E
  resetPort : InputPort P ℤ := { data := 0 }
  disablePort : InputPort P ℤ := { data := 0 }
  isDisabled : Bool := false
  state : ExecutionState := .uninitialized
  downSamplingFactor : ℤ := 1
  intraSampleCounter : ℤ := 0

namespace UnitCode

variable (c : UnitCode P I O D E)

/-- The part of `resetPorts()` that is about the ports of the unit's own code. -/
def clear (body : Body P I O D E) : Body P I O D E where
  own := body.own
  inputs i := (body.inputs i).reset (c.emptyInput i)
  outputs := c.emptyOutput

/-- `processAsync()`, unless the unit is disabled. -/
def run (isDisabled : Bool) (body : Body P I O D E) : Body P I O D E :=
  if isDisabled then body else (c.processAsync body).1

end UnitCode

namespace UnitState

variable (c : UnitCode P I O D E) (u : UnitState P I O D E)

/-- `setDisabled(disabled)`. -/
def setDisabled (disabled : Bool) : UnitState P I O D E :=
  { u with
    isDisabled := disabled
    state := if disabled then .disabled else .running }

/-- `resetPorts()`. -/
def resetPorts : UnitState P I O D E :=
  { u with
    body := c.clear u.body
    resetPort := u.resetPort.reset 0
    disablePort := u.disablePort.reset 0 }

/-- `resetBlock()`. -/
def resetBlock : UnitState P I O D E × Bool :=
  let r := c.reset u.body
  if r.2 then
    ({ resetPorts c { u with body := r.1 } with
      intraSampleCounter := 0
      state := .initialized }, true)
  else ({ u with body := r.1 }, false)

/-- The Reset port in `processAsyncBase()`; `read()` clears the flag and leaves the datum. -/
def handleReset : UnitState P I O D E × Bool :=
  if u.resetPort.hasNewData then
    let v := { u with resetPort := { u.resetPort with hasNewData := false } }
    if u.resetPort.data ≠ 0 then resetBlock c v else (v, true)
  else (u, true)

/-- The Disable port. -/
def handleDisable : UnitState P I O D E :=
  if u.disablePort.hasNewData then
    { u with disablePort := { u.disablePort with hasNewData := false } }.setDisabled
      (u.disablePort.data ≠ 0)
  else u

/-- `processAsyncBase()`. -/
def processAsyncBase : UnitState P I O D E :=
  let r := handleReset c u
  let v := r.1.handleDisable
  if r.2 then { v with body := c.run v.isDisabled v.body } else r.1

/-- A Reset message that is not zero is pending. -/
def ResetPending : Prop := u.resetPort.hasNewData = true ∧ u.resetPort.data ≠ 0

/-- A Disable message is pending, and it is not zero. -/
def DisablePending : Prop := u.disablePort.hasNewData = true ∧ u.disablePort.data ≠ 0

variable {c u}

/-- A tick with a reset: nothing is left of a Disable message. -/
theorem processAsyncBase_of_reset (h : u.ResetPending) (hreset : (c.reset u.body).2 = true) :
    u.processAsyncBase c =
      { u with
        body := c.run u.isDisabled (c.clear (c.reset u.body).1)
        resetPort := u.resetPort.reset 0
        disablePort := u.disablePort.reset 0
        intraSampleCounter := 0
        state := .initialized } := by
  simp [processAsyncBase, handleReset, resetBlock, resetPorts, handleDisable, InputPort.reset,
    h.1, h.2, hreset]

/-- A tick whose `reset()` throws. -/
theorem processAsyncBase_of_throw (h : u.ResetPending) (hreset : (c.reset u.body).2 = false) :
    u.processAsyncBase c =
      { u with
        body := (c.reset u.body).1
        resetPort := { u.resetPort with hasNewData := false } } := by
  simp [processAsyncBase, handleReset, resetBlock, h.1, h.2, hreset]

/-- A tick with no reset. -/
theorem processAsyncBase_of_not_reset (h : ¬ u.ResetPending) :
    u.processAsyncBase c =
      { u.handleDisable with
        body := c.run u.handleDisable.isDisabled u.body
        resetPort := { u.resetPort with hasNewData := false } } := by
  have hreset : handleReset c u =
      ({ u with resetPort := { u.resetPort with hasNewData := false } }, true) := by
    rw [handleReset]
    split
    next hnew =>
      have hzero : u.resetPort.data = 0 := by
        by_contra hdata
        exact h ⟨hnew, hdata⟩
      simp [hzero]
    next hnew =>
      have hflag : u.resetPort.hasNewData = false := by simpa using hnew
      rw [← hflag]
  rw [processAsyncBase, hreset]
  by_cases hnew : u.disablePort.hasNewData = true
  · simp [handleDisable, setDisabled, hnew]
  · simp [handleDisable, hnew]

theorem isDisabled_handleDisable (h : u.disablePort.hasNewData = true) :
    u.handleDisable.isDisabled = decide (u.disablePort.data ≠ 0) := by
  rw [handleDisable, if_pos h]
  rfl

end UnitState

/-! ## Ticks -/

inductive Label (P I O D E : Type*)
  | writeReset (msg : ℤ)
  | writeDisable (msg : ℤ)
  /-- what happens between two ticks to the unit's other ports, its data and its counter -/
  | between (body : Body P I O D E) (intraSampleCounter : ℤ)
  | tick

/-- A unit, with the state before and after each of its ticks. -/
def ticks (c : UnitCode P I O D E) (start : UnitState P I O D E) :
    Machine (UnitState P I O D E × List (UnitState P I O D E × UnitState P I O D E))
      (Label P I O D E) where
  init q := q = (start, [])
  step
    | (u, past), .writeReset msg => some ({ u with resetPort := u.resetPort.receive true msg }, past)
    | (u, past), .writeDisable msg =>
      some ({ u with disablePort := u.disablePort.receive true msg }, past)
    | (u, past), .between body counter =>
      some ({ u with body := body, intraSampleCounter := counter }, past)
    | (u, past), .tick => some (u.processAsyncBase c, past ++ [(u, u.processAsyncBase c)])

/-- The unit has been reset before its own code ran. -/
structure IsReset (c : UnitCode P I O D E) (u t : UnitState P I O D E) : Prop where
  body : t.body = c.run t.isDisabled (c.clear (c.reset u.body).1)
  resetPort : t.resetPort = u.resetPort.reset 0
  disablePort : t.disablePort = u.disablePort.reset 0
  counter : t.intraSampleCounter = 0

/-- The messages that were pending before the tick have had their effect after it. -/
structure TakesEffect (c : UnitCode P I O D E) (u t : UnitState P I O D E) : Prop where
  reset : u.ResetPending → IsReset c u t
  disable : u.disablePort.hasNewData = true → t.isDisabled = decide (u.disablePort.data ≠ 0)

/-- The flag and the state agree. -/
def Agree (u : UnitState P I O D E) : Prop := u.isDisabled = true ↔ u.state = .disabled

variable {c : UnitCode P I O D E} {u t : UnitState P I O D E}

theorem Agree.handleDisable (h : Agree u) : Agree u.handleDisable := by
  rw [UnitState.handleDisable]
  split
  next => by_cases hdata : u.disablePort.data = 0 <;> simp [Agree, UnitState.setDisabled, hdata]
  next => exact h

/-- A reset finds its `reset()` returning, the unit enabled, and no Disable message pending. -/
def Clear (c : UnitCode P I O D E) (u : UnitState P I O D E) : Prop :=
  u.ResetPending → (c.reset u.body).2 = true ∧ u.isDisabled = false ∧ ¬ u.DisablePending

/-- **A clear tick keeps its promises.** -/
theorem Clear.tick (h : Clear c u) (hagree : Agree u) :
    TakesEffect c u (u.processAsyncBase c) ∧ Agree (u.processAsyncBase c) := by
  by_cases hreset : u.ResetPending
  · obtain ⟨hreturns, henabled, hdisable⟩ := h hreset
    rw [UnitState.processAsyncBase_of_reset hreset hreturns]
    refine ⟨⟨fun _ => ⟨rfl, rfl, rfl, rfl⟩, fun hnew => ?_⟩, by simp [Agree, henabled]⟩
    have hzero : u.disablePort.data = 0 := by
      by_contra hdata
      exact hdisable ⟨hnew, hdata⟩
    simp [henabled, hzero]
  · rw [UnitState.processAsyncBase_of_not_reset hreset]
    exact ⟨⟨fun hpending => absurd hpending hreset, UnitState.isDisabled_handleDisable⟩,
      hagree.handleDisable⟩

/-- **And only a clear one does.** -/
theorem clear_of_tick (heffect : TakesEffect c u (u.processAsyncBase c))
    (hagree : Agree (u.processAsyncBase c)) : Clear c u := by
  intro hreset
  have hreturns : (c.reset u.body).2 = true := by
    by_contra hthrows
    have hport := (heffect.reset hreset).resetPort
    rw [UnitState.processAsyncBase_of_throw hreset (by simpa using hthrows)] at hport
    exact hreset.2 (congrArg InputPort.data hport)
  have hdisable := heffect.disable
  rw [UnitState.processAsyncBase_of_reset hreset hreturns] at hagree hdisable
  have henabled : u.isDisabled = false := by simpa [Agree] using hagree
  refine ⟨hreturns, henabled, fun hpending => ?_⟩
  have hdropped := hdisable hpending.1
  rw [henabled] at hdropped
  exact absurd hdropped.symm (by simp [hpending.2])

/-! ## Runs -/

/-- Every tick has had its effect, and the flag and the state agree. -/
structure Controlled (c : UnitCode P I O D E)
    (q : UnitState P I O D E × List (UnitState P I O D E × UnitState P I O D E)) : Prop where
  ticks (p : UnitState P I O D E × UnitState P I O D E) : p ∈ q.2 → TakesEffect c p.1 p.2
  agree : Agree q.1

/-- A step is no tick, or a clear one. -/
def TickIsClear (c : UnitCode P I O D E)
    (q : UnitState P I O D E × List (UnitState P I O D E × UnitState P I O D E))
    (a : Label P I O D E) : Prop := a = .tick → Clear c q.1

/-- A unit after its construction, or after `initialize()`. -/
def fresh (body : Body P I O D E) (initialized : Bool) : UnitState P I O D E where
  body := body
  state := if initialized then .initialized else .uninitialized

/-- **Every pending message takes effect, and the flag agrees with the state, exactly if each reset
finds the unit enabled and no Disable message pending.** -/
theorem controls_take_effect (c : UnitCode P I O D E) (body : Body P I O D E) (initialized : Bool)
    (labels : List (Label P I O D E)) :
    (ticks c (fresh body initialized)).Always (Controlled c) (fresh body initialized, []) labels ↔
      (ticks c (fresh body initialized)).Allowed (TickIsClear c) (fresh body initialized, [])
        labels := by
  refine Machine.always_iff_allowed_of_invariant (I := Controlled c) ?_ (fun _ h => h) ?_ ?_ labels
  · rintro ⟨u, past⟩ a ⟨t, past'⟩ h hclear hstep
    cases a with
    | tick =>
      obtain ⟨rfl, rfl⟩ := Prod.mk.inj (Option.some.inj hstep)
      obtain ⟨heffect, hagree⟩ := (hclear rfl).tick h.agree
      refine ⟨fun p hp => ?_, hagree⟩
      rcases List.mem_append.mp hp with hp | hp
      · exact h.ticks p hp
      · obtain rfl := List.mem_singleton.mp hp
        exact heffect
    | _ =>
      obtain ⟨rfl, rfl⟩ := Prod.mk.inj (Option.some.inj hstep)
      exact ⟨h.ticks, h.agree⟩
  · rintro ⟨u, past⟩ a ⟨t, past'⟩ h hstep ht rfl
    obtain ⟨rfl, rfl⟩ := Prod.mk.inj (Option.some.inj hstep)
    exact clear_of_tick (ht.ticks (u, u.processAsyncBase c) (by simp)) ht.agree
  · refine ⟨fun p hp => absurd hp (by simp), ?_⟩
    cases initialized <;> simp [fresh, Agree]

/-- A unit with no ports and no code of its own. -/
def plain : UnitCode Empty Empty Empty ℤ Unit where
  reset body := (body, true)
  processAsync body := (body, true)
  emptyInput := fun _ => 0
  emptyOutput := fun _ => 0

/-- A Reset message and a Disable message before one tick: the unit stays enabled.  A Disable message
and a Reset message before two ticks: the unit is disabled, and its state is not. -/
theorem reset_drops_disable :
    ¬ (ticks plain (fresh ⟨(), Empty.elim, Empty.elim⟩ true)).Always (Controlled plain)
        (fresh ⟨(), Empty.elim, Empty.elim⟩ true, [])
        [.writeReset 1, .writeDisable 1, .tick] ∧
      ¬ (ticks plain (fresh ⟨(), Empty.elim, Empty.elim⟩ true)).Always (Controlled plain)
        (fresh ⟨(), Empty.elim, Empty.elim⟩ true, [])
        [.writeDisable 1, .tick, .writeReset 1, .tick] := by
  constructor
  · intro h
    have hend := (h.exec rfl).ticks (_, _) (List.mem_singleton.mpr rfl)
    have hdisabled := hend.disable (by decide)
    exact absurd hdisabled (by decide)
  · intro h
    have hend := (h.exec rfl).agree
    exact absurd (hend.mp (by decide)) (by decide)

end Units

end AxonVex
