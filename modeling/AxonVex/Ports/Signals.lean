import AxonVex.Machinery.Machine
import Mathlib.Data.Nat.Notation
import Mathlib.Logic.Function.Basic

/-!
# Ports/Signals — a datum and the flag that announces it

    writer    call ▸ validate ▸ store data_ ▸ raise the flag ▸ finish
    consumer  tests the flag, clears it and copies data_, in an order of its own

The port keeps its datum under a mutex and its flag in an atomic, so the store and the flag are two
steps of the writer, and other threads may come between them.  Writers are the same for both kinds
of input port; the consumer is a parameter, a partial step function on the port and its own program
counter.

A write is known by the number of stores up to its own: `storesAfter` keeps the list of them, and
`Holds` is what that list says about the port.
-/

namespace AxonVex

open Machinery

namespace Signals

variable {T W C A : Type*}

/-- The shared part of an input port; `flag` is `hasNewData_` or `wasUpdated_`. -/
structure Port (T : Type*) where
  data : T
  flag : Bool := false
  totalMessages : ℕ := 0
  validMessages : ℕ := 0
  invalidMessages : ℕ := 0

/-- Where a call of `writeData` or `update` stands. -/
inductive WritePc (T : Type*)
  | idle
  /-- before the validation -/
  | entered (d : T)
  /-- before the store -/
  | accepted (d : T)
  /-- before the flag is set -/
  | stored (d : T)
  /-- in the callback and the bridged ports -/
  | raised (d : T)
  deriving DecidableEq

/-- A step of such a call. -/
inductive WriteStep (T : Type*)
  | call (d : T)
  | validate
  | store
  | raise
  | finish

/-- `writeData(data)` and `update(data)`, step by step; `accepts` is the verdict of the validation
callback and the NaN check. -/
def write (accepts : T → Bool) (port : Port T) :
    WriteStep T → WritePc T → Option (Port T × WritePc T)
  | .call d, .idle => some ({ port with totalMessages := port.totalMessages + 1 }, .entered d)
  | .validate, .entered d =>
    if accepts d then some ({ port with validMessages := port.validMessages + 1 }, .accepted d)
    else some ({ port with invalidMessages := port.invalidMessages + 1 }, .idle)
  | .store, .accepted d => some ({ port with data := d }, .stored d)
  | .raise, .stored d => some ({ port with flag := true }, .raised d)
  | .finish, .raised _ => some (port, .idle)
  | _, _ => none

/-- A port, the calls of its writers, and its consumer. -/
structure State (T W C : Type*) where
  port : Port T
  writers : W → WritePc T
  consumer : C

/-- A step of a writer or of the consumer. -/
inductive Label (T W A : Type*)
  | write (w : W) (step : WriteStep T)
  | consume (a : A)

variable [DecidableEq W]

/-- The writers and the consumer of a port that begins with the datum `zero`. -/
def machine (accepts : T → Bool) (consume : A → Port T → C → Option (Port T × C)) (zero : T)
    (start : C) : Machine (State T W C) (Label T W A) where
  init s := s = { port := { data := zero }, writers := fun _ => .idle, consumer := start }
  step s
    | .write w step => (write accepts s.port step (s.writers w)).map fun r =>
      { s with port := r.1, writers := Function.update s.writers w r.2 }
    | .consume a => (consume a s.port s.consumer).map fun r =>
      { s with port := r.1, consumer := r.2 }

/-- What a step does. -/
inductive Steps (accepts : T → Bool) (consume : A → Port T → C → Option (Port T × C))
    (s : State T W C) : Label T W A → State T W C → Prop
  | call (w : W) (d : T) (hw : s.writers w = .idle) :
    Steps accepts consume s (.write w (.call d))
      { s with
        port := { s.port with totalMessages := s.port.totalMessages + 1 }
        writers := Function.update s.writers w (.entered d) }
  | accept (w : W) (d : T) (hw : s.writers w = .entered d) (hd : accepts d = true) :
    Steps accepts consume s (.write w .validate)
      { s with
        port := { s.port with validMessages := s.port.validMessages + 1 }
        writers := Function.update s.writers w (.accepted d) }
  | refuse (w : W) (d : T) (hw : s.writers w = .entered d) (hd : accepts d = false) :
    Steps accepts consume s (.write w .validate)
      { s with
        port := { s.port with invalidMessages := s.port.invalidMessages + 1 }
        writers := Function.update s.writers w .idle }
  | store (w : W) (d : T) (hw : s.writers w = .accepted d) :
    Steps accepts consume s (.write w .store)
      { s with
        port := { s.port with data := d }
        writers := Function.update s.writers w (.stored d) }
  | raise (w : W) (d : T) (hw : s.writers w = .stored d) :
    Steps accepts consume s (.write w .raise)
      { s with
        port := { s.port with flag := true }
        writers := Function.update s.writers w (.raised d) }
  | finish (w : W) (d : T) (hw : s.writers w = .raised d) :
    Steps accepts consume s (.write w .finish)
      { s with writers := Function.update s.writers w .idle }
  | consume (a : A) (port : Port T) (c : C) (hc : consume a s.port s.consumer = some (port, c)) :
    Steps accepts consume s (.consume a) { s with port := port, consumer := c }

variable {accepts : T → Bool} {consume : A → Port T → C → Option (Port T × C)} {zero : T} {start : C}
  {s t : State T W C} {a : Label T W A}

/-- **Every step is one of these.** -/
theorem steps (h : (machine accepts consume zero start).step s a = some t) :
    Steps accepts consume s a t := by
  cases a with
  | write w step =>
    obtain ⟨⟨port, pc⟩, hr, rfl⟩ := Option.map_eq_some_iff.mp h
    cases step with
    | call d =>
      cases hw : s.writers w with
      | idle =>
        rw [hw] at hr
        obtain ⟨⟩ := hr
        exact .call w d hw
      | _ =>
        rw [hw] at hr
        exact absurd hr (by simp [write])
    | validate =>
      cases hw : s.writers w with
      | entered d =>
        rw [hw, write] at hr
        split at hr
        next hd =>
          obtain ⟨⟩ := hr
          exact .accept w d hw hd
        next hd =>
          obtain ⟨⟩ := hr
          exact .refuse w d hw (by simpa using hd)
      | _ =>
        rw [hw] at hr
        exact absurd hr (by simp [write])
    | store =>
      cases hw : s.writers w with
      | accepted d =>
        rw [hw] at hr
        obtain ⟨⟩ := hr
        exact .store w d hw
      | _ =>
        rw [hw] at hr
        exact absurd hr (by simp [write])
    | raise =>
      cases hw : s.writers w with
      | stored d =>
        rw [hw] at hr
        obtain ⟨⟩ := hr
        exact .raise w d hw
      | _ =>
        rw [hw] at hr
        exact absurd hr (by simp [write])
    | finish =>
      cases hw : s.writers w with
      | raised d =>
        rw [hw] at hr
        obtain ⟨⟩ := hr
        exact .finish w d hw
      | _ =>
        rw [hw] at hr
        exact absurd hr (by simp [write])
  | consume a =>
    obtain ⟨⟨port, c⟩, hr, rfl⟩ := Option.map_eq_some_iff.mp h
    exact .consume a port c hr

/-! ## The writes -/

omit [DecidableEq W] in
/-- The store of a step, behind those before it. -/
def storesAfter (s : State T W C) (a : Label T W A) (stores : List T) : List T :=
  match a with
  | .write w .store =>
    match s.writers w with
    | .accepted d => stores ++ [d]
    | _ => stores
  | _ => stores

/-- The call has stored its datum and not yet set the flag. -/
def WritePc.pending : WritePc T → Bool
  | .stored _ => true
  | _ => false

theorem WritePc.pending_iff {pc : WritePc T} : pc.pending = true ↔ ∃ d, pc = .stored d := by
  cases pc <;> simp [WritePc.pending]

/-- Some write has stored its datum and not yet set the flag. -/
def State.Pending (s : State T W C) : Prop := ∃ w, (s.writers w).pending = true

theorem Steps.consumer_eq (hst : Steps accepts consume s a t) (ha : ∀ b, a ≠ .consume b) :
    t.consumer = s.consumer := by
  cases hst with
  | consume b _ _ _ => exact absurd rfl (ha b)
  | _ => rfl

/-- A step of one call leaves the others where they stand. -/
theorem Steps.writers_of_ne {v w : W} {step : WriteStep T}
    (hst : Steps accepts consume s (.write w step) t) (hvw : v ≠ w) :
    t.writers v = s.writers v := by
  cases hst with
  | _ => exact Function.update_of_ne hvw _ _

/-- A step stores nothing, or its flag is to be set. -/
theorem Steps.stores_cases (hst : Steps accepts consume s a t) (stores : List T) :
    storesAfter s a stores = stores ∨
      ∃ d, storesAfter s a stores = stores ++ [d] ∧ t.Pending := by
  cases hst with
  | store w d hw => exact .inr ⟨d, by simp [storesAfter, hw], w, by simp [WritePc.pending]⟩
  | _ => exact .inl rfl

/-- A consumer copies the datum, and clears the flag. -/
def OnlyClears (consume : A → Port T → C → Option (Port T × C)) : Prop :=
  ∀ a port c r, consume a port c = some r →
    r.1.data = port.data ∧ (r.1.flag = true → port.flag = true)

/-- What the stores say about the port: the last one is its datum, each was accepted, and without
one no flag is set or about to be. -/
structure Holds (accepts : T → Bool) (zero : T) (s : State T W C) (stores : List T) : Prop where
  data : s.port.data = stores.getLast?.getD zero
  accepted : ∀ d ∈ stores, accepts d = true
  accepting (w : W) (d : T) : s.writers w = .accepted d → accepts d = true
  flag : s.port.flag = true → stores ≠ []
  pending (w : W) : (s.writers w).pending = true → stores ≠ []

variable {stores : List T}

/-- A step of a writer that stores nothing. -/
theorem Holds.update {port : Port T} {c : C} {w : W} {pc : WritePc T}
    (h : Holds accepts zero s stores) (hdata : port.data = s.port.data)
    (hflag : port.flag = true → s.port.flag = true ∨ (s.writers w).pending = true)
    (haccepting : ∀ d, pc = .accepted d → accepts d = true) (hpc : pc.pending = false) :
    Holds accepts zero ⟨port, Function.update s.writers w pc, c⟩ stores where
  data := hdata.trans h.data
  accepted := h.accepted
  accepting v d hv := by
    by_cases hvw : v = w
    · subst hvw
      exact haccepting d (by simpa using hv)
    · exact h.accepting v d (by simpa [hvw] using hv)
  flag hf := (hflag hf).elim h.flag (h.pending w)
  pending v hv := by
    by_cases hvw : v = w
    · subst hvw
      simp [hpc] at hv
    · exact h.pending v (by simpa [hvw] using hv)

/-- **The stores say what the port holds.** -/
theorem Holds.step (hconsume : OnlyClears consume) (h : Holds accepts zero s stores)
    (hst : Steps accepts consume s a t) : Holds accepts zero t (storesAfter s a stores) := by
  cases hst with
  | accept w d hw hd =>
    refine h.update rfl .inl (fun e he => ?_) rfl
    obtain rfl := WritePc.accepted.inj he
    exact hd
  | store w d hw =>
    have hstores : storesAfter s (.write (A := A) w .store) stores = stores ++ [d] := by
      simp [storesAfter, hw]
    rw [hstores]
    refine ⟨by simp, ?_, fun v e hv => ?_, by simp, by simp⟩
    · intro e he
      rcases List.mem_append.mp he with he | he
      · exact h.accepted e he
      · exact List.mem_singleton.mp he ▸ h.accepting w d hw
    · by_cases hvw : v = w
      · subst hvw
        simp at hv
      · exact h.accepting v e (by simpa [hvw] using hv)
  | raise w d hw => exact h.update rfl (fun _ => .inr (by rw [hw]; rfl)) (by simp) rfl
  | consume a port c hc =>
    obtain ⟨hdata, hflag⟩ := hconsume a s.port s.consumer (port, c) hc
    exact ⟨hdata.trans h.data, h.accepted, h.accepting, fun hf => h.flag (hflag hf), h.pending⟩
  | _ => exact h.update rfl .inl (by simp) rfl

omit [DecidableEq W] in
theorem holds_init :
    Holds accepts zero (⟨{ data := zero }, fun _ => .idle, start⟩ : State T W C) [] := by
  refine ⟨rfl, ?_, ?_, ?_, ?_⟩ <;> simp [WritePc.pending]

/-- **A write that is stored stays announced**: some flag set is to come, or the flag is set, unless
the consumer has cleared it. -/
theorem announced_step (hst : Steps accepts consume s a t) (ha : ∀ b, a ≠ .consume b)
    (h : s.Pending ∨ s.port.flag = true) : t.Pending ∨ t.port.flag = true := by
  have hother {port : Port T} {c : C} {w : W} {pc : WritePc T}
      (hw : (s.writers w).pending = false) (hflag : s.port.flag = true → port.flag = true) :
      State.Pending ⟨port, Function.update s.writers w pc, c⟩ ∨ port.flag = true := by
    rcases h with ⟨v, hv⟩ | hf
    · have hvw : v ≠ w := by
        rintro rfl
        rw [hw] at hv
        exact Bool.noConfusion hv
      exact .inl ⟨v, by simpa [hvw] using hv⟩
    · exact .inr (hflag hf)
  cases hst with
  | call w d hw => exact hother (by rw [hw]; rfl) id
  | accept w d hw hd => exact hother (by rw [hw]; rfl) id
  | refuse w d hw hd => exact hother (by rw [hw]; rfl) id
  | store w d hw => exact .inl ⟨w, by simp [WritePc.pending]⟩
  | raise w d hw => exact .inr rfl
  | finish w d hw => exact hother (by rw [hw]; rfl) id
  | consume a port c hc => exact absurd rfl (ha a)

/-! ## The statistics -/

omit [DecidableEq W]

/-- The call has counted its message, and its verdict is still out. -/
def WritePc.checking : WritePc T → Bool
  | .entered _ => true
  | _ => false

/-- Every message of the port is valid, invalid or still to be checked by one of the calls. -/
def State.Counted (s : State T W C) : Prop :=
  ∃ calls : List W, calls.Nodup ∧ (∀ w, w ∈ calls ↔ (s.writers w).checking = true) ∧
    s.port.totalMessages = s.port.validMessages + s.port.invalidMessages + calls.length

/-- **Once no call is under way, every message is valid or invalid.** -/
theorem State.Counted.of_idle (h : s.Counted) (hidle : ∀ w, s.writers w = .idle) :
    s.port.totalMessages = s.port.validMessages + s.port.invalidMessages := by
  obtain ⟨calls, -, hmem, htotal⟩ := h
  have hnil : calls = [] := by
    refine List.eq_nil_iff_forall_not_mem.mpr fun w hw => ?_
    have hcheck := (hmem w).mp hw
    rw [hidle w] at hcheck
    exact absurd hcheck (by simp [WritePc.checking])
  rw [htotal, hnil]
  rfl

variable [DecidableEq W]

/-- A step that has no message counted or checked. -/
theorem State.Counted.update {port : Port T} {c : C} {w : W} {pc : WritePc T} (h : s.Counted)
    (htotal : port.totalMessages = s.port.totalMessages)
    (hvalid : port.validMessages = s.port.validMessages)
    (hinvalid : port.invalidMessages = s.port.invalidMessages)
    (hpc : pc.checking = (s.writers w).checking) :
    State.Counted ⟨port, Function.update s.writers w pc, c⟩ := by
  obtain ⟨calls, hnodup, hmem, hcount⟩ := h
  refine ⟨calls, hnodup, fun v => ?_, by rw [htotal, hvalid, hinvalid, hcount]⟩
  rw [hmem]
  by_cases hvw : v = w
  · subst hvw
    simp [hpc]
  · simp [hvw]

/-- A verdict: the message of the call is no longer to be checked. -/
theorem State.Counted.check {port : Port T} {c : C} {w : W} {pc : WritePc T} (h : s.Counted)
    (htotal : port.totalMessages = s.port.totalMessages)
    (hcount : port.validMessages + port.invalidMessages =
      s.port.validMessages + s.port.invalidMessages + 1)
    (hw : (s.writers w).checking = true) (hpc : pc.checking = false) :
    State.Counted ⟨port, Function.update s.writers w pc, c⟩ := by
  obtain ⟨calls, hnodup, hmem, hsum⟩ := h
  have hin : w ∈ calls := (hmem w).mpr hw
  refine ⟨calls.erase w, hnodup.erase w, fun v => ?_, ?_⟩
  · rw [hnodup.mem_erase_iff, hmem]
    by_cases hvw : v = w
    · subst hvw
      simp [hpc]
    · simp [hvw]
  · have hpos : 0 < calls.length := List.length_pos_of_mem hin
    rw [List.length_erase_of_mem hin]
    change port.totalMessages = port.validMessages + port.invalidMessages + (calls.length - 1)
    omega

/-- **Every step of a call keeps the account.** -/
theorem State.Counted.step {w : W} {step : WriteStep T} (h : s.Counted)
    (hst : Steps accepts consume s (.write w step) t) : t.Counted := by
  cases hst with
  | call _ d hw =>
    obtain ⟨calls, hnodup, hmem, hsum⟩ := h
    have hnot : w ∉ calls := fun hin => by
      have hcheck := (hmem w).mp hin
      rw [hw] at hcheck
      exact absurd hcheck (by simp [WritePc.checking])
    refine ⟨w :: calls, List.nodup_cons.mpr ⟨hnot, hnodup⟩, fun v => ?_, ?_⟩
    · rw [List.mem_cons, hmem]
      by_cases hvw : v = w
      · subst hvw
        simp [WritePc.checking]
      · simp [hvw]
    · change s.port.totalMessages + 1 = s.port.validMessages + s.port.invalidMessages +
        (calls.length + 1)
      omega
  | accept _ d hw hd =>
    refine h.check rfl ?_ (by rw [hw]; rfl) rfl
    change s.port.validMessages + 1 + s.port.invalidMessages = _
    omega
  | refuse _ d hw hd => exact h.check rfl rfl (by rw [hw]; rfl) rfl
  | store _ d hw => exact h.update rfl rfl rfl (by rw [hw]; rfl)
  | raise _ d hw => exact h.update rfl rfl rfl (by rw [hw]; rfl)
  | finish _ d hw => exact h.update rfl rfl rfl (by rw [hw]; rfl)

end Signals

end AxonVex
