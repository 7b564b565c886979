import AxonVex.Machinery.Descent
import AxonVex.Machinery.Machine

/-!
# Ports/Bridges — a datum that is passed on along bridges

A write to an input port that accepts the datum writes it to every bridged port in turn, on the same
stack and without a look at the ports it has already been to.  `addBridgedPort` refuses a null
pointer and a port that is already bridged, and no cycle: a write ends exactly if it reaches none
(`writeData_terminates`), and every write does if no call has closed one.

`InputPort<T>::writeData` and `AsyncInputPort<T>::update` are the same function, up to the name of
the flag.
-/

namespace AxonVex

open Machinery Relation

/-- `InputPort<T>`, and `AsyncInputPort<T>` with `wasUpdated_` for the flag; a null list of bridged
ports is an empty one. -/
structure InputPort (P T : Type*) where
  data : T
  hasNewData : Bool := false
  totalMessages : ℕ := 0
  validMessages : ℕ := 0
  invalidMessages : ℕ := 0
  bridgedPorts : List P := []

namespace InputPort

variable {P T : Type*} (port : InputPort P T)

/-- What a write does to the port itself. -/
def receive (accepted : Bool) (d : T) : InputPort P T :=
  if accepted then
    { port with
      data := d
      hasNewData := true
      totalMessages := port.totalMessages + 1
      validMessages := port.validMessages + 1 }
  else
    { port with
      totalMessages := port.totalMessages + 1
      invalidMessages := port.invalidMessages + 1 }

@[simp] theorem bridgedPorts_receive (accepted : Bool) (d : T) :
    (port.receive accepted d).bridgedPorts = port.bridgedPorts := by
  cases accepted <;> rfl

variable [DecidableEq P]

/-- `addBridgedPort(bridgedPort)`. -/
def addBridgedPort : Option P → InputPort P T
  | none => port
  | some q => if q ∈ port.bridgedPorts then port
    else { port with bridgedPorts := port.bridgedPorts ++ [q] }

/-- `removeBridgedPort(bridgedPort)`; a null pointer is never found. -/
def removeBridgedPort : Option P → InputPort P T
  | none => port
  | some q => { port with bridgedPorts := port.bridgedPorts.erase q }

variable {port} {q r : P} {bridged : Option P}

theorem mem_addBridgedPort :
    r ∈ (port.addBridgedPort bridged).bridgedPorts ↔ r ∈ port.bridgedPorts ∨ some r = bridged := by
  cases bridged with
  | none => simp [addBridgedPort]
  | some q =>
    rw [addBridgedPort, Option.some_inj]
    split
    next hq => exact ⟨.inl, fun h => h.elim id fun heq => heq ▸ hq⟩
    next hq => simp

theorem mem_of_mem_removeBridgedPort (h : r ∈ (port.removeBridgedPort bridged).bridgedPorts) :
    r ∈ port.bridgedPorts := by
  cases bridged with
  | none => exact h
  | some q => exact List.mem_of_mem_erase h

end InputPort

namespace Bridges

variable {P T : Type*} [DecidableEq P] {s t : P → InputPort P T} {p q : P} {d : T} {depth : ℕ}
  {accepts : P → T → Bool}

/-! ## Writes -/

/-- `writeData(data)` and `update(data)` with room for `depth` nested calls, `none` where it does
not suffice; `accepts` is the verdict of the validation callback and the NaN check. -/
def writeData (accepts : P → T → Bool) :
    ℕ → (P → InputPort P T) → P → T → Option (P → InputPort P T)
  | 0, _, _, _ => none
  | depth + 1, s, p, d =>
    let stored := Function.update s p ((s p).receive (accepts p d) d)
    if accepts p d then
      (s p).bridgedPorts.foldlM (fun t q => writeData accepts depth t q d) stored
    else some stored

/-- The write returns. -/
def Terminates (accepts : P → T → Bool) (s : P → InputPort P T) (p : P) (d : T) : Prop :=
  ∃ depth, (writeData accepts depth s p d).isSome

/-- The ports that a port writes the datum to. -/
def forwards (accepts : P → T → Bool) (d : T) (s : P → InputPort P T) (p : P) : List P :=
  if accepts p d then (s p).bridgedPorts else []

theorem bridgedPorts_stored (accepted : Bool) (q : P) :
    (Function.update s p ((s p).receive accepted d) q).bridgedPorts = (s q).bridgedPorts := by
  by_cases hq : q = p
  · subst hq
    rw [Function.update_self, InputPort.bridgedPorts_receive]
  · rw [Function.update_of_ne hq]

/-- Writes leave the bridges alone. -/
theorem bridgedPorts_writeData (h : writeData accepts depth s p d = some t) (q : P) :
    (t q).bridgedPorts = (s q).bridgedPorts := by
  induction depth generalizing s p t with
  | zero => exact absurd h (by simp [writeData])
  | succ depth ih =>
    rw [writeData] at h
    split at h
    · have hrest (ps : List P) (u : P → InputPort P T)
          (hu : ps.foldlM (fun t q => writeData accepts depth t q d) u = some t) :
          (t q).bridgedPorts = (u q).bridgedPorts := by
        induction ps generalizing u with
        | nil => rw [← Option.some.inj hu]
        | cons r ps ihps =>
          rw [List.foldlM_cons] at hu
          obtain ⟨v, hv, hu⟩ := Option.bind_eq_some_iff.mp hu
          rw [ihps v hu, ih hv]
      rw [hrest _ _ h, bridgedPorts_stored]
    · rw [← Option.some.inj h, bridgedPorts_stored]

/-- **A write returns as the calls along the bridges do.** -/
theorem isSome_writeData :
    (writeData accepts depth s p d).isSome ↔ Ends (forwards accepts d s) depth p := by
  induction depth generalizing s p with
  | zero => exact ⟨fun h => absurd h (by simp [writeData]), fun h => h.elim⟩
  | succ depth ih =>
    rw [writeData, Ends, forwards]
    cases hp : accepts p d with
    | false => simp
    | true =>
      simp only [if_true]
      have hrest (ps : List P) (u : P → InputPort P T)
          (hu : ∀ q, (u q).bridgedPorts = (s q).bridgedPorts) :
          (ps.foldlM (fun t q => writeData accepts depth t q d) u).isSome ↔
            ∀ q ∈ ps, Ends (forwards accepts d s) depth q := by
        induction ps generalizing u with
        | nil => simp
        | cons r ps ihps =>
          have hforwards : forwards accepts d u = forwards accepts d s := by
            funext q
            rw [forwards, forwards, hu]
          rw [List.foldlM_cons, List.forall_mem_cons, ← hforwards, ← ih]
          cases hr : writeData accepts depth u r d with
          | none => simp
          | some v =>
            have hv (q : P) : (v q).bridgedPorts = (s q).bridgedPorts :=
              (bridgedPorts_writeData hr q).trans (hu q)
            rw [hforwards, ← ihps v hv]
            simp
      exact hrest _ _ fun q => bridgedPorts_stored true q

/-! ## Every bridge graph -/

/-- A call that changes the bridges of a port. -/
inductive Call (P : Type*)
  | addBridgedPort (port : P) (bridgedPort : Option P)
  | removeBridgedPort (port : P) (bridgedPort : Option P)

/-- What a call leaves behind. -/
def call (s : P → InputPort P T) : Call P → P → InputPort P T
  | .addBridgedPort p bridged => Function.update s p ((s p).addBridgedPort bridged)
  | .removeBridgedPort p bridged => Function.update s p ((s p).removeBridgedPort bridged)

/-- Ports that begin without bridges, and the calls that change them. -/
def bridging (P T : Type*) [DecidableEq P] : Machine (P → InputPort P T) (Call P) where
  init s := ∀ p, (s p).bridgedPorts = []
  step s a := some (call s a)

/-- The bridges of a port. -/
def bridges (s : P → InputPort P T) (p : P) : List P := (s p).bridgedPorts

/-- The call closes no cycle: the new bridge does not lead back. -/
def ClosesNoCycle (s : P → InputPort P T) : Call P → Prop
  | .addBridgedPort p bridged => ∀ q ∈ bridged, ¬ ReflTransGen (Edge (bridges s)) q p
  | .removeBridgedPort _ _ => True

/-- A call makes at most the bridge that it adds. -/
theorem mem_bridges_call {a : Call P} (h : q ∈ bridges (call s a) p) :
    q ∈ bridges s p ∨ a = .addBridgedPort p (some q) := by
  cases a with
  | addBridgedPort p' bridged =>
    by_cases hp : p = p'
    · subst hp
      rw [bridges, call, Function.update_self, InputPort.mem_addBridgedPort] at h
      exact h.imp_right fun hq => by rw [hq]
    · rw [bridges, call, Function.update_of_ne hp] at h
      exact .inl h
  | removeBridgedPort p' bridged =>
    by_cases hp : p = p'
    · subst hp
      rw [bridges, call, Function.update_self] at h
      exact .inl (InputPort.mem_of_mem_removeBridgedPort h)
    · rw [bridges, call, Function.update_of_ne hp] at h
      exact .inl h

/-- Finitely many ports are bridged. -/
theorem finite_bridged (h : (bridging P T).Reachable s) : {q | ∃ p, q ∈ bridges s p}.Finite := by
  refine h.invariant (I := fun s => {q | ∃ p, q ∈ bridges s p}.Finite)
    ⟨fun s hs => ?_, fun s a t hI _ hst => ?_⟩
  · have hempty : {q | ∃ p, q ∈ bridges s p} = ∅ := by
      refine Set.eq_empty_of_forall_notMem fun q ⟨p, hq⟩ => ?_
      rw [bridges, hs] at hq
      exact List.not_mem_nil hq
    rw [hempty]
    exact Set.finite_empty
  · obtain ⟨⟩ := hst
    cases a with
    | addBridgedPort p bridged =>
      have hone : {q | some q = bridged}.Finite :=
        Set.Subsingleton.finite fun q hq r hr => Option.some.inj (hq.trans hr.symm)
      refine (hI.union hone).subset fun q ⟨r, hq⟩ => ?_
      rcases mem_bridges_call hq with hq | heq
      · exact .inl ⟨r, hq⟩
      · exact .inr (Call.addBridgedPort.inj heq).2.symm
    | removeBridgedPort p bridged =>
      refine hI.subset fun q ⟨r, hq⟩ => ?_
      rcases mem_bridges_call hq with hq | heq
      · exact ⟨r, hq⟩
      · cases heq

theorem not_cycle (h : (bridging P T).ReachableUnder ClosesNoCycle s) :
    ∀ p, ¬ TransGen (Edge (bridges s)) p p := by
  refine h.invariant (I := fun s => ∀ p, ¬ TransGen (Edge (bridges s)) p p)
    ⟨fun s hs p hp => ?_, fun s a t hI ha hst => ?_⟩
  · obtain ⟨q, hq, -⟩ := TransGen.head'_iff.mp hp
    rw [Edge, bridges, hs] at hq
    exact List.not_mem_nil hq
  · obtain ⟨⟩ := hst
    have hfewer (a : Call P) (hnot : ∀ p q, a ≠ .addBridgedPort p (some q)) :
        ∀ p, ¬ TransGen (Edge (bridges (call s a))) p p := by
      intro p hp
      refine hI p (TransGen.mono (fun q r hr => ?_) p p hp)
      exact (mem_bridges_call hr).resolve_right (hnot q r)
    cases a with
    | addBridgedPort p bridged =>
      cases bridged with
      | none => exact hfewer _ (by simp)
      | some q =>
        refine not_cycle_of_insert (fun r u hu => ?_) (ha q rfl) hI
        refine (mem_bridges_call hu).imp_right fun heq => ?_
        obtain ⟨hp, hq⟩ := Call.addBridgedPort.inj heq
        exact ⟨hp.symm, (Option.some.inj hq).symm⟩
    | removeBridgedPort p bridged => exact hfewer _ (by simp)

omit [DecidableEq P] in
/-- A port that refuses the datum passes nothing on. -/
theorem forwards_subset (q : P) : forwards accepts d s q ⊆ bridges s q := by
  rw [forwards]
  split
  · exact List.Subset.refl _
  · exact List.nil_subset _

theorem terminates_iff (h : (bridging P T).Reachable s) (accepts : P → T → Bool) (p : P) (d : T) :
    Terminates accepts s p d ↔ ¬ ReachesCycle (forwards accepts d s) p := by
  have hforwards (r q : P) (hq : q ∈ forwards accepts d s r) : q ∈ {q | ∃ p, q ∈ bridges s p} :=
    ⟨r, forwards_subset r hq⟩
  rw [← exists_ends_iff_not_reachesCycle (finite_bridged h) hforwards]
  exact exists_congr fun _ => isSome_writeData

/-- **A write to a port returns exactly if the bridges between ports that accept the datum lead from
it to no cycle**, and every write does where each call has closed none. -/
theorem writeData_terminates :
    (∀ s : P → InputPort P T, (bridging P T).Reachable s →
      ∀ (accepts : P → T → Bool) (p : P) (d : T),
        Terminates accepts s p d ↔ ¬ ReachesCycle (forwards accepts d s) p) ∧
    ∀ s : P → InputPort P T, (bridging P T).ReachableUnder ClosesNoCycle s →
      ∀ (accepts : P → T → Bool) (p : P) (d : T), Terminates accepts s p d := by
  refine ⟨fun s h accepts p d => terminates_iff h accepts p d, fun s h accepts p d => ?_⟩
  refine (terminates_iff (h.mono fun _ _ _ => trivial) accepts p d).mpr fun hcycle => ?_
  obtain ⟨q, -, hq⟩ := hcycle.mono forwards_subset
  exact not_cycle h q hq

/-- A port that is bridged to itself. -/
def selfBridged : ℕ → InputPort ℕ ℤ :=
  call (fun _ => { data := 0 }) (.addBridgedPort 0 (some 0))

/-- A write to a port that is bridged to itself does not return. -/
theorem selfBridged_does_not_return :
    (bridging ℕ ℤ).Reachable selfBridged ∧
      ∀ depth, writeData (fun _ _ => true) depth selfBridged 0 5 = none := by
  have hinit : (bridging ℕ ℤ).init fun _ => { data := 0 } := fun _ => rfl
  refine ⟨.step (.addBridgedPort 0 (some 0)) (.init hinit) trivial rfl, fun depth => ?_⟩
  have hends : ¬ Ends (forwards (fun _ _ => true) 5 selfBridged) depth 0 := by
    induction depth with
    | zero => exact id
    | succ depth ih => exact fun h => ih (h 0 (by decide))
  simpa using isSome_writeData.not.mpr hends

end Bridges

end AxonVex
