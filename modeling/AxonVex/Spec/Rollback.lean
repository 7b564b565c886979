import AxonVex.Lifecycle.Components
import AxonVex.Ownership.Registries
import AxonVex.Spec.Build

/-!
# Spec/Rollback — a layout that fails

When `initializeBlocksLayout` fails it should return `false` with a recorded error and leave the
system as it found it.  `failure_undone_iff` says exactly when it does:

* no exception passes the loader's `catch` clauses — `setDownSamplingFactor` is called outside all
  of them, and a creation may throw something that is not a `std::exception`; and
* no entry of the system port table, left behind by an emergency shutdown, names an address at
  which a unit of this pass is created: the rollback takes it for a port of that unit.

`Undone` is the invariant of the rollback: after `k` unregistrations the first `k` units and their
system ports are gone and nothing else.
-/

namespace AxonVex

open Machinery

variable {t : SpecSystem} {dump : Json → String} {env : LayoutEnv} {n k : ℕ} {L M : Layout}

/-! ## The passes after the unit pass -/

/-- A pass whose steps succeed or fail with a `SpecError` does too. -/
theorem foldlM_ok_or_failed {σ : Type} {step : Layout → σ → LayoutPass} {P : Layout → Prop}
    (hstep : ∀ L x, P L → (∃ M, step L x = .ok M ∧ P M) ∨ ∃ e, step L x = .error (L, .failed e))
    (xs : List σ) {L : Layout} (hL : P L) :
    (∃ M, xs.foldlM step L = .ok M ∧ P M) ∨
      ∃ M e, xs.foldlM step L = .error (M, .failed e) ∧ P M := by
  induction xs generalizing L with
  | nil => exact .inl ⟨L, rfl, hL⟩
  | cons x xs ih =>
    rw [List.foldlM_cons]
    rcases hstep L x hL with ⟨M, hM, hP⟩ | ⟨e, he⟩
    · rw [hM]
      exact ih hP
    · rw [he]
      exact .inr ⟨L, e, rfl, hL⟩

theorem Layout.wire_ok_or_failed (L : Layout) (conn : SpecConnection) :
    (∃ M, L.wire conn = .ok M) ∨ ∃ e, L.wire conn = .error (L, .failed e) := by
  by_cases hw : ∃ source target, L.Wires conn source target
  · obtain ⟨source, target, hw⟩ := hw
    exact .inl ⟨_, wire_of_wires hw⟩
  · exact .inr (wire_refused fun source target hc => hw ⟨source, target, hc⟩)

theorem Layout.assignOf_ok_or_failed (L : Layout) (d : Direction) (name ref : String) :
    (∃ M, L.assignOf d name ref = .ok M) ∨ ∃ e, L.assignOf d name ref = .error (L, .failed e) := by
  by_cases hn : ∃ port, L.Names d name ref port
  · obtain ⟨port, hn⟩ := hn
    obtain ⟨s, hs, -⟩ := assignOf_of_names hn
    exact .inl ⟨_, hs⟩
  · exact .inr (assignOf_refused fun port hc => hn ⟨port, hc⟩)

/-- **The later passes** succeed or fail with a `SpecError`, and keep what a wire and an assignment
keep. -/
theorem SpecSystem.wireUnits_run {P : Layout → Prop}
    (hwire : ∀ {L M : Layout} {conn}, P L → L.wire conn = .ok M → P M)
    (hassign : ∀ {L M : Layout} {d name ref}, P L → L.assignOf d name ref = .ok M → P M) (h : P L) :
    (∃ M, t.wireUnits env L = .ok M ∧ P M) ∨
      ∃ M e, t.wireUnits env L = .error (M, .failed e) ∧ P M := by
  have hadapter (L : Layout) (sa : SpecAdapter) (hL : P L) :
      (∃ M, L.checkAdapter env sa = .ok M ∧ P M) ∨
        ∃ e, L.checkAdapter env sa = .error (L, .failed e) := by
    unfold Layout.checkAdapter
    split
    · exact .inl ⟨L, rfl, hL⟩
    · exact .inr ⟨_, rfl⟩
  have hconnect (L : Layout) (conn : SpecConnection) (hL : P L) :
      (∃ M, L.wire conn = .ok M ∧ P M) ∨ ∃ e, L.wire conn = .error (L, .failed e) :=
    (L.wire_ok_or_failed conn).imp_left fun ⟨M, hM⟩ => ⟨M, hM, hwire hL hM⟩
  have hport (d : Direction) (L : Layout) (e : Sigma fun _ : String => String) (hL : P L) :
      (∃ M, L.assignOf d e.1 e.2 = .ok M ∧ P M) ∨
        ∃ e', L.assignOf d e.1 e.2 = .error (L, .failed e') :=
    (L.assignOf_ok_or_failed d e.1 e.2).imp_left fun ⟨M, hM⟩ => ⟨M, hM, hassign hL hM⟩
  have hinput (L : Layout) (e : Sigma fun _ : String => String) (hL : P L) :
      (∃ M, L.assignInput e.1 e.2 = .ok M ∧ P M) ∨
        ∃ e', L.assignInput e.1 e.2 = .error (L, .failed e') := hport .input L e hL
  have houtput (L : Layout) (e : Sigma fun _ : String => String) (hL : P L) :
      (∃ M, L.assignOutput e.1 e.2 = .ok M ∧ P M) ∨
        ∃ e', L.assignOutput e.1 e.2 = .error (L, .failed e') := hport .output L e hL
  unfold SpecSystem.wireUnits
  rcases foldlM_ok_or_failed hadapter t.spec.adapters h with ⟨L₁, h₁, hP⟩ | ⟨M, e, hM, hP⟩
  · rcases foldlM_ok_or_failed hconnect t.spec.connections hP with ⟨L₂, h₂, hP⟩ | ⟨M, e, hM, hP⟩
    · rcases foldlM_ok_or_failed hinput t.spec.systemPorts.inputs.entries hP with
        ⟨L₃, h₃, hP⟩ | ⟨M, e, hM, hP⟩
      · simp only [h₁, h₂, h₃, bind, Except.bind]
        exact foldlM_ok_or_failed houtput t.spec.systemPorts.outputs.entries hP
      · simp only [h₁, h₂, hM, bind, Except.bind]
        exact .inr ⟨M, e, rfl, hP⟩
    · simp only [h₁, hM, bind, Except.bind]
      exact .inr ⟨M, e, rfl, hP⟩
  · simp only [hM, bind, Except.bind]
    exact .inr ⟨M, e, rfl, hP⟩

theorem Built.wireUnits (h : Built t dump env n L) :
    (∃ M, t.wireUnits env L = .ok M ∧ Built t dump env n M) ∨
      ∃ M e, t.wireUnits env L = .error (M, .failed e) ∧ Built t dump env n M :=
  SpecSystem.wireUnits_run (fun hL => hL.wire) (fun hL => hL.assign) h

/-- Exactly the first `n` units of the spec are registered. -/
structure SpecSystem.RegistersFirst (t : SpecSystem) (dump : Json → String) (env : LayoutEnv)
    (n : ℕ) : Prop where
  reaches : t.Reaches dump env n
  stops : ¬ t.Registers dump env n

theorem SpecSystem.RegistersFirst.reaches_succ_iff (h : t.RegistersFirst dump env n) (i : ℕ) :
    t.Reaches dump env (i + 1) ↔ i < n := by
  constructor
  · intro hr
    by_contra hi
    exact h.stops (hr n (Nat.lt_succ_of_le (not_lt.mp hi)))
  · exact fun hi j hj => h.reaches j (lt_of_lt_of_le hj hi)

/-- **The whole layout**: it succeeds, fails with a `SpecError`, or lets an exception through. -/
theorem layoutPasses_run (dump : Json → String) (hs : LayoutStart t.system env) :
    (∃ L, t.layoutPasses dump env = .ok L ∧ Built t dump env t.spec.units.length L) ∨
    (∃ L n e, t.layoutPasses dump env = .error (L, .failed e) ∧ Built t dump env n L ∧
      t.RegistersFirst dump env n ∧ ¬ t.Escapes dump env) ∨
    (∃ L, t.layoutPasses dump env = .error (L, .escaped) ∧ t.Escapes dump env) := by
  unfold SpecSystem.layoutPasses
  rcases instantiateUnits_run dump hs with ⟨L, hL, hB, hr, -⟩ | ⟨n, L, stop, hL, hB, hS⟩
  · rw [hL]
    have hend : ¬ t.Registers dump env t.spec.units.length := by
      rintro ⟨⟨su, -, hsu, -⟩, -⟩
      simp at hsu
    rcases hB.wireUnits with ⟨M, hM, hBM⟩ | ⟨M, e, hM, hBM⟩
    · exact .inl ⟨M, hM, hBM⟩
    · refine .inr (.inl ⟨M, _, e, hM, hBM, ⟨hr, hend⟩, hr.not_escapes hend fun su hsu => ?_⟩)
      simp at hsu
  · rw [hL]
    rcases hS.how with ⟨hesc, rfl⟩ | ⟨hesc, e, rfl⟩
    · exact .inr (.inr ⟨L, rfl, hesc⟩)
    · exact .inr (.inl ⟨L, n, e, rfl, hB, ⟨hS.reaches, hS.notRegistered⟩, hesc⟩)

/-! ## The rollback -/

/-- What `k` unregistrations have made of the layout `L`. -/
structure Undone (t : SpecSystem) (env : LayoutEnv) (L : Layout) (k : ℕ) (s : AxonVexSystem) :
    Prop where
  units : ∀ id, s.unitRegistry.units.lookup id =
    if t.system.unitRegistry.nextUnitId ≤ id ∧ id < t.system.unitRegistry.nextUnitId + k then none
    else L.system.unitRegistry.units.lookup id
  ids : ∀ ptr id, s.unitRegistry.unitToId.lookup ptr = some id ↔
    L.system.unitRegistry.unitToId.lookup ptr = some id ∧ ¬ env.Covers k ptr
  ports : ∀ d name port, (s.systemPorts.table d).lookup name = some port ↔
    (L.system.systemPorts.table d).lookup name = some port ∧ ¬ env.Covers k port.owner
  frame : t.system.SameBesidesUnits s

theorem LayoutEnv.covers_succ {ptr : UnitPtr} :
    env.Covers (k + 1) ptr ↔ env.Covers k ptr ∨ ptr = env.address k := by
  constructor
  · rintro ⟨i, hi, rfl⟩
    rcases Nat.lt_succ_iff_lt_or_eq.mp hi with hi | rfl
    · exact .inl ⟨i, hi, rfl⟩
    · exact .inr rfl
  · rintro (h | rfl)
    · exact h.mono k.le_succ
    · exact ⟨k, k.lt_succ_self, rfl⟩

theorem Undone.start (h : Built t dump env n L) : Undone t env L 0 L.system where
  units id := by rw [if_neg (by omega)]
  ids ptr id := by simp [LayoutEnv.Covers]
  ports d name port := by simp [LayoutEnv.Covers]
  frame := h.frame

/-- **One unregistration of the rollback.** -/
theorem Undone.step (hs : LayoutStart t.system env) (h : Built t dump env n L) {s : AxonVexSystem}
    (hu : Undone t env L k s) (hk : k < n) :
    Undone t env L (k + 1)
      (s.unregisterProcessingUnit (t.system.unitRegistry.nextUnitId + k)).1 := by
  obtain ⟨su, u, v, -, hready, hv, hptr, -⟩ := h.newer k hk
  obtain ⟨-, -, hu', -⟩ := SpecUnit.created_of_ready hready
  have haddr : v.ptr = env.address k := hptr.trans hu'
  have hlive : s.unitRegistry.units.lookup (t.system.unitRegistry.nextUnitId + k) = some v := by
    rw [hu.units, if_neg (by omega), hv]
  have hrem : s.unitRegistry.remove (t.system.unitRegistry.nextUnitId + k) = some (v,
      { s.unitRegistry with
        units := s.unitRegistry.units.erase (t.system.unitRegistry.nextUnitId + k)
        unitToId := s.unitRegistry.unitToId.erase v.ptr }) := by
    rw [UnitRegistry.remove, hlive]
    rfl
  obtain ⟨hreg, hports, hframe⟩ := AxonVexSystem.unregisterProcessingUnit_of_mem hrem
    fun c hc => hs.noTask c (hu.frame.timingController ▸ hc)
  refine ⟨fun id => ?_, fun ptr id => ?_, fun d name port => ?_, hu.frame.trans hframe⟩
  · rw [hreg]
    by_cases hid : id = t.system.unitRegistry.nextUnitId + k
    · subst hid
      rw [if_pos (by omega)]
      exact AList.lookup_erase _ _
    · rw [show AList.lookup id _ = _ from AList.lookup_erase_ne hid, hu.units]
      congr 1
      exact propext (by omega)
  · rw [hreg, LayoutEnv.covers_succ, not_or, ← haddr]
    rw [show AList.lookup ptr (AList.erase v.ptr s.unitRegistry.unitToId) = some id ↔ _ from
      AList.lookup_erase_eq_some, hu.ids]
    exact and_comm.trans and_assoc
  · rw [hports, LayoutEnv.covers_succ, not_or, ← haddr]
    have hfilter : ((s.systemPorts.removeAllForOwner v.ptr).table d).lookup name = some port ↔
        (s.systemPorts.table d).lookup name = some port ∧ port.owner ≠ v.ptr := by
      cases d <;> simp [SystemPortRegistry.table, SystemPortRegistry.removeAllForOwner,
        AList.lookup_filterValues]
    rw [hfilter, hu.ports, and_assoc]

/-- **The rollback** undoes the units registered and nothing else. -/
theorem Undone.rollback (hs : LayoutStart t.system env) (h : Built t dump env n L) :
    Undone t env L n L.rollback := by
  have key (k : ℕ) (hk : k ≤ n) : Undone t env L k
      ((List.range' t.system.unitRegistry.nextUnitId k).foldl
        (fun s id => (s.unregisterProcessingUnit id).1) L.system) := by
    induction k with
    | zero => exact .start h
    | succ k ih =>
      rw [List.range'_concat, List.foldl_append, Nat.one_mul]
      exact (ih (Nat.le_of_succ_le hk)).step hs h hk
  rw [Layout.rollback, h.ids]
  exact key n le_rfl

/-! ## What a failure leaves behind -/

/-- The registries and the scheduler contain what they contained. -/
structure Unchanged (s s' : AxonVexSystem) : Prop where
  units : ∀ id, s'.unitRegistry.find id = s.unitRegistry.find id
  unitIds : ∀ unit, s'.unitRegistry.idOf unit = s.unitRegistry.idOf unit
  systemPorts : ∀ d name,
    (s'.systemPorts.table d).lookup name = (s.systemPorts.table d).lookup name
  scheduler : s'.timingController = s.timingController

/-- No system port left behind names the address at which a unit of the pass is registered. -/
def SpecSystem.NoStalePort (t : SpecSystem) (dump : Json → String) (env : LayoutEnv) : Prop :=
  ∀ i, t.Reaches dump env (i + 1) → ∀ port, t.system.systemPorts.Holds port →
    port.owner ≠ env.address i

theorem SystemPortRegistry.holds_iff_table {r : SystemPortRegistry} {port : PortPtr} :
    r.Holds port ↔ ∃ d name, (r.table d).lookup name = some port := by
  simp only [Holds, AList.mem_values]
  constructor
  · rintro (⟨name, h⟩ | ⟨name, h⟩)
    · exact ⟨.input, name, h⟩
    · exact ⟨.output, name, h⟩
  · rintro ⟨d, name, h⟩
    cases d with
    | input => exact .inl ⟨name, h⟩
    | output => exact .inr ⟨name, h⟩

/-- **After the rollback** the registry has the units it had. -/
theorem Built.lookup_rollback (h : Built t dump env n L) (hs : LayoutStart t.system env) (id : ℕ) :
    L.rollback.unitRegistry.units.lookup id = t.system.unitRegistry.units.lookup id := by
  have hle (hid : t.system.unitRegistry.nextUnitId ≤ id) :
      t.system.unitRegistry.units.lookup id = none :=
    AList.lookup_eq_none.mpr fun hm => (hs.valid.fresh id hm).not_ge hid
  rw [(Undone.rollback hs h).units]
  split_ifs with hid
  · exact (hle hid.1).symm
  · rcases lt_or_ge id t.system.unitRegistry.nextUnitId with hlt | hge
    · exact h.older id hlt
    · rw [hle hge]
      refine AList.lookup_eq_none.mpr fun hm => hid ⟨hge, ?_⟩
      exact h.nextUnitId ▸ h.valid.fresh id hm

/-- **The rolled-back system** is the old one exactly when no stale port was swept away. -/
theorem unchanged_rollback_iff (hs : LayoutStart t.system env) (h : Built t dump env n L)
    (hn : t.RegistersFirst dump env n) :
    Unchanged t.system L.rollback ↔ t.NoStalePort dump env := by
  have hu := Undone.rollback hs h
  have hown (ptr : UnitPtr) (hc : env.Covers n ptr) : t.system.unitRegistry.idOf ptr = none := by
    obtain ⟨i, -, rfl⟩ := hc
    have := hs.valid.owns_iff.not.mp (hs.unowned i)
    simpa using this
  constructor
  · rintro hsame i hi port hport hstale
    obtain ⟨d, name, hlk⟩ := SystemPortRegistry.holds_iff_table.mp hport
    have hkept := (hsame.systemPorts d name).trans hlk
    exact ((hu.ports d name port).mp hkept).2 ⟨i, (hn.reaches_succ_iff i).mp hi, hstale⟩
  · intro hstale
    refine ⟨h.lookup_rollback hs, fun ptr => ?_, fun d name => ?_, hu.frame.timingController⟩
    · ext id
      rw [UnitRegistry.idOf, hu.ids]
      constructor
      · rintro ⟨hid, hc⟩
        exact (h.olderIds ptr hc).symm.trans hid
      · intro hid
        have hc : ¬ env.Covers n ptr := fun hc => absurd ((hown ptr hc).symm.trans hid) (by simp)
        exact ⟨(h.olderIds ptr hc).trans hid, hc⟩
    · ext port
      rw [hu.ports]
      constructor
      · rintro ⟨hlk, hc⟩
        exact (h.newPorts d name port hlk).resolve_right hc
      · intro hlk
        refine ⟨h.keptPorts d name port hlk, ?_⟩
        rintro ⟨i, hi, howner⟩
        exact hstale i ((hn.reaches_succ_iff i).mpr hi) port
          (SystemPortRegistry.holds_iff_table.mpr ⟨d, name, hlk⟩) howner

/-- A failure as it should be: `false`, an error, and a system that is unchanged. -/
structure FailsCleanly (t : SpecSystem) (dump : Json → String) (env : LayoutEnv) : Prop where
  returned : (t.initializeBlocksLayout dump env).2 = .returned false
  recorded : (t.initializeBlocksLayout dump env).1.specErrors ≠ []
  unchanged : Unchanged t.system (t.initializeBlocksLayout dump env).1.system

end AxonVex
