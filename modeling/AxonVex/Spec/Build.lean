import AxonVex.Machinery.Passes
import AxonVex.Ownership.Registries
import AxonVex.Spec.Effects

/-!
# Spec/Build — the half-built system

`Built n L` says what the layout `L` has made of the system it started on once the first `n` units
of the spec are registered: they have consecutive ids and the shape their creation gave them, the
older units are untouched, and every system port added belongs to one of them.  The unit pass takes
`Built n` to `Built (n + 1)` (`Built.register`); wiring and assigning keep it (`Built.wire`,
`Built.assign`).
-/

namespace AxonVex

open Machinery

/-- The system `initialize` calls `initializeBlocksLayout` on: not running, its timing controller
new; each unit is created at an address of its own. -/
structure LayoutStart (s : AxonVexSystem) (env : LayoutEnv) : Prop where
  valid : s.unitRegistry.Valid
  notRunning : s.isRunning = false
  noTask : ∀ c ∈ s.timingController, c.unitToTaskId = ∅
  distinct : Function.Injective env.address
  unowned : ∀ i, ¬ s.unitRegistry.Owns (env.address i)

/-- What `initialize` makes of a system before it builds the layout, once the stale workers are
joined. -/
def AxonVexSystem.atLayout (s : AxonVexSystem) : AxonVexSystem :=
  ((s.initializeComponents none).1.transitionState .initializing).1

/-- A spec system at the point where `initialize` builds its layout. -/
def SpecSystem.atLayout (t : SpecSystem) : SpecSystem := { t with system := t.system.atLayout }

theorem AxonVexSystem.atLayout_registries (s : AxonVexSystem) : SameRegistries s s.atLayout :=
  (sameRegistries_initializeComponents none).trans (sameRegistries_transitionState .initializing)

/-- **`initialize` builds the layout on such a system**, in every run that gets there. -/
theorem LayoutStart.atLayout {s : AxonVexSystem} {env : LayoutEnv} (hvalid : s.unitRegistry.Valid)
    (hstate : validTransition s.state .initializing = true)
    (hdistinct : Function.Injective env.address)
    (hunowned : ∀ i, ¬ s.unitRegistry.Owns (env.address i)) : LayoutStart s.atLayout env where
  valid := s.atLayout_registries.1 ▸ hvalid
  notRunning := by
    have hs : (s.initializeComponents none).1.state = s.state := by
      simp [AxonVexSystem.initializeComponents, AxonVexSystem.newConfiguration]
      split <;> rfl
    rw [AxonVexSystem.isRunning, AxonVexSystem.atLayout, AxonVexSystem.transitionState_state, hs,
      if_pos hstate]
    rfl
  noTask c hc := by
    rw [AxonVexSystem.atLayout, AxonVexSystem.transitionState_timingController] at hc
    obtain ⟨⟩ := hc
    rfl
  distinct := hdistinct
  unowned := s.atLayout_registries.1 ▸ hunowned

theorem layoutStart_of_reachable {r : SystemRun} (hr : SystemRun.machine.Reachable r)
    {s : AxonVexSystem} {env : LayoutEnv} (hjoin : r.system.joinStaleWorkers = .returned s)
    (hstate : validTransition s.state .initializing = true)
    (hdistinct : Function.Injective env.address)
    (hunowned : ∀ i, ¬ r.system.unitRegistry.Owns (env.address i)) :
    LayoutStart s.atLayout env := by
  have hsame := (AxonVexSystem.sameRegistries_joinStaleWorkers hjoin).1
  have hvalid : r.system.unitRegistry.Valid := (SystemRun.registriesValid_of_reachable hr).registry
  exact .atLayout (hsame ▸ hvalid) hstate hdistinct (hsame ▸ hunowned)

theorem SpecSystem.eq_of_new {spec : SystemSpec} {factory : UnitFactory} {objectSize : ℕ}
    {t : SpecSystem} (h : SpecSystem.new spec factory objectSize = some t) :
    t = { system := .new spec.systemConfiguration objectSize, spec, factory } := by
  unfold SpecSystem.new at h
  split at h
  · cases h
  · exact (Option.some.inj h).symm

/-- The first layout of a new spec system. -/
theorem layoutStart_new {spec : SystemSpec} {factory : UnitFactory} {objectSize : ℕ}
    {t : SpecSystem} {env : LayoutEnv} (h : SpecSystem.new spec factory objectSize = some t)
    (hdistinct : Function.Injective env.address) : LayoutStart t.atLayout.system env := by
  obtain rfl := SpecSystem.eq_of_new h
  exact .atLayout (UnitRegistry.valid_new _) rfl hdistinct fun i ⟨id, u, hu, _⟩ =>
    absurd hu (by simp [AxonVexSystem.new])

/-- The address is that of one of the first `n` units. -/
def LayoutEnv.Covers (env : LayoutEnv) (n : ℕ) (ptr : UnitPtr) : Prop := ∃ i < n, ptr = env.address i

theorem LayoutEnv.Covers.mono {env : LayoutEnv} {n m : ℕ} {ptr : UnitPtr} (h : env.Covers n ptr)
    (hnm : n ≤ m) : env.Covers m ptr :=
  h.imp fun _ hi => ⟨hi.1.trans_le hnm, hi.2⟩

variable {t : SpecSystem} {dump : Json → String} {env : LayoutEnv} {n i : ℕ} {L M : Layout}
  {su : SpecUnit} {u : ProcessingUnit}

/-- What the layout has made of the registry after `n` units. -/
structure BuiltUnits (t : SpecSystem) (dump : Json → String) (env : LayoutEnv) (n : ℕ)
    (r : UnitRegistry) : Prop where
  valid : r.Valid
  nextUnitId : r.nextUnitId = t.system.unitRegistry.nextUnitId + n
  maxUnits : r.maxUnits = t.system.unitRegistry.maxUnits
  count : r.units.keys.length = t.system.unitRegistry.units.keys.length + n
  older : ∀ id < t.system.unitRegistry.nextUnitId,
    r.units.lookup id = t.system.unitRegistry.units.lookup id
  newer : ∀ i < n, ∃ su u v, t.spec.units[i]? = some su ∧
    su.ready t.factory dump (env.address i) = some u ∧
    r.units.lookup (t.system.unitRegistry.nextUnitId + i) = some v ∧
    v.ptr = u.ptr ∧ v.portAt = u.portAt
  olderIds : ∀ ptr, ¬ env.Covers n ptr →
    r.unitToId.lookup ptr = t.system.unitRegistry.unitToId.lookup ptr

/-- What the layout has made of the system after `n` units. -/
structure Built (t : SpecSystem) (dump : Json → String) (env : LayoutEnv) (n : ℕ) (L : Layout) : Prop
    extends BuiltUnits t dump env n L.system.unitRegistry where
  ids : L.registeredUnitIds = List.range' t.system.unitRegistry.nextUnitId n
  names : ∀ name unit, L.unitsByName.lookup name = some unit →
    ∃ i < n, ∃ su, t.spec.units[i]? = some su ∧ su.name = name ∧ unit = env.address i
  named : ∀ i < n, ∀ su, t.spec.units[i]? = some su → su.name ∈ L.unitsByName
  frame : t.system.SameBesidesUnits L.system
  keptPorts : ∀ d name port, (t.system.systemPorts.table d).lookup name = some port →
    (L.system.systemPorts.table d).lookup name = some port
  newPorts : ∀ d name port, (L.system.systemPorts.table d).lookup name = some port →
    (t.system.systemPorts.table d).lookup name = some port ∨ env.Covers n port.owner

namespace Built

/-- Before the first unit. -/
theorem start (hs : LayoutStart t.system env) : Built t dump env 0 { system := t.system } where
  valid := hs.valid
  ids := rfl
  nextUnitId := rfl
  maxUnits := rfl
  count := rfl
  older _ _ := rfl
  newer i hi := absurd hi (Nat.not_lt_zero i)
  olderIds _ _ := rfl
  names name unit h := by simp at h
  named i hi := absurd hi (Nat.not_lt_zero i)
  frame := .refl _
  keptPorts _ _ _ h := h
  newPorts _ _ _ h := .inl h

/-- The address of a unit of the spec is free until the unit is registered. -/
theorem not_owns (h : Built t dump env n L) (hs : LayoutStart t.system env) :
    ¬ L.system.unitRegistry.Owns (env.address n) := by
  rintro ⟨id, v, hv, hp⟩
  have hlt : id < t.system.unitRegistry.nextUnitId + n :=
    h.nextUnitId ▸ h.valid.fresh id (AList.mem_of_lookup hv)
  rcases lt_or_ge id t.system.unitRegistry.nextUnitId with hid | hid
  · rw [h.older id hid] at hv
    exact hs.unowned n ⟨id, v, hv, hp⟩
  · obtain ⟨i, rfl⟩ := Nat.exists_eq_add_of_le hid
    have hi : i < n := by omega
    obtain ⟨su, u, w, -, hready, hw, hptr, -⟩ := h.newer i hi
    obtain ⟨-, -, hu, -⟩ := SpecUnit.created_of_ready hready
    obtain rfl : v = w := Option.some.inj (hv.symm.trans hw)
    exact hi.ne (hs.distinct (hu.symm.trans (hptr.symm.trans hp)))

/-- **A unit joins.** -/
theorem register (h : Built t dump env n L) (hs : LayoutStart t.system env)
    (hsu : t.spec.units[n]? = some su) (hready : su.ready t.factory dump (env.address n) = some u)
    (hroom : t.system.unitRegistry.units.keys.length + n < t.system.unitRegistry.maxUnits) :
    ∃ M, L.instantiate t.factory dump env n su = .ok M ∧ Built t dump env (n + 1) M ∧
      M.system.systemPorts = L.system.systemPorts := by
  obtain ⟨unit, -, hptr, -⟩ := SpecUnit.created_of_ready hready
  obtain ⟨s, hreg, hadd, hports, hframe⟩ :=
    AxonVexSystem.registerProcessingUnit_of_room (s := L.system) u
      (if su.hasTiming then su.timing else {}) env.now
      (h.frame.isRunning.trans hs.notRunning) (by rw [h.count, h.maxUnits]; exact hroom)
  refine ⟨_, (Layout.instantiate_of_ready hready hreg).1 _ rfl, ?_⟩
  obtain ⟨-, hunits, hnext, hids, hmax⟩ := UnitRegistry.lookup_add hadd
  have hnew : ¬ L.system.unitRegistry.Owns u.ptr := hptr ▸ h.not_owns hs
  have hfree : L.system.unitRegistry.nextUnitId ∉ L.system.unitRegistry.units :=
    fun hm => lt_irrefl _ (h.valid.fresh _ hm)
  refine ⟨{
    valid := h.valid.add hnew hadd
    ids := ?_, nextUnitId := ?_, maxUnits := hmax.trans h.maxUnits, count := ?_, older := ?_
    newer := ?_, olderIds := ?_, names := ?_, named := ?_, frame := h.frame.trans hframe
    keptPorts := ?_, newPorts := ?_ }, hports⟩
  · rw [hnext, h.nextUnitId, Nat.add_assoc]
  · rw [hunits, AList.keys_insert, List.erase_of_not_mem (by rwa [← AList.mem_keys])]
    simp [h.count, Nat.add_assoc]
  · intro id hid
    have hne : id ≠ L.system.unitRegistry.nextUnitId := by rw [h.nextUnitId]; omega
    rw [hunits, AList.lookup_insert_ne hne, h.older id hid]
  · intro i hi
    rcases Nat.lt_succ_iff_lt_or_eq.mp hi with hi | rfl
    · obtain ⟨su', u', v, hsu', hready', hv, hrest⟩ := h.newer i hi
      refine ⟨su', u', v, hsu', hready', ?_, hrest⟩
      have hne : t.system.unitRegistry.nextUnitId + i ≠ L.system.unitRegistry.nextUnitId := by
        rw [h.nextUnitId]; omega
      rw [hunits, AList.lookup_insert_ne hne, hv]
    · refine ⟨su, u, u, hsu, hready, ?_, rfl, rfl⟩
      rw [hunits, ← h.nextUnitId, AList.lookup_insert]
  · intro ptr hcov
    have hne : ptr ≠ u.ptr := fun he => hcov ⟨n, Nat.lt_succ_self n, he.trans hptr⟩
    rw [hids, AList.lookup_insert_ne hne]
    exact h.olderIds ptr fun hc => hcov (hc.mono n.le_succ)
  · rw [h.ids, List.range'_concat, h.nextUnitId]
    simp
  · intro name unit hlk
    rcases AList.lookup_insert_eq_some.mp hlk with ⟨rfl, rfl⟩ | ⟨-, hlk⟩
    · exact ⟨n, Nat.lt_succ_self n, su, hsu, rfl, hptr⟩
    · obtain ⟨i, hi, hrest⟩ := h.names name unit hlk
      exact ⟨i, hi.trans n.lt_succ_self, hrest⟩
  · intro i hi su' hsu'
    rw [AList.mem_insert]
    rcases Nat.lt_succ_iff_lt_or_eq.mp hi with hi | rfl
    · exact .inr (h.named i hi su' hsu')
    · exact .inl (congrArg _ (Option.some.inj (hsu'.symm.trans hsu)))
  · intro d name port hlk
    rw [hports]
    exact h.keptPorts d name port hlk
  · intro d name port hlk
    rw [hports] at hlk
    exact (h.newPorts d name port hlk).imp_right (·.mono n.le_succ)

/-- The unit at the address of a unit of the spec is that unit, in shape. -/
theorem liveUnit (h : Built t dump env n L) (hi : i < n) :
    ∃ su u v, t.spec.units[i]? = some su ∧ su.ready t.factory dump (env.address i) = some u ∧
      L.liveUnit (env.address i) = some v ∧ v.ptr = env.address i ∧ v.portAt = u.portAt ∧
      L.system.unitRegistry.idOf (env.address i) = some (t.system.unitRegistry.nextUnitId + i) := by
  obtain ⟨su, u, v, hsu, hready, hv, hptr, hports⟩ := h.newer i hi
  obtain ⟨-, -, hu, -⟩ := SpecUnit.created_of_ready hready
  have hid := (h.valid.agree (env.address i) _).mpr ⟨v, hv, hptr.trans hu⟩
  refine ⟨su, u, v, hsu, hready, ?_, hptr.trans hu, hports, hid⟩
  rw [Layout.liveUnit, UnitRegistry.unitAt, UnitRegistry.idOf, hid]
  exact hv

/-- A port the loader resolves belongs to a unit of the spec. -/
theorem covers_of_resolve (h : Built t dump env n L) {ref : String} {p : PortPtr}
    (hp : L.resolve ref = some p) : env.Covers n p.owner := by
  obtain ⟨unit, hunit, hbind⟩ := Option.bind_eq_some_iff.mp hp
  obtain ⟨v, hv, hfind⟩ := Option.bind_eq_some_iff.mp hbind
  obtain ⟨i, hi, su, -, -, rfl⟩ := h.names _ _ hunit
  obtain ⟨-, -, w, -, -, hw, hptr, -⟩ := h.liveUnit hi
  obtain rfl : v = w := Option.some.inj (hv.symm.trans hw)
  exact ⟨i, hi, (owner_findPortByName hfind).trans hptr⟩

/-- **A wire changes no shape.** -/
theorem modifyOut (h : Built t dump env n L) {p q : PortPtr} (hp : env.Covers n p.owner) :
    Built t dump env n
      { L with system := L.system.modifyUnit p.owner (·.modifyOut p (·.connect q)) } := by
  obtain ⟨i, hi, howner⟩ := hp
  obtain ⟨-, -, -, -, -, -, -, -, hid⟩ := h.liveUnit hi
  rw [howner, AxonVexSystem.modifyUnit_of_idOf hid]
  refine { h with
    valid := AxonVexSystem.valid_modify h.valid (fun u => ProcessingUnit.modifyOut_ptr p _) _
    count := (congrArg List.length (AList.keys_modify ..)).trans h.count
    older := fun id hid => ?_
    newer := fun j hj => ?_
    frame := h.frame.trans ⟨rfl, rfl⟩ }
  · exact (AList.lookup_modify_ne (by omega) _ _).trans (h.older id hid)
  · obtain ⟨su, u, v, hsu, hready, hv, hptr, hports⟩ := h.newer j hj
    have hshape := AList.map_lookup_modify (·.modifyOut p (·.connect q))
      (fun v : ProcessingUnit => (v.ptr, v.portAt)) (fun v => by simp)
      L.system.unitRegistry.units (t.system.unitRegistry.nextUnitId + i)
      (t.system.unitRegistry.nextUnitId + j)
    rw [hv] at hshape
    obtain ⟨w, hw, he⟩ := Option.map_eq_some_iff.mp hshape
    exact ⟨su, u, w, hsu, hready, hw, (Prod.mk.inj he).1.trans hptr,
      (Prod.mk.inj he).2.trans hports⟩

theorem wire (h : Built t dump env n L) {conn : SpecConnection} (hM : L.wire conn = .ok M) :
    Built t dump env n M := by
  by_cases hw : ∃ source target, L.Wires conn source target
  · obtain ⟨source, target, hw⟩ := hw
    rw [Layout.wire_of_wires hw] at hM
    exact Except.ok.inj hM ▸ h.modifyOut (h.covers_of_resolve hw.resolveSource)
  · obtain ⟨e, he⟩ := Layout.wire_refused fun source target hc => hw ⟨source, target, hc⟩
    rw [he] at hM
    exact absurd hM (by simp)

/-- The port an entry is assigned to belongs to a unit of the spec. -/
theorem covers_of_names (h : Built t dump env n L) {d : Direction} {name ref : String}
    {port : PortPtr} (hp : L.Names d name ref port) : env.Covers n port.owner := by
  obtain ⟨unit, found, -, hunit, hassign⟩ := hp.assigns
  obtain ⟨u, hu, hport⟩ := hassign.found
  obtain ⟨i, hi, -, -, -, rfl⟩ := h.names _ _ hunit
  obtain ⟨-, -, w, -, -, hw, hptr, -⟩ := h.liveUnit hi
  obtain rfl : u = w := Option.some.inj (hu.symm.trans hw)
  exact ⟨i, hi, (AxonVexSystem.owner_portOf hport).trans hptr⟩

/-- **An assignment adds one port of a unit of the spec.** -/
theorem assign (h : Built t dump env n L) {d : Direction} {name ref : String}
    (hM : L.assignOf d name ref = .ok M) : Built t dump env n M := by
  by_cases hn : ∃ port, L.Names d name ref port
  · obtain ⟨port, hn⟩ := hn
    obtain ⟨s, hs, htable, hreg, hframe⟩ := Layout.assignOf_of_names hn
    obtain rfl := Except.ok.inj (hs.symm.trans hM)
    obtain ⟨unit, found, -, -, hassign⟩ := hn.assigns
    refine { h with
      toBuiltUnits := hreg.symm ▸ h.toBuiltUnits
      frame := h.frame.trans hframe
      keptPorts := fun d' name' port' hlk => ?_
      newPorts := fun d' name' port' hlk => ?_ }
    · have hL := h.keptPorts d' name' port' hlk
      rw [htable]
      split
      next hd =>
        subst hd
        have hne : name' ≠ name := by
          rintro rfl
          exact hassign.free (AList.mem_of_lookup hL)
        rw [AList.lookup_insert_ne hne, hL]
      · exact hL
    · rw [htable] at hlk
      split at hlk
      next hd =>
        subst hd
        rcases AList.lookup_insert_eq_some.mp hlk with ⟨-, rfl⟩ | ⟨-, hlk⟩
        · exact .inr (h.covers_of_names hn)
        · exact h.newPorts d' name' port' hlk
      · exact h.newPorts d' name' port' hlk
  · obtain ⟨e, he⟩ := Layout.assignOf_refused fun port hc => hn ⟨port, hc⟩
    rw [he] at hM
    exact absurd hM (by simp)

end Built

/-! ## The unit pass -/

/-- The unit at index `i` of the spec is registered, if the pass gets to it. -/
def SpecSystem.Registers (t : SpecSystem) (dump : Json → String) (env : LayoutEnv) (i : ℕ) : Prop :=
  (∃ su u, t.spec.units[i]? = some su ∧ su.ready t.factory dump (env.address i) = some u) ∧
    t.system.unitRegistry.units.keys.length + i < t.system.unitRegistry.maxUnits

/-- The first `n` units of the spec are registered. -/
def SpecSystem.Reaches (t : SpecSystem) (dump : Json → String) (env : LayoutEnv) (n : ℕ) : Prop :=
  ∀ i < n, t.Registers dump env i

/-- An exception about a unit the pass gets to passes every `catch`. -/
def SpecSystem.Escapes (t : SpecSystem) (dump : Json → String) (env : LayoutEnv) : Prop :=
  ∃ n su, t.spec.units[n]? = some su ∧ t.Reaches dump env n ∧ su.escapes t.factory dump = true

/-- How the pass stops at a unit. -/
structure StopsAtUnit (t : SpecSystem) (dump : Json → String) (env : LayoutEnv) (n : ℕ)
    (stop : LayoutStop) : Prop where
  inSpec : n < t.spec.units.length
  reaches : t.Reaches dump env n
  notRegistered : ¬ t.Registers dump env n
  how : t.Escapes dump env ∧ stop = .escaped ∨ ¬ t.Escapes dump env ∧ ∃ e, stop = .failed e

theorem SpecUnit.not_escapes_of_ready {factory : UnitFactory} {ptr : UnitPtr}
    (h : su.ready factory dump ptr = some u) : su.escapes factory dump = false := by
  obtain ⟨unit, hunit, -, -, hfactor⟩ := created_of_ready h
  simp [escapes, hunit, hfactor]

/-- A unit that is registered lets no exception through. -/
theorem SpecSystem.Reaches.le_of_escapes (h : t.Reaches dump env n)
    (hsu : t.spec.units[i]? = some su) (hesc : su.escapes t.factory dump = true) : n ≤ i := by
  by_contra hi
  obtain ⟨⟨su', u, hsu', hu⟩, -⟩ := h i (not_le.mp hi)
  obtain rfl := Option.some.inj (hsu.symm.trans hsu')
  exact absurd (hesc.symm.trans (SpecUnit.not_escapes_of_ready hu)) (by simp)

/-- At the unit the pass stops at, it is this unit that decides. -/
theorem SpecSystem.Reaches.not_escapes (h : t.Reaches dump env n) (hn : ¬ t.Registers dump env n)
    (hsu : ∀ su, t.spec.units[n]? = some su → su.escapes t.factory dump = false) :
    ¬ t.Escapes dump env := by
  rintro ⟨m, su, hm, hr, hesc⟩
  rcases (h.le_of_escapes hm hesc).lt_or_eq with hlt | rfl
  · exact hn (hr n hlt)
  · exact absurd (hesc.symm.trans (hsu su hm)) (by simp)

/-- **One unit of the pass.** -/
theorem Built.instantiate (h : Built t dump env n L) (hs : LayoutStart t.system env)
    (hr : t.Reaches dump env n) (hsu : t.spec.units[n]? = some su) :
    (t.Registers dump env n ∧
      ∃ M, L.instantiate t.factory dump env n su = .ok M ∧ Built t dump env (n + 1) M ∧
        M.system.systemPorts = L.system.systemPorts) ∨
    ∃ stop, L.instantiate t.factory dump env n su = .error (L, stop) ∧
      StopsAtUnit t dump env n stop := by
  have hnot (hn : su.ready t.factory dump (env.address n) = none) : ¬ t.Registers dump env n := by
    rintro ⟨⟨su', u, hsu', hu⟩, -⟩
    obtain rfl := Option.some.inj (hsu.symm.trans hsu')
    exact absurd (hn.symm.trans hu) (by simp)
  have hlt := (List.getElem?_eq_some_iff.mp hsu).1
  cases hready : su.ready t.factory dump (env.address n) with
  | some u =>
    rcases lt_or_ge (t.system.unitRegistry.units.keys.length + n) t.system.unitRegistry.maxUnits
      with hroom | hfull
    · exact .inl ⟨⟨⟨su, u, hsu, hready⟩, hroom⟩, h.register hs hsu hready hroom⟩
    · obtain ⟨e, he⟩ := (Layout.instantiate_of_ready hready
        (AxonVexSystem.registerProcessingUnit_of_full (s := L.system)
          (by rw [h.count, h.maxUnits]; exact hfull))).2 rfl
      have hn : ¬ t.Registers dump env n := fun hn => hfull.not_gt hn.2
      refine .inr ⟨_, he, hlt, hr, hn, .inr ⟨hr.not_escapes hn fun su' hsu' => ?_, e, rfl⟩⟩
      obtain rfl := Option.some.inj (hsu.symm.trans hsu')
      exact SpecUnit.not_escapes_of_ready hready
  | none =>
    cases hesc : su.escapes t.factory dump with
    | true =>
      have hescapes : t.Escapes dump env := ⟨n, su, hsu, hr, hesc⟩
      exact .inr ⟨_, Layout.instantiate_of_escapes hesc, hlt, hr, hnot hready,
        .inl ⟨hescapes, rfl⟩⟩
    | false =>
      obtain ⟨e, he⟩ := Layout.instantiate_of_refused (L := L) hready hesc
      refine .inr ⟨_, he, hlt, hr, hnot hready,
        .inr ⟨hr.not_escapes (hnot hready) fun su' hsu' => ?_, e, rfl⟩⟩
      obtain rfl := Option.some.inj (hsu.symm.trans hsu')
      exact hesc

/-- The place of an entry in a list with indices. -/
theorem eq_length_of_zipIdx {α : Type} {xs : List α} {done later : List (α × ℕ)} {x : α × ℕ}
    (h : done ++ x :: later = xs.zipIdx) : x.2 = done.length ∧ xs[done.length]? = some x.1 := by
  have hx : xs.zipIdx[done.length]? = some x := by
    rw [← h, List.getElem?_append_right le_rfl]
    simp
  rw [List.getElem?_zipIdx, Option.map_eq_some_iff] at hx
  obtain ⟨y, hy, rfl⟩ := hx
  exact ⟨by simp, hy⟩

/-- **The unit pass** registers every unit of the spec, or stops at the first it cannot register. -/
theorem instantiateUnits_run (dump : Json → String) (hs : LayoutStart t.system env) :
    (∃ L, t.instantiateUnits dump env { system := t.system } = .ok L ∧
      Built t dump env t.spec.units.length L ∧ t.Reaches dump env t.spec.units.length ∧
      L.system.systemPorts = t.system.systemPorts) ∨
    ∃ n L stop, t.instantiateUnits dump env { system := t.system } = .error (L, stop) ∧
      Built t dump env n L ∧ StopsAtUnit t dump env n stop := by
  have hrun := foldlM_run
    (fun (L : Layout) (u : SpecUnit × ℕ) => L.instantiate t.factory dump env u.2 u.1)
    t.spec.units.zipIdx
    (fun done L => Built t dump env done.length L ∧ t.Reaches dump env done.length ∧
      L.system.systemPorts = t.system.systemPorts) [] _
    { system := t.system } ⟨.start hs, fun i hi => absurd hi (Nat.not_lt_zero i), rfl⟩ ?_ rfl
  · rcases hrun with ⟨L, hL, hB, hr, hports⟩ | ⟨⟨M, stop⟩, done, x, L, hL, hstop⟩
    · rw [List.length_zipIdx] at hB hr
      exact .inl ⟨L, hL, hB, hr, hports⟩
    · obtain ⟨later, hlater⟩ := hstop.before
      obtain ⟨hidx, hsu⟩ := eq_length_of_zipIdx hlater.symm
      have hx := hstop.stop
      rw [hidx] at hx
      rcases hstop.inv.1.instantiate hs hstop.inv.2.1 hsu with ⟨-, M', hM', -⟩ | ⟨stop', hstop', hS⟩
      · exact absurd (hx.symm.trans hM') (by simp)
      · obtain ⟨rfl, rfl⟩ := Prod.mk.inj (Except.error.inj (hx.symm.trans hstop'))
        exact .inr ⟨_, _, _, hL, hstop.inv.1, hS⟩
  · rintro done x L M ⟨later, hlater⟩ ⟨hB, hr, hports⟩ hM
    obtain ⟨hidx, hsu⟩ := eq_length_of_zipIdx hlater
    rw [hidx] at hM
    rw [List.length_append, List.length_singleton]
    rcases hB.instantiate hs hr hsu with ⟨hreg, M', hM', hB', hports'⟩ | ⟨stop, hstop, -⟩
    · obtain rfl := Except.ok.inj (hM.symm.trans hM')
      refine ⟨hB', fun i hi => ?_, hports'.trans hports⟩
      rcases Nat.lt_succ_iff_lt_or_eq.mp hi with hi | rfl
      · exact hr i hi
      · exact hreg
    · exact absurd (hM.symm.trans hstop) (by simp)

/-! ## A document with two units -/

/-- A factory of one unit type, without ports. -/
def cameraFactory : UnitFactory where
  types := (∅ : Table String UnitFactory.Entry).insert "vision.Camera"
    ⟨{ typeName := "vision.Camera" }, fun name _ => .created (.new 0 name)⟩

/-- Addresses are handed out in order, and every adapter is there. -/
def freshAddresses : LayoutEnv where
  address i := i + 1
  injected _ := true

/-- Two cameras; `system` and the second camera take these further members. -/
def twoCameras (system camera : List (String × Json)) : Json :=
  .object [("specVersion", .string "1.0"),
    ("system", .object (("name", .string "rig") :: system)),
    ("units", .array [
      .object [("name", .string "left"), ("type", .string "vision.Camera")],
      .object ([("name", .string "right"), ("type", .string "vision.Camera")] ++ camera)])]

/-- What `loadSystemFromSpec` makes of the two cameras, at its first layout. -/
def loadTwoCameras (system camera : List (String × Json)) : Option SpecSystem :=
  (loadSystemFromSpec (twoCameras system camera) [] cameraFactory (fun _ => "") 0).1.map
    SpecSystem.atLayout

/-- What `loadSystemFromSpec` yields has been parsed and validated. -/
theorem loadSystemFromSpec_eq_some {doc : Json} {errors : List SpecError} {factory : UnitFactory}
    {objectSize : ℕ} (h : (loadSystemFromSpec doc errors factory dump objectSize).1 = some t) :
    ∃ spec found, SystemSpec.parse doc [] = (some spec, found) ∧
      (spec.validate factory dump found).1 = true ∧
      SpecSystem.new spec factory objectSize = some t := by
  unfold loadSystemFromSpec at h
  split at h
  · cases h
  next spec found hparse =>
    refine ⟨spec, found, hparse, ?_⟩
    split at h
    · cases h
    next hvalid => exact ⟨congrArg Prod.fst hvalid, h⟩

theorem layoutStart_loadTwoCameras {system camera : List (String × Json)}
    (h : loadTwoCameras system camera = some t) : LayoutStart t.system freshAddresses := by
  obtain ⟨t', ht', rfl⟩ := Option.map_eq_some_iff.mp h
  obtain ⟨spec, found, -, -, hnew⟩ := loadSystemFromSpec_eq_some ht'
  exact layoutStart_new hnew (add_left_injective 1)

end AxonVex
