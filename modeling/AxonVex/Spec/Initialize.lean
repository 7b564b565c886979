import AxonVex.Spec.Rollback

/-!
# Spec/Initialize — the units that a load leaves behind

`initialize()` calls `initializeBlocksLayout()`, which a derived class defines: `initializeWith` has
the layout as a parameter, and a `SpecSystem` has the layout of its spec.

A load wires the units it has registered with one another and touches no older unit (`Inward`).  So
however it ends, by success, by a rollback or by an exception that passes the loader, the registry
is the old one, joined by units that are connected with one another only (`SpecLoad.joined_of_run`).
-/

namespace AxonVex

open Machinery

/-! ## Where the ports of a unit lead -/

namespace ProcessingUnit

variable {u : ProcessingUnit} {p q : PortPtr}

/-- The ports that the writing ports of a unit are connected to. -/
def targets (u : ProcessingUnit) : List PortPtr :=
  (u.outputPorts.values ++ u.asyncOutputPorts.values).flatMap (·.connections)

theorem mem_targets : q ∈ u.targets ↔ (∃ i port, u.outputPorts.lookup i = some port ∧
    q ∈ port.connections) ∨ ∃ i port, u.asyncOutputPorts.lookup i = some port ∧
      q ∈ port.connections := by
  simp only [targets, List.mem_flatMap, List.mem_append, AList.mem_values]
  constructor
  · rintro ⟨port, ⟨i, h⟩ | ⟨i, h⟩, hq⟩
    · exact .inl ⟨i, port, h, hq⟩
    · exact .inr ⟨i, port, h, hq⟩
  · rintro (⟨i, port, h, hq⟩ | ⟨i, port, h, hq⟩)
    · exact ⟨port, .inl ⟨i, h⟩, hq⟩
    · exact ⟨port, .inr ⟨i, h⟩, hq⟩

theorem mem_targets_of_outPort? {port : OutPort} (h : u.outPort? p = some port)
    (hq : q ∈ port.connections) : q ∈ u.targets := by
  unfold outPort? at h
  split at h
  · exact mem_targets.mpr (.inl ⟨p.id, port, h, hq⟩)
  · exact mem_targets.mpr (.inr ⟨p.id, port, h, hq⟩)
  · cases h
  · cases h

/-- A connection of one port is changed. -/
theorem exists_of_lookup_modify {t : Table ℤ OutPort} {f : OutPort → OutPort} {P : PortPtr → Prop}
    (hf : ∀ port, q ∈ (f port).connections → q ∈ port.connections ∨ P q) {k i : ℤ} {port : OutPort}
    (h : (t.modify k f).lookup i = some port) (hq : q ∈ port.connections) :
    (∃ port, t.lookup i = some port ∧ q ∈ port.connections) ∨ P q := by
  by_cases hi : i = k
  · subst hi
    rw [AList.lookup_modify_self] at h
    obtain ⟨port, hport, rfl⟩ := Option.map_eq_some_iff.mp h
    exact (hf port hq).imp_left fun hq => ⟨port, hport, hq⟩
  · rw [AList.lookup_modify_ne hi] at h
    exact .inl ⟨port, h, hq⟩

/-- **The ports a unit leads to, once one of its writing ports is changed.** -/
theorem mem_targets_of_modifyOut {f : OutPort → OutPort} {P : PortPtr → Prop}
    (hf : ∀ port, q ∈ (f port).connections → q ∈ port.connections ∨ P q)
    (h : q ∈ (u.modifyOut p f).targets) : q ∈ u.targets ∨ P q := by
  unfold modifyOut at h
  split at h
  · rcases mem_targets.mp h with ⟨i, port, hport, hq⟩ | hasync
    · exact (exists_of_lookup_modify hf hport hq).imp_left fun hold =>
        mem_targets.mpr (.inl ⟨i, hold⟩)
    · exact .inl (mem_targets.mpr (.inr hasync))
  · rcases mem_targets.mp h with hsync | ⟨i, port, hport, hq⟩
    · exact .inl (mem_targets.mpr (.inl hsync))
    · exact (exists_of_lookup_modify hf hport hq).imp_left fun hold =>
        mem_targets.mpr (.inr ⟨i, hold⟩)
  · exact .inl h
  · exact .inl h

theorem mem_targets_of_connect {target : PortPtr}
    (h : q ∈ (u.modifyOut p (·.connect target)).targets) : q ∈ u.targets ∨ q = target :=
  mem_targets_of_modifyOut (P := (· = target)) (fun _ => OutPort.mem_connect.mp) h

@[simp] theorem modifyIn_targets (f : InPort → InPort) : (u.modifyIn p f).targets = u.targets := by
  unfold modifyIn
  split <;> rfl

@[simp] theorem modifyIn_ptr (f : InPort → InPort) : (u.modifyIn p f).ptr = u.ptr := by
  unfold modifyIn
  split <;> rfl

end ProcessingUnit

/-! ## The layout as a parameter -/

namespace AxonVexSystem

variable {s t : AxonVexSystem} {caller : Thread} {env : InitializeEnv} {res : CallResult}

/-- `initialize(configPath)` once `initializeBlocksLayout()` has ended. -/
def finishLayout (env : InitializeEnv) : AxonVexSystem × LayoutResult → AxonVexSystem × CallResult
  | (s, .returnsTrue) => s.startWorkers env
  | (s, .returnsFalse) => (s.failInitialize, .returned false)
  | (s, .throwsStdException) => (s.catchInitialize, .returned false)
  | (s, .throwsOther) => (s, .escaped)

/-- `initialize(configPath)` after its transition to `INITIALIZING`, of a class with this layout. -/
def configureAndStartWith (s : AxonVexSystem) (env : InitializeEnv)
    (layout : AxonVexSystem → AxonVexSystem × LayoutResult) : AxonVexSystem × CallResult :=
  if env.configPath ≠ "" ∧ !(s.configuration.isSome && env.configLoads) then (s, .returned false)
  else finishLayout env (layout s)

/-- `initialize(configPath)` of a class with this `initializeBlocksLayout()`. -/
def initializeWith (s : AxonVexSystem) (caller : Thread) (env : InitializeEnv)
    (layout : AxonVexSystem → AxonVexSystem × LayoutResult) : Outcome (AxonVexSystem × CallResult) :=
  if s.isOnWorkerThread caller then .returned (s, .returned false)
  else s.joinStaleWorkers.andThen fun s =>
    let (s, ok) := s.initializeComponents env.fault
    if !ok then .returned (s, .returned false)
    else
      let (s, valid) := s.transitionState .initializing
      if valid then .returned (s.configureAndStartWith env layout)
      else .returned (s, .returned false)

theorem unitRegistry_catchInitialize : s.catchInitialize.unitRegistry = s.unitRegistry :=
  (sameRegistries_transitionState (s := s.cleanupComponents) .error).1

theorem unitRegistry_startWorkers (env : InitializeEnv) :
    (s.startWorkers env).1.unitRegistry = s.unitRegistry := by
  have hm : SameRegistries s (s.clearShutdownLatch.startMonitor env.monitorSpawned).1 :=
    SameRegistries.trans ⟨rfl, rfl⟩ (sameRegistries_startMonitor _)
  have hd : SameRegistries s ((s.clearShutdownLatch.startMonitor env.monitorSpawned).1.startDispatch
      env.dispatchSpawned).1 := hm.trans ⟨rfl, rfl⟩
  unfold startWorkers
  dsimp only
  split
  · exact unitRegistry_catchInitialize.trans hm.1
  · split
    · exact unitRegistry_catchInitialize.trans hd.1
    · have hs := hd.trans (sameRegistries_transitionState .initialized)
      split
      · exact hs.1
      · exact hs.1

theorem unitRegistry_finishLayout (p : AxonVexSystem × LayoutResult) :
    (finishLayout env p).1.unitRegistry = p.1.unitRegistry := by
  obtain ⟨s, ended⟩ := p
  cases ended with
  | returnsTrue => exact unitRegistry_startWorkers env
  | returnsFalse => exact (sameRegistries_transitionState .error).1
  | throwsStdException => exact unitRegistry_catchInitialize
  | throwsOther => rfl

/-- A system that `initialize()` builds its layout on: it is not running, and its timing controller
is new. -/
structure ReadyForLayout (s : AxonVexSystem) : Prop where
  notRunning : s.isRunning = false
  noTask : ∀ c ∈ s.timingController, c.unitToTaskId = ∅

theorem noTask_of_initializeComponents {fault : Option ComponentFault}
    (h : (s.initializeComponents fault).2 = true) :
    ∀ c ∈ (s.initializeComponents fault).1.timingController, c.unitToTaskId = ∅ := by
  unfold initializeComponents at h ⊢
  dsimp only at h ⊢
  split_ifs at h ⊢
  intro c hc
  obtain ⟨⟩ := hc
  rfl

theorem ReadyForLayout.transition {newState : SystemState} (hstate : newState ≠ .running)
    (h : ∀ c ∈ s.timingController, c.unitToTaskId = ∅)
    (hvalid : (s.transitionState newState).2 = true) :
    (s.transitionState newState).1.ReadyForLayout where
  notRunning := by
    rw [transitionState_snd] at hvalid
    rw [isRunning, transitionState_state, if_pos hvalid]
    simpa using hstate
  noTask := by rwa [transitionState_timingController]

/-- **What `initialize()` does to the units**: nothing but what its layout does. -/
theorem unitRegistry_initializeWith {layout : AxonVexSystem → AxonVexSystem × LayoutResult}
    (h : s.initializeWith caller env layout = .returned (t, res)) :
    t.unitRegistry = s.unitRegistry ∨
      ∃ u : AxonVexSystem, u.unitRegistry = s.unitRegistry ∧ u.ReadyForLayout ∧
        t.unitRegistry = (layout u).1.unitRegistry := by
  unfold initializeWith at h
  split at h
  · obtain ⟨rfl, -⟩ := Outcome.pair_inj h
    exact .inl rfl
  · obtain ⟨u, hu, h⟩ := Outcome.andThen_eq_returned.mp h
    have hsu := (sameRegistries_joinStaleWorkers hu).trans
      (sameRegistries_initializeComponents env.fault)
    have hsv := hsu.trans (sameRegistries_transitionState .initializing)
    dsimp only at h
    split at h
    · obtain ⟨rfl, -⟩ := Outcome.pair_inj h
      exact .inl hsu.1
    next hok =>
      split at h
      next hvalid =>
        have hend := congrArg Prod.fst (Outcome.returned.inj h)
        unfold configureAndStartWith at hend
        split at hend
        · obtain rfl := hend
          exact .inl hsv.1
        · refine .inr ⟨_, hsv.1, .transition (by decide)
            (noTask_of_initializeComponents (by simpa using hok)) hvalid, ?_⟩
          rw [← @unitRegistry_finishLayout env, hend]
      · obtain ⟨rfl, -⟩ := Outcome.pair_inj h
        exact .inl hsv.1

end AxonVexSystem

/-! ## Units that join a registry -/

/-- Units at addresses from `n` on and below `m` have joined a registry, connected with one another
only. -/
structure UnitRegistry.Joined (r r' : UnitRegistry) (n m : ℕ) : Prop where
  valid : r'.Valid
  kept : ∀ u ∈ r.all, u ∈ r'.all
  joined : ∀ u ∈ r'.all, u ∈ r.all ∨
    (n ≤ u.ptr ∧ u.ptr < m) ∧ ∀ q ∈ u.targets, r'.Owns q.owner

theorem UnitRegistry.Joined.refl {r : UnitRegistry} {n m : ℕ} (h : r.Valid) : r.Joined r n m :=
  ⟨h, fun _ => id, fun _ => .inl⟩

theorem UnitRegistry.mem_all {r : UnitRegistry} {u : ProcessingUnit} :
    u ∈ r.all ↔ ∃ id, r.units.lookup id = some u := AList.mem_values

/-! ## The wiring of a load -/

variable {t : SpecSystem} {dump : Json → String} {env : LayoutEnv} {first n i : ℕ} {L M : Layout}
  {su : SpecUnit}

namespace Layout

/-- No port of a unit registered from `first` on is connected. -/
def Bare (first : ℕ) (L : Layout) : Prop :=
  ∀ id u, first ≤ id → L.system.unitRegistry.units.lookup id = some u → u.targets = []

/-- **The units registered from `first` on are connected with one another only.** -/
def Inward (env : LayoutEnv) (n first : ℕ) (L : Layout) : Prop :=
  ∀ id u, first ≤ id → L.system.unitRegistry.units.lookup id = some u →
    ∀ q ∈ u.targets, env.Covers n q.owner

theorem Bare.inward (h : L.Bare first) : L.Inward env n first := by
  intro id u hid hu q hq
  rw [h id u hid hu] at hq
  exact absurd hq List.not_mem_nil

end Layout

theorem AxonVexSystem.add_of_registerProcessingUnit {s s' : AxonVexSystem} {unit : ProcessingUnit}
    {constraints : TimingConstraints} {now : TimePoint} {id : ℕ}
    (h : s.registerProcessingUnit unit constraints now = (s', some id)) :
    s.unitRegistry.add unit = some (id, s'.unitRegistry) := by
  unfold registerProcessingUnit at h
  split at h
  · exact absurd (Prod.mk.inj h).2 (by simp)
  next unitId r hadd =>
    obtain ⟨hs', ⟨⟩⟩ := Prod.mk.inj h
    rw [hadd, ← hs', publish_unitRegistry]
    refine congrArg (fun r => some (_, r)) ?_
    dsimp only
    split
    · exact (sameRegistries_scheduleUnit (s := { s with unitRegistry := r }) unit _ now).1.symm
    · rfl

namespace Layout

/-- A unit that is registered is the one created, with its ports as they were. -/
theorem add_of_instantiate {factory : UnitFactory}
    (h : L.instantiate factory dump env i su = .ok M) :
    ∃ unit u id, factory.create dump su.type su.name su.params = .created unit ∧
      u.targets = unit.targets ∧ L.system.unitRegistry.add u = some (id, M.system.unitRegistry) := by
  unfold instantiate at h
  split at h
  · exact absurd h (by simp [fail])
  · cases h
  · exact absurd h (by simp [fail])
  next unit hunit =>
    unfold registerUnit at h
    split at h
    · cases h
    next u hu =>
      split at h
      · exact absurd h (by simp [fail])
      next s id hreg =>
        refine ⟨unit, u, id, hunit, ?_, ?_⟩
        · split_ifs at hu
          · unfold ProcessingUnit.setDownSamplingFactor at hu
            split_ifs at hu
            exact Except.ok.inj hu ▸ rfl
          · exact Except.ok.inj hu ▸ rfl
        · exact Except.ok.inj h ▸ AxonVexSystem.add_of_registerProcessingUnit hreg

/-- A pass that stops at a unit leaves what it found. -/
theorem instantiate_error {factory : UnitFactory} {stop : LayoutStop}
    (h : L.instantiate factory dump env i su = .error (M, stop)) : M = L := by
  have key {stop'} (h : (.error (L, stop') : LayoutPass) = .error (M, stop)) : M = L :=
    (Prod.mk.inj (Except.error.inj h)).1.symm
  unfold instantiate at h
  split at h
  · exact key h
  · exact key h
  · exact key h
  · unfold registerUnit at h
    split at h
    · exact key h
    · split at h
      · exact key h
      · cases h

theorem Bare.instantiate (h : L.Bare first)
    (hunwired : ∀ unit, t.factory.create dump su.type su.name su.params = .created unit →
      unit.targets = [])
    (hM : L.instantiate t.factory dump env i su = .ok M) : M.Bare first := by
  obtain ⟨unit, u, id, hunit, htargets, hadd⟩ := add_of_instantiate hM
  obtain ⟨-, hunits, -⟩ := UnitRegistry.lookup_add hadd
  intro id' v hid hv
  rw [hunits] at hv
  rcases AList.lookup_insert_eq_some.mp hv with ⟨-, rfl⟩ | ⟨-, hv⟩
  · exact htargets.trans (hunwired unit hunit)
  · exact h id' v hid hv

/-- **A wire leads to a unit of the spec.** -/
theorem Inward.wire (h : L.Inward env n first) (hB : Built t dump env n L) {conn : SpecConnection}
    (hM : L.wire conn = .ok M) : M.Inward env n first := by
  by_cases hw : ∃ source target, L.Wires conn source target
  · obtain ⟨source, target, hw⟩ := hw
    rw [wire_of_wires hw] at hM
    obtain rfl := Except.ok.inj hM
    intro id u hid hu q hq
    unfold AxonVexSystem.modifyUnit at hu
    split at hu
    · exact h id u hid hu q hq
    next k hk =>
      by_cases hidk : id = k
      · subst hidk
        rw [AList.lookup_modify_self] at hu
        obtain ⟨v, hv, rfl⟩ := Option.map_eq_some_iff.mp hu
        rcases ProcessingUnit.mem_targets_of_connect hq with hq | rfl
        · exact h id v hid hv q hq
        · exact hB.covers_of_resolve hw.resolveTarget
      · rw [AList.lookup_modify_ne hidk] at hu
        exact h id u hid hu q hq
  · obtain ⟨e, he⟩ := wire_refused fun source target hc => hw ⟨source, target, hc⟩
    rw [he] at hM
    exact absurd hM (by simp)

theorem Inward.assign (h : L.Inward env n first) {d : Direction} {name ref : String}
    (hM : L.assignOf d name ref = .ok M) : M.Inward env n first := by
  obtain ⟨port, hn, -⟩ := names_of_assignOf hM
  obtain ⟨s, hs, -, hreg, -⟩ := assignOf_of_names hn
  obtain rfl := Except.ok.inj (hs.symm.trans hM)
  intro id u hid hu
  rw [hreg] at hu
  exact h id u hid hu

end Layout

/-- No unit that the factory makes for this spec is born with a connection. -/
def SystemSpec.Unwired (spec : SystemSpec) (factory : UnitFactory) (dump : Json → String) : Prop :=
  ∀ su ∈ spec.units, ∀ unit,
    factory.create dump su.type su.name su.params = .created unit → unit.targets = []

theorem bare_instantiateUnits (hs : LayoutStart t.system env) (hunwired : t.spec.Unwired t.factory dump) :
    (∀ L, t.instantiateUnits dump env { system := t.system } = .ok L →
      L.Bare t.system.unitRegistry.nextUnitId) ∧
    ∀ L stop, t.instantiateUnits dump env { system := t.system } = .error (L, stop) →
      L.Bare t.system.unitRegistry.nextUnitId := by
  have hstart : Layout.Bare t.system.unitRegistry.nextUnitId { system := t.system } :=
    fun id u hid hu => absurd (hs.valid.fresh id (AList.mem_of_lookup hu)) hid.not_gt
  have hrun := foldlM_run
    (fun (L : Layout) (u : SpecUnit × ℕ) => L.instantiate t.factory dump env u.2 u.1)
    t.spec.units.zipIdx (fun _ L => L.Bare t.system.unitRegistry.nextUnitId) [] _
    { system := t.system } hstart ?_ rfl
  · unfold SpecSystem.instantiateUnits
    rcases hrun with ⟨L, hL, hbare⟩ | ⟨⟨M, stop⟩, done, x, L, hM, hstop⟩
    · rw [hL]
      exact ⟨fun L' hL' => Except.ok.inj hL' ▸ hbare, fun _ _ h => absurd h (by simp)⟩
    · rw [hM]
      refine ⟨fun _ h => absurd h (by simp), fun L' stop' h => ?_⟩
      obtain ⟨rfl, -⟩ := Prod.mk.inj (Except.error.inj h)
      obtain rfl := Layout.instantiate_error hstop.stop
      exact hstop.inv
  · rintro done x L M ⟨later, hlater⟩ hbare hM
    have hx : x ∈ t.spec.units.zipIdx := by simp [← hlater]
    exact hbare.instantiate (hunwired x.1 (List.fst_mem_of_mem_zipIdx hx)) hM

/-- **Where the passes of a layout end**, as far as the units are concerned. -/
theorem layoutPasses_units (dump : Json → String) (hs : LayoutStart t.system env)
    (hunwired : t.spec.Unwired t.factory dump) :
    (∃ L n, t.layoutPasses dump env = .ok L ∧ Built t dump env n L ∧
      L.Inward env n t.system.unitRegistry.nextUnitId) ∨
    (∃ L n e, t.layoutPasses dump env = .error (L, .failed e) ∧ Built t dump env n L) ∨
    ∃ L n, t.layoutPasses dump env = .error (L, .escaped) ∧ Built t dump env n L ∧
      L.Inward env n t.system.unitRegistry.nextUnitId := by
  obtain ⟨hok, herror⟩ := bare_instantiateUnits hs hunwired
  unfold SpecSystem.layoutPasses
  rcases instantiateUnits_run dump hs with ⟨L, hL, hB, -⟩ | ⟨n, L, stop, hL, hB, -⟩
  · rw [hL]
    have hI : L.Inward env t.spec.units.length t.system.unitRegistry.nextUnitId := (hok L hL).inward
    rcases SpecSystem.wireUnits_run
        (P := fun L => Built t dump env t.spec.units.length L ∧
          L.Inward env t.spec.units.length t.system.unitRegistry.nextUnitId)
        (fun hL hM => ⟨hL.1.wire hM, hL.2.wire hL.1 hM⟩)
        (fun hL hM => ⟨hL.1.assign hM, hL.2.assign hM⟩) ⟨hB, hI⟩ with ⟨M, hM, hend⟩ | ⟨M, e, hM, hend⟩
    · exact .inl ⟨M, _, hM, hend⟩
    · exact .inr (.inl ⟨M, _, e, hM, hend.1⟩)
  · rw [hL]
    cases stop with
    | failed e => exact .inr (.inl ⟨L, n, e, rfl, hB⟩)
    | escaped => exact .inr (.inr ⟨L, n, rfl, hB, (herror L _ hL).inward⟩)

/-! ## The three ends -/

/-- The units of the spec that are registered. -/
theorem Built.registered (h : Built t dump env n L) (hi : i < n) :
    ∃ su u v, t.spec.units[i]? = some su ∧ su.ready t.factory dump (env.address i) = some u ∧
      L.system.unitRegistry.units.lookup (t.system.unitRegistry.nextUnitId + i) = some v ∧
      v.ptr = env.address i := by
  obtain ⟨su, u, v, hsu, hready, hv, hptr, -⟩ := h.newer i hi
  obtain ⟨-, -, hu, -⟩ := SpecUnit.created_of_ready hready
  exact ⟨su, u, v, hsu, hready, hv, hptr.trans hu⟩

/-- A layout that is kept: the first `n` units of the spec have joined. -/
theorem Built.joined (h : Built t dump env n L) (hs : LayoutStart t.system env)
    (hin : L.Inward env n t.system.unitRegistry.nextUnitId) {a : ℕ}
    (haddress : ∀ i, env.address i = a + i) :
    t.system.unitRegistry.Joined L.system.unitRegistry a (a + t.spec.units.length) where
  valid := h.valid
  kept u hu := by
    obtain ⟨id, hid⟩ := UnitRegistry.mem_all.mp hu
    refine UnitRegistry.mem_all.mpr ⟨id, ?_⟩
    rw [h.older id (hs.valid.fresh id (AList.mem_of_lookup hid)), hid]
  joined u hu := by
    obtain ⟨id, hid⟩ := UnitRegistry.mem_all.mp hu
    rcases lt_or_ge id t.system.unitRegistry.nextUnitId with hlt | hge
    · rw [h.older id hlt] at hid
      exact .inl (UnitRegistry.mem_all.mpr ⟨id, hid⟩)
    · have hlt : id < t.system.unitRegistry.nextUnitId + n :=
        h.nextUnitId ▸ h.valid.fresh id (AList.mem_of_lookup hid)
      obtain ⟨i, rfl⟩ := Nat.exists_eq_add_of_le hge
      obtain ⟨su, -, v, hsu, -, hv, hptr⟩ := h.registered (i := i) (by omega)
      obtain rfl : u = v := Option.some.inj (hid.symm.trans hv)
      have hlen := (List.getElem?_eq_some_iff.mp hsu).1
      have haddr : u.ptr = a + i := hptr.trans (haddress i)
      refine .inr ⟨?_, fun q hq => ?_⟩
      · rw [haddr]
        exact ⟨Nat.le_add_right a i, Nat.add_lt_add_left hlen a⟩
      · obtain ⟨j, hj, hq⟩ := hin _ u hge hid q hq
        obtain ⟨-, -, w, -, -, hw, hw'⟩ := h.registered hj
        exact ⟨_, w, hw, hw'.trans hq.symm⟩

theorem valid_unregisterProcessingUnit {s : AxonVexSystem} (h : s.unitRegistry.Valid) (id : ℕ) :
    (s.unregisterProcessingUnit id).1.unitRegistry.Valid := by
  unfold AxonVexSystem.unregisterProcessingUnit
  split
  · exact h
  next hrem => exact h.remove hrem

/-- A layout that is rolled back: the registry holds what it held. -/
theorem Built.joined_rollback (h : Built t dump env n L) (hs : LayoutStart t.system env) {a m : ℕ} :
    t.system.unitRegistry.Joined L.rollback.unitRegistry a m := by
  have hall (u : ProcessingUnit) :
      u ∈ L.rollback.unitRegistry.all ↔ u ∈ t.system.unitRegistry.all := by
    rw [UnitRegistry.mem_all, UnitRegistry.mem_all]
    exact exists_congr fun id => by rw [h.lookup_rollback hs]
  refine ⟨?_, fun u => (hall u).mpr, fun u hu => .inl ((hall u).mp hu)⟩
  have key (ids : List ℕ) (s : AxonVexSystem) (hv : s.unitRegistry.Valid) :
      (ids.foldl (fun s id => (s.unregisterProcessingUnit id).1) s).unitRegistry.Valid := by
    induction ids generalizing s with
    | nil => exact hv
    | cons id ids ih => exact ih _ (valid_unregisterProcessingUnit hv id)
  exact key _ _ h.valid

/-! ## Loads -/

/-- What a load of a spec consists of. -/
structure SpecLoad where
  caller : Thread
  spec : SystemSpec
  factory : UnitFactory
  dump : Json → String
  injected : String → Bool
  now : TimePoint
  env : AxonVexSystem.InitializeEnv
  /-- an exception that passes the loader is a `std::exception` -/
  standard : Bool
  unwired : spec.Unwired factory dump

namespace SpecLoad

variable (x : SpecLoad) {s s' : AxonVexSystem} {a : ℕ} {res : AxonVexSystem.CallResult}

/-- The spec system on `s`. -/
def on (s : AxonVexSystem) : SpecSystem := { system := s, spec := x.spec, factory := x.factory }

/-- Its units are created at consecutive addresses from `a` on. -/
def layoutEnv (a : UnitPtr) : LayoutEnv := { address := (a + ·), now := x.now, injected := x.injected }

/-- `initializeBlocksLayout()` as `initialize()` sees it. -/
def layout (a : UnitPtr) (s : AxonVexSystem) : AxonVexSystem × AxonVexSystem.LayoutResult :=
  match (x.on s).initializeBlocksLayout x.dump (x.layoutEnv a) with
  | (t, .returned true) => (t.system, .returnsTrue)
  | (t, .returned false) => (t.system, .returnsFalse)
  | (t, .escaped) => (t.system, if x.standard then .throwsStdException else .throwsOther)

/-- `initialize(configPath)` of the spec system. -/
def run (a : UnitPtr) (s : AxonVexSystem) : Outcome (AxonVexSystem × AxonVexSystem.CallResult) :=
  s.initializeWith x.caller x.env (x.layout a)

theorem layout_fst : (x.layout a s).1 =
    ((x.on s).initializeBlocksLayout x.dump (x.layoutEnv a)).1.system := by
  unfold layout
  split
  next h => rw [h]
  next h => rw [h]
  next h => rw [h]

/-- **A layout, however it ends.** -/
theorem joined_layout (hready : s.ReadyForLayout) (hvalid : s.unitRegistry.Valid)
    (hbelow : ∀ ptr, s.unitRegistry.Owns ptr → ptr < a) :
    s.unitRegistry.Joined (x.layout a s).1.unitRegistry a (a + x.spec.units.length) := by
  have hs : LayoutStart (x.on s).system (x.layoutEnv a) :=
    ⟨hvalid, hready.notRunning, hready.noTask, add_right_injective a,
      fun i ho => absurd (hbelow _ ho) (by simp [layoutEnv])⟩
  rw [layout_fst]
  by_cases hmission : (x.on s).spec.missionPipelines = []
  · rcases layoutPasses_units x.dump hs x.unwired with
      ⟨L, n, hL, hB, hin⟩ | ⟨L, n, e, hL, hB⟩ | ⟨L, n, hL, hB, hin⟩
    · rw [(x.on s).initializeBlocksLayout_of_ok hmission hL]
      exact hB.joined hs hin fun _ => rfl
    · rw [(x.on s).initializeBlocksLayout_of_failed hmission hL]
      exact hB.joined_rollback hs
    · rw [(x.on s).initializeBlocksLayout_of_escaped hmission hL]
      exact hB.joined hs hin fun _ => rfl
  · obtain ⟨e, he⟩ := (x.on s).initializeBlocksLayout_of_mission x.dump (x.layoutEnv a) hmission
    rw [he]
    exact .refl hvalid

/-- **A load, however it ends**: the registry is the old one, joined by units of the spec that are
connected with one another only. -/
theorem joined_of_run (h : x.run a s = .returned (s', res)) (hvalid : s.unitRegistry.Valid)
    (hbelow : ∀ ptr, s.unitRegistry.Owns ptr → ptr < a) :
    s.unitRegistry.Joined s'.unitRegistry a (a + x.spec.units.length) := by
  rcases AxonVexSystem.unitRegistry_initializeWith h with hsame | ⟨u, hu, hready, hend⟩
  · rw [hsame]
    exact .refl hvalid
  · rw [hend, ← hu]
    exact x.joined_layout hready (hu ▸ hvalid) (hu ▸ hbelow)

end SpecLoad

end AxonVex
