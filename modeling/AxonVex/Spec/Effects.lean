import AxonVex.Spec.PortNames

/-!
# Spec/Effects — what each call of the loader does

One spec lemma for each call: registering and unregistering while the system is not running
(`registerProcessingUnit_of_room`, `unregisterProcessingUnit_of_mem`), connecting
(`tryConnect_of_connects`), assigning a system port of either direction
(`assignSystemPortOf_of_assigns`), and the way of one unit of the spec from its creation to its
registration (`instantiate_of_ready`).  No later proof unfolds them.
-/

namespace AxonVex

open Machinery

/-! ## The operations the loader uses -/

namespace AxonVexSystem

variable {s : AxonVexSystem} {unit : ProcessingUnit} {constraints : TimingConstraints}
  {now : TimePoint}

/-- The same lifecycle, system ports and scheduler. -/
structure SameBesidesUnits (s t : AxonVexSystem) : Prop where
  lifecycle : t.lifecycle = s.lifecycle
  timingController : t.timingController = s.timingController

theorem SameBesidesUnits.refl (s : AxonVexSystem) : SameBesidesUnits s s := ⟨rfl, rfl⟩

theorem SameBesidesUnits.trans {t u : AxonVexSystem} (h : SameBesidesUnits s t)
    (h' : SameBesidesUnits t u) : SameBesidesUnits s u :=
  ⟨h'.lifecycle.trans h.lifecycle, h'.timingController.trans h.timingController⟩

theorem SameBesidesUnits.isRunning {t : AxonVexSystem} (h : SameBesidesUnits s t) :
    t.isRunning = s.isRunning := by
  rw [AxonVexSystem.isRunning, AxonVexSystem.isRunning, state, state, h.lifecycle]

/-- A full registry refuses. -/
theorem registerProcessingUnit_of_full
    (h : s.unitRegistry.maxUnits ≤ s.unitRegistry.units.keys.length) :
    s.registerProcessingUnit unit constraints now = (s, none) := by
  simp [registerProcessingUnit, UnitRegistry.add, h]

/-- **Registering while the system is not running** moves the registry and nothing else. -/
theorem registerProcessingUnit_of_room (unit : ProcessingUnit) (constraints : TimingConstraints)
    (now : TimePoint) (hrun : s.isRunning = false)
    (h : s.unitRegistry.units.keys.length < s.unitRegistry.maxUnits) :
    ∃ t, s.registerProcessingUnit unit constraints now = (t, some s.unitRegistry.nextUnitId) ∧
      s.unitRegistry.add unit = some (s.unitRegistry.nextUnitId, t.unitRegistry) ∧
      t.systemPorts = s.systemPorts ∧ SameBesidesUnits s t := by
  obtain ⟨r, hadd⟩ : ∃ r, s.unitRegistry.add unit = some (s.unitRegistry.nextUnitId, r) :=
    ⟨_, if_neg h.not_ge⟩
  have hrun' : ({ s with unitRegistry := r } : AxonVexSystem).isRunning = false := hrun
  refine ⟨(s.registerProcessingUnit unit constraints now).1, ?_⟩
  simp only [registerProcessingUnit, hadd, hrun', Bool.false_eq_true, if_false,
    publish_unitRegistry, publish_systemPorts, true_and]
  exact ⟨rfl, rfl⟩

/-- **Unregistering without tasks** moves the registry and the system ports of the unit. -/
theorem unregisterProcessingUnit_of_mem {id : ℕ} {r : UnitRegistry}
    (h : s.unitRegistry.remove id = some (unit, r))
    (hidle : ∀ c ∈ s.timingController, c.unitToTaskId = ∅) :
    (s.unregisterProcessingUnit id).1.unitRegistry = r ∧
      (s.unregisterProcessingUnit id).1.systemPorts = s.systemPorts.removeAllForOwner unit.ptr ∧
      SameBesidesUnits s (s.unregisterProcessingUnit id).1 := by
  simp only [unregisterProcessingUnit, h, publish_unitRegistry, publish_systemPorts, true_and]
  refine ⟨rfl, ?_⟩
  rw [publish_timingController]
  cases hc : s.timingController with
  | none => rfl
  | some c =>
    have hmap : c.unitToTaskId = ∅ := hidle c hc
    simp [TimingController.removeProcessingUnit, hmap]

/-- The outcome of an unregistration of an id nobody has. -/
theorem unregisterProcessingUnit_of_notMem {id : ℕ} (h : s.unitRegistry.remove id = none) :
    s.unregisterProcessingUnit id = (s, false) := by
  simp only [unregisterProcessingUnit, h]

/-! Wiring -/

variable {ptr : UnitPtr} {f : ProcessingUnit → ProcessingUnit}

theorem modifyUnit_of_idOf {id : ℕ} (h : s.unitRegistry.idOf ptr = some id) :
    s.modifyUnit ptr f = { s with
      unitRegistry := { s.unitRegistry with units := s.unitRegistry.units.modify id f } } := by
  simp only [modifyUnit, h]

/-- Changing a unit in place, at its address, keeps the two maps of the registry in step. -/
theorem valid_modify {r : UnitRegistry} (hr : r.Valid) (hf : ∀ u, (f u).ptr = u.ptr) (id : ℕ) :
    UnitRegistry.Valid { r with units := r.units.modify id f } where
  fresh i hi := hr.fresh i ((AList.mem_modify ..).mp hi)
  agree ptr i := by
    have hmap (t : Table ℕ ProcessingUnit) :
        (∃ u, t.lookup i = some u ∧ u.ptr = ptr) ↔ (t.lookup i).map (·.ptr) = some ptr :=
      Option.map_eq_some_iff.symm
    rw [hmap, AList.map_lookup_modify f (·.ptr) hf, ← hmap]
    exact hr.agree ptr i

/-- The condition under which `tryConnect` connects, read off the ports of the two units. -/
def Connects (s : AxonVexSystem) (source target : PortPtr) : Prop :=
  ∃ u v T n m, s.unitRegistry.unitAt source.owner = some u ∧
    s.unitRegistry.unitAt target.owner = some v ∧ source.type.peer = some target.type ∧
    u.portAt source.type source.id = some (n, T) ∧ v.portAt target.type target.id = some (m, T)

theorem tryConnect_of_connects {source target : PortPtr} (h : s.Connects source target) :
    s.tryConnect source target =
      (s.modifyUnit source.owner (·.modifyOut source (·.connect target)), true) := by
  obtain ⟨u, v, T, n, m, hu, hv, hpeer, hout, hin⟩ := h
  have hsource : source.type = .syncOutput ∨ source.type = .asyncOutput := by
    cases hs : source.type <;> simp [hs, PortType.peer] at hpeer ⊢
  have htarget : target.type = .syncInput ∨ target.type = .asyncInput := by
    rcases hsource with hs | hs <;> rw [hs] at hpeer <;>
      simp only [PortType.peer, Option.some.injEq] at hpeer <;> simp [← hpeer]
  rw [← ProcessingUnit.outPort?_portAt source hsource, Option.map_eq_some_iff] at hout
  rw [← ProcessingUnit.inPort?_portAt target htarget, Option.map_eq_some_iff] at hin
  obtain ⟨p, hp, hpT⟩ := hout
  obtain ⟨q, hq, hqT⟩ := hin
  have hT : p.dataTypeName = q.dataTypeName :=
    (Prod.mk.inj hpT).2.trans (Prod.mk.inj hqT).2.symm
  simp only [tryConnect, hu, hv, Option.bind_some, hp, hq, hpeer, hT, and_self, if_true]

theorem tryConnect_of_not_connects {source target : PortPtr} (h : ¬ s.Connects source target) :
    s.tryConnect source target = (s, false) := by
  unfold tryConnect
  split
  next p q hp hq =>
    refine if_neg fun hc => h ?_
    obtain ⟨u, hu, hp⟩ := Option.bind_eq_some_iff.mp hp
    obtain ⟨v, hv, hq⟩ := Option.bind_eq_some_iff.mp hq
    have hsource : source.type = .syncOutput ∨ source.type = .asyncOutput := by
      cases hs : source.type <;> simp [ProcessingUnit.outPort?, hs] at hp ⊢
    have htarget : target.type = .syncInput ∨ target.type = .asyncInput := by
      cases hs : target.type <;> simp [ProcessingUnit.inPort?, hs] at hq ⊢
    refine ⟨u, v, p.dataTypeName, p.name, q.name, hu, hv, hc.1, ?_, ?_⟩
    · rw [← ProcessingUnit.outPort?_portAt source hsource, hp]
      rfl
    · rw [← ProcessingUnit.inPort?_portAt target htarget, hq, hc.2]
      rfl
  · rfl

end AxonVexSystem

/-! ## The two directions of a system port -/

/-- The system ports of one direction. -/
def SystemPortRegistry.table (r : SystemPortRegistry) : Direction → Table String PortPtr
  | .input => r.inputs
  | .output => r.outputs

/-- The entries of a spec of one direction. -/
def SpecSystemPorts.table (p : SpecSystemPorts) : Direction → Table String String
  | .input => p.inputs
  | .output => p.outputs

namespace AxonVexSystem

variable {s : AxonVexSystem} {d : Direction} {name : String} {unit : UnitPtr} {id : ℤ}

/-- The port of a unit that an index stands for, in the order `assignSystemPort` looks it up. -/
def portOf : Direction → ProcessingUnit → ℤ → Option PortPtr
  | .input => inputPortOf
  | .output => outputPortOf

theorem owner_portOf {u : ProcessingUnit} {port : PortPtr} (h : portOf d u id = some port) :
    port.owner = u.ptr := by
  cases d with
  | input =>
    simp only [portOf, inputPortOf] at h
    split_ifs at h <;> exact Option.some.inj h ▸ rfl
  | output =>
    simp only [portOf, outputPortOf] at h
    split_ifs at h <;> exact Option.some.inj h ▸ rfl

/-- The port assignment of one direction. -/
def assignSystemPortOf (s : AxonVexSystem) :
    Direction → String → UnitPtr → ℤ → AxonVexSystem × Bool
  | .input => s.assignSystemInputPort
  | .output => s.assignSystemOutputPort

/-- The condition under which a port is assigned. -/
structure Assigns (s : AxonVexSystem) (d : Direction) (name : String) (unit : UnitPtr) (id : ℤ)
    (port : PortPtr) : Prop where
  named : name ≠ ""
  found : ∃ u, s.unitRegistry.unitAt unit = some u ∧ portOf d u id = some port
  free : name ∉ s.systemPorts.table d

/-- An assignment that finds its port and a free name. -/
theorem assignSystemPort_of_found (find : ProcessingUnit → ℤ → Option PortPtr)
    (assign : SystemPortRegistry → String → PortPtr → Option SystemPortRegistry) (kind : String)
    {u : ProcessingUnit} {port : PortPtr} {r : SystemPortRegistry} (hname : name ≠ "")
    (hu : s.unitRegistry.unitAt unit = some u) (hport : find u id = some port)
    (hassign : assign s.systemPorts name port = some r) :
    ∃ t, s.assignSystemPort find assign kind name unit id = (t, true) ∧ t.systemPorts = r ∧
      t.unitRegistry = s.unitRegistry ∧ SameBesidesUnits s t := by
  have hname' : name.isEmpty = false := by simpa using hname
  refine ⟨(s.assignSystemPort find assign kind name unit id).1, ?_⟩
  simp only [assignSystemPort, hname', hu, hport, hassign, Bool.false_eq_true, if_false,
    publish_systemPorts, publish_unitRegistry, true_and]
  exact ⟨rfl, rfl⟩

theorem assignSystemPortOf_of_assigns {port : PortPtr} (h : s.Assigns d name unit id port) :
    ∃ t, s.assignSystemPortOf d name unit id = (t, true) ∧
      (∀ d', t.systemPorts.table d' =
        if d' = d then (s.systemPorts.table d).insert name port else s.systemPorts.table d') ∧
      t.unitRegistry = s.unitRegistry ∧ SameBesidesUnits s t := by
  obtain ⟨u, hu, hport⟩ := h.found
  cases d with
  | input =>
    obtain ⟨t, ht, hports, hrest⟩ := assignSystemPort_of_found inputPortOf
      SystemPortRegistry.assignInput "input" h.named hu hport (if_neg h.free)
    refine ⟨t, ht, fun d' => ?_, hrest⟩
    rw [hports]
    cases d' <;> rfl
  | output =>
    obtain ⟨t, ht, hports, hrest⟩ := assignSystemPort_of_found outputPortOf
      SystemPortRegistry.assignOutput "output" h.named hu hport (if_neg h.free)
    refine ⟨t, ht, fun d' => ?_, hrest⟩
    rw [hports]
    cases d' <;> rfl

theorem assignSystemPortOf_refused (h : ∀ port, ¬ s.Assigns d name unit id port) :
    s.assignSystemPortOf d name unit id = (s, false) := by
  have key (find : ProcessingUnit → ℤ → Option PortPtr)
      (assign : SystemPortRegistry → String → PortPtr → Option SystemPortRegistry) (kind : String)
      (h : ∀ u port, name ≠ "" → s.unitRegistry.unitAt unit = some u → find u id = some port →
        assign s.systemPorts name port = none) :
      s.assignSystemPort find assign kind name unit id = (s, false) := by
    unfold assignSystemPort
    split
    · rfl
    next hname =>
      split
      · rfl
      next u hu =>
        split
        · rfl
        next port hport =>
          rw [h u port (by simpa using hname) hu hport]
  cases d with
  | input =>
    refine key _ _ _ fun u port hname hu hport => if_pos ?_
    by_contra hfree
    exact h port ⟨hname, ⟨u, hu, hport⟩, hfree⟩
  | output =>
    refine key _ _ _ fun u port hname hu hport => if_pos ?_
    by_contra hfree
    exact h port ⟨hname, ⟨u, hu, hport⟩, hfree⟩

end AxonVexSystem

/-! ## One unit -/

namespace SpecUnit

variable (factory : UnitFactory) (dump : Json → String) (su : SpecUnit)

/-- The unit that is registered for `su` at the address `ptr`, if its creation and its factor let it
get that far. -/
def ready (ptr : UnitPtr) : Option ProcessingUnit :=
  match factory.create dump su.type su.name su.params with
  | .created unit =>
    if su.downSamplingFactor = 1 then some { unit with ptr }
    else if su.downSamplingFactor < 1 then none
    else some { unit with ptr, downSamplingFactor := su.downSamplingFactor }
  | _ => none

/-- An exception about `su` passes every `catch`: its creation throws something that is not a
`std::exception`, or its factor is refused. -/
def escapes : Bool :=
  match factory.create dump su.type su.name su.params with
  | .threwOther => true
  | .created _ => su.downSamplingFactor < 1
  | _ => false

variable {factory dump su} {ptr : UnitPtr} {u : ProcessingUnit}

/-- A unit that registers is the one created, at its address and with its factor. -/
theorem created_of_ready (h : su.ready factory dump ptr = some u) :
    ∃ unit, factory.create dump su.type su.name su.params = .created unit ∧ u.ptr = ptr ∧
      u.portAt = unit.portAt ∧ 1 ≤ su.downSamplingFactor := by
  unfold ready at h
  split at h
  next unit hunit =>
    refine ⟨unit, hunit, ?_⟩
    split_ifs at h with h1 h2
    · obtain ⟨⟩ := h
      exact ⟨rfl, rfl, h1.ge⟩
    · obtain ⟨⟩ := h
      exact ⟨rfl, rfl, not_lt.mp h2⟩
  · cases h

theorem ready_of_created {unit : ProcessingUnit}
    (h : factory.create dump su.type su.name su.params = .created unit)
    (hfactor : 1 ≤ su.downSamplingFactor) : ∃ u, su.ready factory dump ptr = some u := by
  unfold ready
  rw [h]
  dsimp only
  split_ifs with h1 h2
  · exact ⟨_, rfl⟩
  · exact absurd hfactor h2.not_ge
  · exact ⟨_, rfl⟩

end SpecUnit

namespace Layout

variable {L : Layout} {factory : UnitFactory} {dump : Json → String} {env : LayoutEnv} {i : ℕ}
  {su : SpecUnit} {u : ProcessingUnit} {s : AxonVexSystem} {res : Option ℕ}

theorem instantiate_of_escapes (h : su.escapes factory dump = true) :
    L.instantiate factory dump env i su = .error (L, .escaped) := by
  unfold SpecUnit.escapes at h
  unfold instantiate
  split at h
  next hc => rw [hc]
  next unit hc =>
    have hlt : su.downSamplingFactor < 1 := by simpa using h
    rw [hc]
    simp [registerUnit, ProcessingUnit.setDownSamplingFactor, hlt, hlt.ne]
  · cases h

theorem instantiate_of_refused (hready : su.ready factory dump (env.address i) = none)
    (hesc : su.escapes factory dump = false) :
    ∃ e, L.instantiate factory dump env i su = .error (L, .failed e) := by
  unfold SpecUnit.escapes at hesc
  unfold SpecUnit.ready at hready
  unfold instantiate
  cases hc : factory.create dump su.type su.name su.params with
  | threw what => exact ⟨_, rfl⟩
  | null => exact ⟨_, rfl⟩
  | threwOther => simp [hc] at hesc
  | created unit =>
    simp only [hc] at hready hesc
    split_ifs at hready with h1 h2
    simp [h2] at hesc

/-- A ready unit gets as far as its registration. -/
theorem instantiate_of_ready (hready : su.ready factory dump (env.address i) = some u)
    (hreg : L.system.registerProcessingUnit u (if su.hasTiming then su.timing else {}) env.now =
      (s, res)) :
    (∀ unitId, res = some unitId → L.instantiate factory dump env i su = .ok {
        system := s
        unitsByName := L.unitsByName.insert su.name u.ptr
        registeredUnitIds := L.registeredUnitIds ++ [unitId] }) ∧
      (res = none → ∃ e, L.instantiate factory dump env i su = .error (L, .failed e)) := by
  have key : ∃ unit, factory.create dump su.type su.name su.params = .created unit ∧
      (if su.downSamplingFactor ≠ 1 then
        ({ unit with ptr := env.address i } : ProcessingUnit).setDownSamplingFactor
          su.downSamplingFactor
      else .ok { unit with ptr := env.address i }) = .ok u := by
    unfold SpecUnit.ready at hready
    split at hready
    next unit hunit =>
      refine ⟨unit, hunit, ?_⟩
      split_ifs at hready with h1 h2
      · rw [if_neg (not_not_intro h1)]
        exact congrArg Except.ok (Option.some.inj hready)
      · rw [if_pos h1, ProcessingUnit.setDownSamplingFactor, if_neg h2]
        exact congrArg Except.ok (Option.some.inj hready)
    · exact absurd hready (by simp)
  obtain ⟨unit, hunit, hfactor⟩ := key
  simp only [instantiate, hunit, registerUnit, hfactor, hreg]
  constructor
  · rintro unitId rfl
    rfl
  · rintro rfl
    exact ⟨_, rfl⟩

/-! Wiring and assigning -/

/-- The two ports a connection of the spec joins. -/
structure Wires (L : Layout) (conn : SpecConnection) (source target : PortPtr) : Prop where
  resolveSource : L.resolve conn.source = some source
  resolveTarget : L.resolve conn.target = some target
  connects : L.system.Connects source target

theorem wire_of_wires {conn : SpecConnection} {source target : PortPtr}
    (h : L.Wires conn source target) :
    L.wire conn = .ok { L with
      system := L.system.modifyUnit source.owner (·.modifyOut source (·.connect target)) } := by
  simp only [wire, h.resolveSource, h.resolveTarget, AxonVexSystem.tryConnect_of_connects h.connects]

theorem wire_refused {conn : SpecConnection} (h : ∀ source target, ¬ L.Wires conn source target) :
    ∃ e, L.wire conn = .error (L, .failed e) := by
  unfold wire
  split
  next source target hsource htarget =>
    rw [AxonVexSystem.tryConnect_of_not_connects fun hc => h _ _ ⟨hsource, htarget, hc⟩]
    exact ⟨_, rfl⟩
  · exact ⟨_, rfl⟩

/-- A wire leaves the system ports alone. -/
theorem systemPorts_wire {conn : SpecConnection} {M : Layout} (h : L.wire conn = .ok M) :
    M.system.systemPorts = L.system.systemPorts := by
  by_cases hw : ∃ source target, L.Wires conn source target
  · obtain ⟨source, target, hw⟩ := hw
    obtain rfl := Except.ok.inj ((wire_of_wires hw).symm.trans h)
    unfold AxonVexSystem.modifyUnit
    split <;> rfl
  · obtain ⟨e, he⟩ := wire_refused fun source target hc => hw ⟨source, target, hc⟩
    exact absurd (h.symm.trans he) (by simp)

/-- One entry of the system ports of a direction. -/
def assignOf (L : Layout) : Direction → String → String → LayoutPass
  | .input => L.assignInput
  | .output => L.assignOutput

/-- The port an entry of the system ports is assigned to. -/
structure Names (L : Layout) (d : Direction) (name ref : String) (port : PortPtr) : Prop where
  intro ::
  assigns : ∃ unit found, L.resolve ref = some found ∧
    L.unitsByName.lookup (splitPortRef ref).1 = some unit ∧
    L.system.Assigns d name unit found.id port

theorem assignOf_of_names {d : Direction} {name ref : String} {port : PortPtr}
    (h : L.Names d name ref port) :
    ∃ s, L.assignOf d name ref = .ok { L with system := s } ∧
      (∀ d', s.systemPorts.table d' = if d' = d then (L.system.systemPorts.table d).insert name port
        else L.system.systemPorts.table d') ∧
      s.unitRegistry = L.system.unitRegistry ∧ L.system.SameBesidesUnits s := by
  obtain ⟨unit, found, hfound, hunit, hassign⟩ := h.assigns
  obtain ⟨s, hs, hrest⟩ := AxonVexSystem.assignSystemPortOf_of_assigns hassign
  refine ⟨s, ?_, hrest⟩
  cases d with
  | input =>
    have hs : L.system.assignSystemInputPort name unit found.id = (s, true) := hs
    simp only [assignOf, assignInput, assignPort, hfound, hunit, hs]
  | output =>
    have hs : L.system.assignSystemOutputPort name unit found.id = (s, true) := hs
    simp only [assignOf, assignOutput, assignPort, hfound, hunit, hs]

theorem assignOf_refused {d : Direction} {name ref : String} (h : ∀ port, ¬ L.Names d name ref port) :
    ∃ e, L.assignOf d name ref = .error (L, .failed e) := by
  have key (assign : AxonVexSystem → String → UnitPtr → ℤ → AxonVexSystem × Bool) (kind : String)
      (hassign : ∀ unit id, (∀ port, ¬ L.system.Assigns d name unit id port) →
        assign L.system name unit id = (L.system, false)) :
      ∃ e, L.assignPort assign kind name ref = .error (L, .failed e) := by
    unfold assignPort
    split
    next found unit hfound hunit =>
      rw [hassign unit found.id fun port hp => h port ⟨⟨unit, found, hfound, hunit, hp⟩⟩]
      exact ⟨_, rfl⟩
    · exact ⟨_, rfl⟩
  cases d with
  | input => exact key _ _ fun unit id => AxonVexSystem.assignSystemPortOf_refused
  | output => exact key _ _ fun unit id => AxonVexSystem.assignSystemPortOf_refused

/-- What an assignment that succeeds has done to the system ports. -/
theorem names_of_assignOf {d : Direction} {name ref : String} {M : Layout}
    (h : L.assignOf d name ref = .ok M) :
    ∃ port, L.Names d name ref port ∧ ∀ d', M.system.systemPorts.table d' =
      if d' = d then (L.system.systemPorts.table d).insert name port
      else L.system.systemPorts.table d' := by
  by_cases hn : ∃ port, L.Names d name ref port
  · obtain ⟨port, hn⟩ := hn
    obtain ⟨s, hs, htable, -⟩ := assignOf_of_names hn
    obtain rfl := Except.ok.inj (hs.symm.trans h)
    exact ⟨port, hn, htable⟩
  · obtain ⟨e, he⟩ := assignOf_refused fun port hc => hn ⟨port, hc⟩
    exact absurd (h.symm.trans he) (by simp)

end Layout

/-! ## The four ends of a layout -/

namespace SpecSystem

variable {t : SpecSystem} {dump : Json → String} {env : LayoutEnv} {L : Layout}

theorem initializeBlocksLayout_of_mission (t : SpecSystem) (dump : Json → String) (env : LayoutEnv) (h : t.spec.missionPipelines ≠ []) :
    ∃ e, t.initializeBlocksLayout dump env = ({ t with specErrors := [e] }, .returned false) := by
  have hne : (!t.spec.missionPipelines.isEmpty) = true := by simpa using h
  exact ⟨_, if_pos hne⟩

theorem initializeBlocksLayout_of_ok (h : t.spec.missionPipelines = [])
    (hL : t.layoutPasses dump env = .ok L) :
    t.initializeBlocksLayout dump env =
      ({ t with system := L.system, specErrors := [] }, .returned true) := by
  simp only [initializeBlocksLayout, h, hL, List.isEmpty_nil, Bool.not_true, Bool.false_eq_true,
    if_false]

theorem initializeBlocksLayout_of_failed {e : SpecError} (h : t.spec.missionPipelines = [])
    (hL : t.layoutPasses dump env = .error (L, .failed e)) :
    t.initializeBlocksLayout dump env =
      ({ t with system := L.rollback, specErrors := [e] }, .returned false) := by
  simp only [initializeBlocksLayout, h, hL, List.isEmpty_nil, Bool.not_true, Bool.false_eq_true,
    if_false]

theorem initializeBlocksLayout_of_escaped (h : t.spec.missionPipelines = [])
    (hL : t.layoutPasses dump env = .error (L, .escaped)) :
    t.initializeBlocksLayout dump env =
      ({ t with system := L.system, specErrors := [] }, .escaped) := by
  simp only [initializeBlocksLayout, h, hL, List.isEmpty_nil, Bool.not_true, Bool.false_eq_true,
    if_false]

/-- **A layout that returns `true`** went through all its passes. -/
theorem exists_of_returned_true (h : (t.initializeBlocksLayout dump env).2 = .returned true) :
    ∃ L, t.layoutPasses dump env = .ok L ∧
      (t.initializeBlocksLayout dump env).1.system = L.system := by
  by_cases hmission : t.spec.missionPipelines = []
  · cases hL : t.layoutPasses dump env with
    | ok L => exact ⟨L, rfl, by rw [initializeBlocksLayout_of_ok hmission hL]⟩
    | error e =>
      obtain ⟨L, _ | _⟩ := e
      · rw [initializeBlocksLayout_of_failed hmission hL] at h
        cases h
      · rw [initializeBlocksLayout_of_escaped hmission hL] at h
        cases h
  · obtain ⟨e, he⟩ := t.initializeBlocksLayout_of_mission dump env hmission
    rw [he] at h
    cases h

end SpecSystem

end AxonVex
