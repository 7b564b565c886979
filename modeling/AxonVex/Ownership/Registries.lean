import AxonVex.Core.SystemRun

/-!
# Ownership/Registries — what each action does to the two registries

The unit registry and the system port registry are touched by few operations: registering and
unregistering a unit, the four port operations, the clearing of the units by an emergency shutdown
and the clearing of the ports by `cleanupComponents`.  Everything else leaves both alone.

A `RegistryMove` is one of the touches that keep the registries in step; every action except an
emergency shutdown and a reset is a sequence of them (`moves_of_step`).
-/

namespace AxonVex

open Machinery

namespace AxonVexSystem

variable {s t : AxonVexSystem} {caller : Thread}

/-! ## Operations that touch neither registry -/

/-- The same units and the same system ports. -/
def SameRegistries (s t : AxonVexSystem) : Prop :=
  t.unitRegistry = s.unitRegistry ∧ t.systemPorts = s.systemPorts

theorem SameRegistries.refl (s : AxonVexSystem) : SameRegistries s s := ⟨rfl, rfl⟩

theorem SameRegistries.trans {u : AxonVexSystem} (h : SameRegistries s t)
    (h' : SameRegistries t u) : SameRegistries s u :=
  ⟨h'.1.trans h.1, h'.2.trans h.2⟩

theorem sameRegistries_transitionState (newState : SystemState) :
    SameRegistries s (s.transitionState newState).1 :=
  ⟨transitionState_unitRegistry, transitionState_systemPorts⟩

theorem sameRegistries_scheduleUnit (unit : ProcessingUnit) (constraints : TimingConstraints)
    (now : TimePoint) : SameRegistries s (s.scheduleUnit unit constraints now) := by
  unfold scheduleUnit
  split <;> exact ⟨rfl, rfl⟩

theorem sameRegistries_foldl_scheduleUnit (constraints : AxonVexSystem → TimingConstraints)
    (now : TimePoint) (units : List ProcessingUnit) (s : AxonVexSystem) :
    SameRegistries s (units.foldl (fun s u => s.scheduleUnit u (constraints s) now) s) := by
  induction units generalizing s with
  | nil => exact .refl s
  | cons u units ih => exact (sameRegistries_scheduleUnit u (constraints s) now).trans (ih _)

theorem sameRegistries_startComponents {spawned ok : Bool} {now : TimePoint}
    (h : s.startComponents caller spawned now = .returned (t, ok)) : SameRegistries s t := by
  unfold startComponents at h
  split at h
  · split at h
    · obtain ⟨rfl, -⟩ := Outcome.pair_inj h
      exact .refl s
    · cases h
  · dsimp only at h
    split at h <;> obtain ⟨rfl, -⟩ := Outcome.pair_inj h
    · exact ⟨rfl, rfl⟩
    · exact SameRegistries.trans ⟨rfl, rfl⟩
        (sameRegistries_foldl_scheduleUnit (·.defaultConstraints) now _ _)

theorem sameRegistries_start {env : StartEnv} {ok : Bool}
    (h : s.start caller env = .returned (t, ok)) : SameRegistries s t := by
  unfold start at h
  dsimp only at h
  split at h
  · obtain ⟨⟨u, started⟩, hu, h⟩ := Outcome.andThen_eq_returned.mp h
    have hsu := (sameRegistries_transitionState .starting).trans (sameRegistries_startComponents hu)
    dsimp only at h
    split at h
    · split at h <;> obtain ⟨rfl, -⟩ := Outcome.pair_inj h
      · exact hsu.trans (sameRegistries_transitionState .running)
      · exact (hsu.trans (sameRegistries_transitionState .running)).trans ⟨rfl, rfl⟩
    · obtain ⟨rfl, -⟩ := Outcome.pair_inj h
      exact hsu.trans (sameRegistries_transitionState .error)
  · obtain ⟨rfl, -⟩ := Outcome.pair_inj h
    exact sameRegistries_transitionState .starting

theorem sameRegistries_pause : SameRegistries s s.pause.1 := by
  unfold pause
  dsimp only
  split
  · exact (sameRegistries_transitionState .pausing).trans
      (SameRegistries.trans ⟨rfl, rfl⟩ (sameRegistries_transitionState .paused))
  · exact sameRegistries_transitionState .pausing

theorem sameRegistries_resume : SameRegistries s s.resume.1 := by
  unfold resume
  dsimp only
  split
  · exact (sameRegistries_transitionState .resuming).trans
      (SameRegistries.trans ⟨rfl, rfl⟩ (sameRegistries_transitionState .running))
  · exact sameRegistries_transitionState .resuming

theorem sameRegistries_attemptRecovery (spawned : Bool) :
    SameRegistries s (s.attemptRecovery caller spawned) := by
  unfold attemptRecovery
  split
  · exact .refl s
  · split
    · exact .refl s
    · dsimp only
      split
      · exact ⟨rfl, rfl⟩
      · split <;> exact ⟨rfl, rfl⟩

theorem sameRegistries_finishHealthCheck (health : SystemHealth)
    (callbacks : List (Option SystemHealth)) (spawned : Bool) :
    SameRegistries s (s.finishHealthCheck caller health callbacks spawned) := by
  unfold finishHealthCheck
  dsimp only
  split
  · exact SameRegistries.trans ⟨rfl, rfl⟩ (sameRegistries_attemptRecovery spawned)
  · exact ⟨rfl, rfl⟩

theorem sameRegistries_initializeComponents (fault : Option ComponentFault) :
    SameRegistries s (s.initializeComponents fault).1 := by
  unfold initializeComponents newConfiguration
  dsimp only
  split_ifs <;> exact ⟨rfl, rfl⟩

theorem sameRegistries_updateStatistics : SameRegistries s s.updateStatistics := by
  unfold updateStatistics
  split <;> exact ⟨rfl, rfl⟩

theorem sameRegistries_joinStaleWorkers (h : s.joinStaleWorkers = .returned t) :
    SameRegistries s t := by
  unfold joinStaleWorkers at h
  split at h
  · cases h
  · dsimp only at h
    split at h
    · cases h
    · obtain rfl := Outcome.returned.inj h
      exact ⟨rfl, rfl⟩

theorem stop_registries :
    (s.stop caller).1.unitRegistry = s.unitRegistry ∧
      ((s.stop caller).1.systemPorts = s.systemPorts ∨
        (s.stop caller).1.systemPorts = s.systemPorts.clear) := by
  unfold stop
  split
  · exact ⟨rfl, .inl rfl⟩
  · dsimp only
    split
    · simp [requestWorkerStops, stopComponents, cleanupComponents]
    · exact ⟨transitionState_unitRegistry, .inl transitionState_systemPorts⟩

/-- **An emergency shutdown clears the units and leaves the ports.** -/
theorem emergencyShutdown_registries :
    (s.emergencyShutdown caller).unitRegistry = s.unitRegistry.clear ∧
      (s.emergencyShutdown caller).systemPorts = s.systemPorts := by
  simp [emergencyShutdown, requestWorkerStops, stopComponents]

/-- **A reset that is not refused does the same**, and resets the ids. -/
theorem reset_registries (h : s.isOnWorkerThread caller = false) :
    (s.reset caller).unitRegistry = s.unitRegistry.clear.resetIds ∧
      (s.reset caller).systemPorts = s.systemPorts := by
  simp [reset, h, emergencyShutdown_registries]
  rfl

end AxonVexSystem

/-! ## Moves -/

/-- The two registries, and the first address not yet given to a unit. -/
structure Registries where
  unitRegistry : UnitRegistry
  systemPorts : SystemPortRegistry
  nextPtr : UnitPtr

/-- The registries of a system. -/
def AxonVexSystem.registries (s : AxonVexSystem) (nextPtr : UnitPtr) : Registries :=
  ⟨s.unitRegistry, s.systemPorts, nextPtr⟩

/-- The touches that keep the registries in step. -/
inductive RegistryMove : Registries → Registries → Prop
  /-- addresses are used up without a unit being registered -/
  | skip {r p n m} : n ≤ m → RegistryMove ⟨r, p, n⟩ ⟨r, p, m⟩
  | register {r r' p n unit id} : n ≤ unit.ptr → r.add unit = some (id, r') →
      RegistryMove ⟨r, p, n⟩ ⟨r', p, unit.ptr + 1⟩
  /-- a unit goes, and its system ports with it -/
  | unregister {r r' p n unit id} : r.remove id = some (unit, r') →
      RegistryMove ⟨r, p, n⟩ ⟨r', p.removeAllForOwner unit.ptr, n⟩
  /-- a port of an owned unit is assigned -/
  | assign {r p p' n port} : r.Owns port.owner → (∀ q, p'.Holds q ↔ p.Holds q ∨ q = port) →
      RegistryMove ⟨r, p, n⟩ ⟨r, p', n⟩
  /-- ports are removed -/
  | remove {r p p' n} : (∀ q, p'.Holds q → p.Holds q) → RegistryMove ⟨r, p, n⟩ ⟨r, p', n⟩

/-- Any number of touches. -/
abbrev RegistryMoves : Registries → Registries → Prop := Relation.ReflTransGen RegistryMove

namespace Registries

/-- The maps of the unit registry agree, and every owned address has been handed out. -/
structure Valid (R : Registries) : Prop where
  registry : R.unitRegistry.Valid
  below : ∀ ptr, R.unitRegistry.Owns ptr → ptr < R.nextPtr

/-- **In step**: every system port belongs to an owned unit. -/
def InStep (R : Registries) : Prop := R.systemPorts.AllOwned R.unitRegistry.Owns

variable {R S : Registries}

theorem Valid.of_move (hR : R.Valid) (h : RegistryMove R S) : S.Valid := by
  cases h with
  | skip hn => exact ⟨hR.registry, fun ptr hp => (hR.below ptr hp).trans_le hn⟩
  | @register r r' p n unit id hn hadd =>
    have hnew : ¬ r.Owns unit.ptr := fun ho => absurd (hR.below _ ho) (by simpa using hn)
    refine ⟨hR.registry.add hnew hadd, fun ptr hp => ?_⟩
    rcases (UnitRegistry.owns_add hadd hR.registry).mp hp with hp | rfl
    · exact Nat.lt_succ_of_lt ((hR.below ptr hp).trans_le hn)
    · exact Nat.lt_succ_self _
  | unregister hrem =>
    exact ⟨hR.registry.remove hrem, fun ptr hp =>
      hR.below ptr ((UnitRegistry.owns_remove hR.registry hrem).mp hp).1⟩
  | assign _ _ => exact ⟨hR.registry, hR.below⟩
  | remove _ => exact ⟨hR.registry, hR.below⟩

/-- **Every move keeps the registries in step.** -/
theorem InStep.of_move (hR : R.Valid) (hI : R.InStep) (h : RegistryMove R S) : S.InStep := by
  cases h with
  | skip _ => exact hI
  | register _ hadd => exact hI.mono fun ptr hp => (UnitRegistry.owns_add hadd hR.registry).mpr (.inl hp)
  | unregister hrem =>
    exact hI.removeAllForOwner fun ptr hp hne =>
      (UnitRegistry.owns_remove hR.registry hrem).mpr ⟨hp, hne⟩
  | assign howned hq =>
    intro port hp
    rcases (hq port).mp hp with hp | rfl
    · exact hI port hp
    · exact howned
  | remove hq => exact fun port hp => hI port (hq port hp)

theorem Valid.of_moves (hR : R.Valid) (h : RegistryMoves R S) : S.Valid := by
  induction h with
  | refl => exact hR
  | tail _ hm ih => exact ih.of_move hm

theorem InStep.of_moves (hR : R.Valid) (hI : R.InStep) (h : RegistryMoves R S) : S.InStep := by
  induction h with
  | refl => exact hI
  | tail hms hm ih => exact ih.of_move (hR.of_moves hms) hm

end Registries

/-! ## The moves of each action -/

namespace AxonVexSystem

variable {s t : AxonVexSystem} {caller : Thread} {n m : UnitPtr}

/-- An operation that touches neither registry makes no move. -/
theorem SameRegistries.moves (h : SameRegistries s t) :
    RegistryMoves (s.registries n) (t.registries n) := by
  rw [registries, registries, h.1, h.2]

theorem moves_skip (h : n ≤ m) : RegistryMoves (s.registries n) (s.registries m) :=
  .single (.skip h)

theorem moves_registerProcessingUnit {unit : ProcessingUnit} {constraints : TimingConstraints}
    {now : TimePoint} (hn : n ≤ unit.ptr) :
    RegistryMoves (s.registries n)
      ((s.registerProcessingUnit unit constraints now).1.registries (unit.ptr + 1)) := by
  unfold registerProcessingUnit
  split
  · exact moves_skip (Nat.le_succ_of_le hn)
  next id unitRegistry hadd =>
    refine .trans (.single (.register hn hadd)) (SameRegistries.moves ?_ :
      RegistryMoves (registries { s with unitRegistry } _) _)
    dsimp only
    split
    · exact (sameRegistries_scheduleUnit unit _ now).trans ⟨rfl, rfl⟩
    · exact ⟨rfl, rfl⟩

theorem moves_unregisterProcessingUnit (id : ℕ) :
    RegistryMoves (s.registries n) ((s.unregisterProcessingUnit id).1.registries n) := by
  unfold unregisterProcessingUnit
  split
  · exact .refl
  next unit unitRegistry hrem => exact .single (.unregister hrem)

theorem owner_inputPortOf {unit : ProcessingUnit} {id : ℤ} {port : PortPtr}
    (h : inputPortOf unit id = some port) : port.owner = unit.ptr := by
  unfold inputPortOf at h
  split_ifs at h <;> exact (Option.some.inj h) ▸ rfl

theorem owner_outputPortOf {unit : ProcessingUnit} {id : ℤ} {port : PortPtr}
    (h : outputPortOf unit id = some port) : port.owner = unit.ptr := by
  unfold outputPortOf at h
  split_ifs at h <;> exact (Option.some.inj h) ▸ rfl

theorem owns_of_unitAt {r : UnitRegistry} {ptr : UnitPtr} {u : ProcessingUnit}
    (h : r.unitAt ptr = some u) : r.Owns u.ptr := by
  obtain ⟨id, -, hu⟩ := Option.bind_eq_some_iff.mp h
  exact ⟨id, u, hu, rfl⟩

/-- The two assignments differ in the port they find and the table they enter it in. -/
theorem moves_assignSystemPort {find : ProcessingUnit → ℤ → Option PortPtr}
    {assign : SystemPortRegistry → String → PortPtr → Option SystemPortRegistry}
    (hfind : ∀ u id port, find u id = some port → port.owner = u.ptr)
    (hassign : ∀ p name port p' q, assign p name port = some p' →
      (SystemPortRegistry.Holds p' q ↔ SystemPortRegistry.Holds p q ∨ q = port))
    (kind name : String) (unit : UnitPtr) (id : ℤ) :
    RegistryMoves (s.registries n)
      ((s.assignSystemPort find assign kind name unit id).1.registries n) := by
  unfold assignSystemPort
  split
  · exact .refl
  · split
    · exact .refl
    next u hu =>
      split
      · exact .refl
      next port hport =>
        split
        · exact .refl
        next systemPorts hp =>
          refine .single (.assign ?_ fun q => hassign _ _ _ _ q hp)
          rw [hfind u id port hport]
          exact owns_of_unitAt hu

theorem moves_assignSystemInputPort (name : String) (unit : UnitPtr) (id : ℤ) :
    RegistryMoves (s.registries n) ((s.assignSystemInputPort name unit id).1.registries n) :=
  moves_assignSystemPort (fun _ _ _ => owner_inputPortOf)
    (fun _ _ _ _ _ => SystemPortRegistry.holds_assignInput) _ _ _ _

theorem moves_assignSystemOutputPort (name : String) (unit : UnitPtr) (id : ℤ) :
    RegistryMoves (s.registries n) ((s.assignSystemOutputPort name unit id).1.registries n) :=
  moves_assignSystemPort (fun _ _ _ => owner_outputPortOf)
    (fun _ _ _ _ _ => SystemPortRegistry.holds_assignOutput) _ _ _ _

theorem moves_removeSystemInputPort (name : String) :
    RegistryMoves (s.registries n) ((s.removeSystemInputPort name).1.registries n) := by
  unfold removeSystemInputPort
  split
  · exact .refl
  next h => exact .single (.remove fun _ => SystemPortRegistry.holds_of_removeInput h)

theorem moves_removeSystemOutputPort (name : String) :
    RegistryMoves (s.registries n) ((s.removeSystemOutputPort name).1.registries n) := by
  unfold removeSystemOutputPort
  split
  · exact .refl
  next h => exact .single (.remove fun _ => SystemPortRegistry.holds_of_removeOutput h)

theorem moves_cleanupComponents :
    RegistryMoves (s.registries n) (s.cleanupComponents.registries n) :=
  .single (.remove fun q hq => absurd hq
    (show ¬ s.systemPorts.clear.Holds q from SystemPortRegistry.not_holds_clear))

theorem moves_stop : RegistryMoves (s.registries n) ((s.stop caller).1.registries n) := by
  obtain ⟨hr, hp | hp⟩ := @stop_registries s caller
  · exact SameRegistries.moves ⟨hr, hp⟩
  · rw [registries, registries, hr, hp]
    exact .single (.remove fun _ hq => absurd hq SystemPortRegistry.not_holds_clear)

theorem moves_layoutCall {c : LayoutCall} (h : SystemRun.claimPtrs n c.newUnits = some m) :
    RegistryMoves (s.registries n) ((s.layoutCall c).registries m) := by
  cases c with
  | register unit constraints now =>
    simp only [LayoutCall.newUnits, SystemRun.claimPtrs] at h
    split at h
    next hn => exact Option.some.inj h ▸ moves_registerProcessingUnit hn
    · cases h
  | unregister id => exact Option.some.inj h ▸ moves_unregisterProcessingUnit id
  | assignInput name unit id => exact Option.some.inj h ▸ moves_assignSystemInputPort name unit id
  | assignOutput name unit id => exact Option.some.inj h ▸ moves_assignSystemOutputPort name unit id
  | removeInput name => exact Option.some.inj h ▸ moves_removeSystemInputPort name
  | removeOutput name => exact Option.some.inj h ▸ moves_removeSystemOutputPort name

/-- A whole layout, by induction on its calls. -/
theorem moves_layout {calls : List LayoutCall}
    (h : SystemRun.claimPtrs n (calls.flatMap LayoutCall.newUnits) = some m) :
    RegistryMoves (s.registries n) ((calls.foldl layoutCall s).registries m) := by
  induction calls generalizing s n with
  | nil => exact Option.some.inj h ▸ .refl
  | cons c calls ih =>
    rw [List.flatMap_cons, SystemRun.claimPtrs_append] at h
    obtain ⟨k, hk, h⟩ := Option.bind_eq_some_iff.mp h
    exact (moves_layoutCall hk).trans (ih h)

theorem moves_transitionState (newState : SystemState) :
    RegistryMoves (s.registries n) ((s.transitionState newState).1.registries n) :=
  (sameRegistries_transitionState newState).moves

theorem moves_failInitialize : RegistryMoves (s.registries n) (s.failInitialize.registries n) :=
  (moves_transitionState .error).trans moves_cleanupComponents

theorem moves_catchInitialize : RegistryMoves (s.registries n) (s.catchInitialize.registries n) :=
  moves_cleanupComponents.trans (moves_transitionState .error)

theorem sameRegistries_startMonitor (spawned : Bool) :
    SameRegistries s (s.startMonitor spawned).1 := by
  unfold startMonitor
  split <;> exact ⟨rfl, rfl⟩

theorem moves_startWorkers (env : InitializeEnv) :
    RegistryMoves (s.registries n) ((s.startWorkers env).1.registries n) := by
  have hm : SameRegistries s (s.clearShutdownLatch.startMonitor env.monitorSpawned).1 :=
    SameRegistries.trans ⟨rfl, rfl⟩ (sameRegistries_startMonitor _)
  have hd : SameRegistries s ((s.clearShutdownLatch.startMonitor env.monitorSpawned).1.startDispatch
      env.dispatchSpawned).1 := hm.trans ⟨rfl, rfl⟩
  unfold startWorkers
  dsimp only
  split
  · exact hm.moves.trans moves_catchInitialize
  · split
    · exact hd.moves.trans moves_catchInitialize
    · have hs := hd.trans (sameRegistries_transitionState .initialized)
      split
      · exact hs.moves
      · exact hs.moves.trans moves_cleanupComponents

theorem moves_configureAndStart {env : InitializeEnv}
    (h : SystemRun.claimPtrs n (env.layout.flatMap LayoutCall.newUnits) = some m) :
    RegistryMoves (s.registries n) ((s.configureAndStart env).1.registries m) := by
  unfold configureAndStart
  split
  · exact moves_skip (SystemRun.le_of_claimPtrs h)
  · dsimp only
    split
    · exact (moves_layout h).trans (moves_startWorkers env)
    · exact (moves_layout h).trans moves_failInitialize
    · exact (moves_layout h).trans moves_catchInitialize
    · exact moves_layout h

theorem moves_initializeSystem {env : InitializeEnv} {res : CallResult}
    (h : SystemRun.claimPtrs n (env.layout.flatMap LayoutCall.newUnits) = some m)
    (hs : s.initializeSystem caller env = .returned (t, res)) :
    RegistryMoves (s.registries n) (t.registries m) := by
  have hnm := SystemRun.le_of_claimPtrs h
  unfold initializeSystem at hs
  split at hs
  · obtain ⟨rfl, -⟩ := Outcome.pair_inj hs
    exact moves_skip hnm
  · obtain ⟨u, hu, hs⟩ := Outcome.andThen_eq_returned.mp hs
    have hsu : RegistryMoves (s.registries n) ((u.initializeComponents env.fault).1.registries n) :=
      ((sameRegistries_joinStaleWorkers hu).trans
        (sameRegistries_initializeComponents env.fault)).moves
    dsimp only at hs
    split at hs
    · obtain ⟨rfl, -⟩ := Outcome.pair_inj hs
      exact hsu.trans (moves_skip hnm)
    · split at hs <;> obtain ⟨rfl, -⟩ := Outcome.pair_inj hs
      · exact (hsu.trans (moves_transitionState .initializing)).trans (moves_configureAndStart h)
      · exact (hsu.trans (moves_transitionState .initializing)).trans (moves_skip hnm)

end AxonVexSystem

namespace SystemRun

variable {r t : SystemRun} {caller : Thread} {c : Call} {a : Action}

/-- The registries of the system of a run. -/
def registries (r : SystemRun) : Registries := r.system.registries r.nextPtr

open AxonVexSystem in
/-- **Every call is a sequence of moves**, except the two that clear the units. -/
theorem moves_of_call (hc : r.clearsUnits (.call caller c) = false)
    (h : r.step (.call caller c) = some t) : RegistryMoves r.registries t.registries := by
  obtain ⟨u, m, res, rfl, hn, hi, -⟩ := invoke_of_step h
  cases c with
  | initializeSystem env => exact moves_initializeSystem hn hi
  | start env =>
    obtain ⟨⟨v, b⟩, hv, hi⟩ := Outcome.andThen_eq_returned.mp hi
    obtain ⟨rfl, -⟩ := Outcome.pair_inj hi
    exact Option.some.inj hn ▸ (sameRegistries_start hv).moves
  | registerProcessingUnit unit constraints now =>
    obtain ⟨rfl, -⟩ := Outcome.pair_inj hi
    simp only [newUnits, claimPtrs] at hn
    split at hn
    next hle => exact Option.some.inj hn ▸ moves_registerProcessingUnit hle
    · exact absurd hn (by simp)
  | emergencyShutdown => exact absurd hc (by simp [clearsUnits])
  | reset =>
    obtain ⟨rfl, -⟩ := Outcome.pair_inj hi
    have hw : r.system.isOnWorkerThread caller = true := by simpa [clearsUnits] using hc
    rw [AxonVexSystem.reset, if_pos hw]
    exact Option.some.inj hn ▸ .refl
  | pause =>
    obtain ⟨rfl, -⟩ := Outcome.pair_inj hi
    exact Option.some.inj hn ▸ sameRegistries_pause.moves
  | resume =>
    obtain ⟨rfl, -⟩ := Outcome.pair_inj hi
    exact Option.some.inj hn ▸ sameRegistries_resume.moves
  | stop =>
    obtain ⟨rfl, -⟩ := Outcome.pair_inj hi
    exact Option.some.inj hn ▸ moves_stop
  | unregisterProcessingUnit id =>
    obtain ⟨rfl, -⟩ := Outcome.pair_inj hi
    exact Option.some.inj hn ▸ moves_unregisterProcessingUnit id
  | assignSystemInputPort name unit id =>
    obtain ⟨rfl, -⟩ := Outcome.pair_inj hi
    exact Option.some.inj hn ▸ moves_assignSystemInputPort name unit id
  | assignSystemOutputPort name unit id =>
    obtain ⟨rfl, -⟩ := Outcome.pair_inj hi
    exact Option.some.inj hn ▸ moves_assignSystemOutputPort name unit id
  | removeSystemInputPort name =>
    obtain ⟨rfl, -⟩ := Outcome.pair_inj hi
    exact Option.some.inj hn ▸ moves_removeSystemInputPort name
  | removeSystemOutputPort name =>
    obtain ⟨rfl, -⟩ := Outcome.pair_inj hi
    exact Option.some.inj hn ▸ moves_removeSystemOutputPort name
  | performHealthCheck callbacks spawned =>
    obtain ⟨rfl, -⟩ := Outcome.pair_inj hi
    exact Option.some.inj hn ▸ (sameRegistries_finishHealthCheck _ callbacks spawned).moves

open AxonVexSystem in
/-- The steps of the workers touch neither registry. -/
theorem moves_of_worker (ha : ∀ caller c, a ≠ .call caller c) (h : r.step a = some t) :
    RegistryMoves r.registries t.registries := by
  cases a with
  | call caller c => exact absurd rfl (ha caller c)
  | schedulerStep st =>
    obtain ⟨u, hu, rfl⟩ := Option.map_eq_some_iff.mp h
    obtain ⟨tc, -, hu⟩ := Option.bind_eq_some_iff.mp hu
    obtain ⟨sch, -, rfl⟩ := Option.map_eq_some_iff.mp hu
    exact SameRegistries.moves ⟨rfl, rfl⟩
  | dispatchStep st =>
    obtain ⟨u, hu, rfl⟩ := Option.map_eq_some_iff.mp h
    obtain ⟨bus, -, rfl⟩ := Option.map_eq_some_iff.mp hu
    exact SameRegistries.moves ⟨rfl, rfl⟩
  | beginCheck =>
    obtain ⟨u, hu, rfl⟩ := Option.map_eq_some_iff.mp h
    change r.system.beginCheck = some u at hu
    unfold beginCheck at hu
    split at hu
    · exact Option.some.inj hu ▸ SameRegistries.moves ⟨rfl, rfl⟩
    · cases hu
  | finishCheck callbacks spawned =>
    obtain ⟨u, hu, rfl⟩ := Option.map_eq_some_iff.mp h
    change r.system.finishCheck callbacks spawned = some u at hu
    unfold finishCheck at hu
    split at hu
    · split at hu
      · cases hu
      · obtain ⟨⟩ := hu
        exact SameRegistries.moves (SameRegistries.trans
          (sameRegistries_finishHealthCheck _ callbacks spawned) ⟨rfl, rfl⟩)
    · cases hu
  | refreshStatistics =>
    obtain ⟨u, hu, rfl⟩ := Option.map_eq_some_iff.mp h
    change r.system.refreshStatistics = some u at hu
    unfold refreshStatistics at hu
    split at hu
    · exact Option.some.inj hu ▸ sameRegistries_updateStatistics.moves
    · cases hu
  | exitMonitor =>
    obtain ⟨u, hu, rfl⟩ := Option.map_eq_some_iff.mp h
    change r.system.exitMonitor = some u at hu
    unfold exitMonitor at hu
    split at hu
    · exact Option.some.inj hu ▸ SameRegistries.moves ⟨rfl, rfl⟩
    · cases hu

/-- **Every action is a sequence of moves**, except the two calls that clear the units. -/
theorem moves_of_step (ha : r.clearsUnits a = false) (h : r.step a = some t) :
    RegistryMoves r.registries t.registries := by
  cases a with
  | call caller c => exact moves_of_call ha h
  | _ => exact moves_of_worker (by simp) h

/-- **The two calls that clear the units leave the system ports.** -/
theorem registries_of_clearsUnits (ha : r.clearsUnits a = true) (h : r.step a = some t) :
    t.system.unitRegistry.units = ∅ ∧ t.system.unitRegistry.Valid ∧
      t.system.systemPorts = r.system.systemPorts := by
  cases a with
  | call caller c =>
    obtain ⟨u, m, res, rfl, -, hi, -⟩ := invoke_of_step h
    cases c with
    | emergencyShutdown =>
      obtain ⟨rfl, -⟩ := Outcome.pair_inj hi
      obtain ⟨hr, hp⟩ := @AxonVexSystem.emergencyShutdown_registries r.system caller
      exact ⟨hr ▸ rfl, hr ▸ UnitRegistry.valid_clear _, hp⟩
    | reset =>
      obtain ⟨rfl, -⟩ := Outcome.pair_inj hi
      obtain ⟨hr, hp⟩ := AxonVexSystem.reset_registries (by simpa [clearsUnits] using ha)
      exact ⟨hr ▸ rfl, hr ▸ (UnitRegistry.valid_clear _).resetIds rfl, hp⟩
    | _ => exact absurd ha (by simp [clearsUnits])
  | _ => exact absurd ha (by simp [clearsUnits])

/-! ## Whole runs -/

/-- The maps of the registries are sound. -/
def RegistriesValid (r : SystemRun) : Prop := r.registries.Valid

theorem RegistriesValid.step (hr : r.RegistriesValid) (h : r.step a = some t) :
    t.RegistriesValid := by
  cases ha : r.clearsUnits a with
  | false => exact hr.of_moves (moves_of_step ha h)
  | true =>
    obtain ⟨hunits, hvalid, -⟩ := registries_of_clearsUnits ha h
    refine ⟨hvalid, fun ptr hp => ?_⟩
    obtain ⟨id, u, hu, -⟩ := hp
    exact absurd hu (by simp [registries, AxonVexSystem.registries, hunits])

theorem registriesValid_fresh (config : SystemConfiguration) (objectSize : ℕ) :
    (fresh config objectSize).RegistriesValid where
  registry := UnitRegistry.valid_new _
  below := by
    rintro ptr ⟨id, u, hu, -⟩
    exact absurd hu (by simp [fresh, registries, AxonVexSystem.registries, AxonVexSystem.new])

/-- **In every run the maps of the unit registry agree.** -/
theorem registriesValid_of_reachable (h : machine.Reachable r) : r.RegistriesValid := by
  refine h.invariant ⟨fun r hr => ?_, fun _ _ _ hr _ ht => hr.step ht⟩
  obtain ⟨config, objectSize, -, rfl⟩ := hr
  exact registriesValid_fresh config objectSize

end SystemRun

end AxonVex
