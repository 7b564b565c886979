import AxonVex.Ownership.UnitCount

/-!
# Ownership/UnitLimit — the limit on the units, kept in two places

    AxonVexSystem(config) ──▸ systemConfig_ = config,  unitRegistry_(config.maxProcessingUnits)
    updateSystemConfiguration(config) ──▸ systemConfig_ = config

`registerProcessingUnit` asks the registry, `getSystemConfiguration()` reports the other copy, and
before `initialize` the update replaces that copy only.

* `limitHonoured_of_keepsLimit` — in every state of a run whose accepted updates leave
  `maxProcessingUnits` as it is, a registration is refused exactly at the limit that is reported.
* `raised_limit_has_no_effect` — one unit, a limit raised from 1 to 2: the second is refused.
-/

namespace AxonVex

open Machinery

namespace AxonVexSystem

/-- `updateSystemConfiguration(config)`: refused from `initialize` on, and when the configuration
does not validate. -/
def updateSystemConfiguration (s : AxonVexSystem) (config : SystemConfiguration) :
    AxonVexSystem × Bool :=
  if s.state ≠ .uninitialized then (s, false)
  else match config.validate with
    | .error _ => (s, false)
    | .ok () => ({ s with systemConfig := config }, true)

/-- **One update**: the reported configuration is replaced and nothing else, or nothing is. -/
theorem updateSystemConfiguration_cases (s : AxonVexSystem) (config : SystemConfiguration) :
    (s.state = .uninitialized ∧ config.validate = .ok () ∧
      s.updateSystemConfiguration config = ({ s with systemConfig := config }, true)) ∨
    s.updateSystemConfiguration config = (s, false) := by
  unfold updateSystemConfiguration
  by_cases hstate : s.state = .uninitialized
  · rw [if_neg (not_not.mpr hstate)]
    cases hvalid : config.validate with
    | error what => exact .inr rfl
    | ok u => exact .inl ⟨hstate, rfl, rfl⟩
  · exact .inr (if_pos hstate)

end AxonVexSystem

/-! ## The registry's limit stays -/

namespace UnitCount

variable {c d : UnitCount}

/-- The registry is within its limit, and its ids are below the counter. -/
structure Limited (c : UnitCount) : Prop where
  fresh : ∀ id ∈ c.unitRegistry.units, id < c.unitRegistry.nextUnitId
  limited : c.unitRegistry.count ≤ c.unitRegistry.maxUnits

theorem Limited.of_move (h : c.Limited) (hm : CountMove c d) :
    d.Limited ∧ d.unitRegistry.maxUnits = c.unitRegistry.maxUnits := by
  cases hm with
  | @register r r' n unit id hadd =>
    obtain ⟨-, hle, hmax⟩ := UnitRegistry.count_add hadd h.fresh
    obtain ⟨rfl, hunits, hnext, -, -⟩ := UnitRegistry.lookup_add hadd
    refine ⟨⟨fun i hi => ?_, hle.trans hmax.ge⟩, hmax⟩
    change i ∈ r'.units at hi
    change i < r'.nextUnitId
    rw [hunits, AList.mem_insert] at hi
    rw [hnext]
    exact hi.elim (fun he => he ▸ Nat.lt_succ_self _) fun hi => Nat.lt_succ_of_lt (h.fresh i hi)
  | @unregister r r' n unit id hrem =>
    obtain ⟨hcount, hmax⟩ := UnitRegistry.count_remove hrem
    obtain ⟨-, hunits, -, hnext, -⟩ := UnitRegistry.lookup_remove hrem
    have hlimited : r.count ≤ r.maxUnits := h.limited
    refine ⟨⟨fun i hi => ?_, ?_⟩, hmax⟩
    · change i ∈ r'.units at hi
      change i < r'.nextUnitId
      rw [hunits, AList.mem_erase] at hi
      exact hnext ▸ h.fresh i hi.2
    · change r'.count ≤ r'.maxUnits
      omega

theorem Limited.of_moves (h : c.Limited) (hm : CountMoves c d) :
    d.Limited ∧ d.unitRegistry.maxUnits = c.unitRegistry.maxUnits := by
  induction hm with
  | refl => exact ⟨h, rfl⟩
  | tail _ hm ih =>
    obtain ⟨hd, hmax⟩ := ih.1.of_move hm
    exact ⟨hd, hmax.trans ih.2⟩

end UnitCount

namespace AxonVexSystem

variable {s t : AxonVexSystem} {caller : Thread}

/-! ## The configuration stays

No other operation assigns to `systemConfig_`. -/

/-- The same reported configuration. -/
def SameConfig (s t : AxonVexSystem) : Prop := t.systemConfig = s.systemConfig

theorem SameConfig.trans {u : AxonVexSystem} (h : SameConfig s t) (h' : SameConfig t u) :
    SameConfig s u := Eq.trans h' h

theorem sameConfig_transitionState (newState : SystemState) :
    SameConfig s (s.transitionState newState).1 := transitionState_systemConfig

theorem sameConfig_scheduleUnit (unit : ProcessingUnit) (constraints : TimingConstraints)
    (now : TimePoint) : SameConfig s (s.scheduleUnit unit constraints now) := by
  unfold scheduleUnit
  split <;> rfl

theorem sameConfig_scheduleAll (constraints : AxonVexSystem → TimingConstraints)
    (now : TimePoint) (units : List ProcessingUnit) (s : AxonVexSystem) :
    SameConfig s (units.foldl (fun s u => s.scheduleUnit u (constraints s) now) s) := by
  induction units generalizing s with
  | nil => rfl
  | cons u units ih => exact (sameConfig_scheduleUnit u (constraints s) now).trans (ih _)

theorem sameConfig_startComponents {spawned ok : Bool} {now : TimePoint}
    (h : s.startComponents caller spawned now = .returned (t, ok)) : SameConfig s t := by
  unfold startComponents at h
  split at h
  · split at h
    · obtain ⟨rfl, -⟩ := Outcome.pair_inj h
      rfl
    · cases h
  · dsimp only at h
    split at h <;> obtain ⟨rfl, -⟩ := Outcome.pair_inj h
    · rfl
    · exact sameConfig_scheduleAll (·.defaultConstraints) now _ _

theorem sameConfig_start {env : StartEnv} {ok : Bool}
    (h : s.start caller env = .returned (t, ok)) : SameConfig s t := by
  unfold start at h
  dsimp only at h
  split at h
  · obtain ⟨⟨u, started⟩, hu, h⟩ := Outcome.andThen_eq_returned.mp h
    have hsu := (sameConfig_transitionState .starting).trans (sameConfig_startComponents hu)
    dsimp only at h
    split at h
    · split at h <;> obtain ⟨rfl, -⟩ := Outcome.pair_inj h <;>
        exact hsu.trans (sameConfig_transitionState .running)
    · obtain ⟨rfl, -⟩ := Outcome.pair_inj h
      exact hsu.trans (sameConfig_transitionState .error)
  · obtain ⟨rfl, -⟩ := Outcome.pair_inj h
    exact sameConfig_transitionState .starting

theorem sameConfig_pause : SameConfig s s.pause.1 := by
  unfold pause
  dsimp only
  split
  · exact (sameConfig_transitionState .pausing).trans
      (sameConfig_transitionState (s := pauseComponents _) .paused)
  · exact sameConfig_transitionState .pausing

theorem sameConfig_resume : SameConfig s s.resume.1 := by
  unfold resume
  dsimp only
  split
  · exact (sameConfig_transitionState .resuming).trans
      (sameConfig_transitionState (s := resumeComponents _) .running)
  · exact sameConfig_transitionState .resuming

theorem sameConfig_stop : SameConfig s (s.stop caller).1 := by
  unfold stop
  split
  · rfl
  · dsimp only
    split
    · exact (sameConfig_transitionState .stopping).trans
        (sameConfig_transitionState (s := cleanupComponents _) .stopped)
    · exact sameConfig_transitionState .stopping

theorem sameConfig_emergencyShutdown : SameConfig s (s.emergencyShutdown caller) :=
  sameConfig_transitionState .fatalError

theorem sameConfig_reset : SameConfig s (s.reset caller) := by
  unfold reset
  split
  · rfl
  · change (transitionState _ .uninitialized).1.systemConfig = s.systemConfig
    rw [transitionState_systemConfig]
    have hshutdown : SameConfig s (s.emergencyShutdown caller) := sameConfig_emergencyShutdown
    exact hshutdown

theorem sameConfig_finishHealthCheck (health : SystemHealth)
    (callbacks : List (Option SystemHealth)) (spawned : Bool) :
    SameConfig s (s.finishHealthCheck caller health callbacks spawned) := by
  unfold finishHealthCheck attemptRecovery
  dsimp only
  split_ifs
  · rfl
  · rfl
  · split
    · rfl
    · split <;> rfl
  · rfl

/-! ### Registrations and layouts -/

theorem sameConfig_register (unit : ProcessingUnit) (constraints : TimingConstraints)
    (now : TimePoint) : SameConfig s (s.registerProcessingUnit unit constraints now).1 := by
  unfold registerProcessingUnit
  split
  · rfl
  next id unitRegistry hadd =>
    dsimp only
    split
    · exact sameConfig_scheduleUnit (s := { s with unitRegistry }) unit _ now
    · rfl

theorem sameConfig_unregister (id : ℕ) : SameConfig s (s.unregisterProcessingUnit id).1 := by
  unfold unregisterProcessingUnit
  split <;> rfl

theorem sameConfig_assignSystemPort (find : ProcessingUnit → ℤ → Option PortPtr)
    (assign : SystemPortRegistry → String → PortPtr → Option SystemPortRegistry)
    (kind name : String) (unit : UnitPtr) (id : ℤ) :
    SameConfig s (s.assignSystemPort find assign kind name unit id).1 := by
  unfold assignSystemPort
  repeat' first | rfl | split

theorem sameConfig_layoutCall (c : LayoutCall) : SameConfig s (s.layoutCall c) := by
  cases c with
  | register unit constraints now => exact sameConfig_register unit constraints now
  | unregister id => exact sameConfig_unregister id
  | assignInput name unit id => exact sameConfig_assignSystemPort _ _ _ name unit id
  | assignOutput name unit id => exact sameConfig_assignSystemPort _ _ _ name unit id
  | removeInput name =>
    change SameConfig s (s.removeSystemInputPort name).1
    unfold removeSystemInputPort
    split <;> rfl
  | removeOutput name =>
    change SameConfig s (s.removeSystemOutputPort name).1
    unfold removeSystemOutputPort
    split <;> rfl

theorem sameConfig_layout (calls : List LayoutCall) (s : AxonVexSystem) :
    SameConfig s (calls.foldl layoutCall s) := by
  induction calls generalizing s with
  | nil => rfl
  | cons c calls ih => exact (sameConfig_layoutCall c).trans (ih _)

/-! ### Initialization -/

theorem sameConfig_initializeComponents (fault : Option ComponentFault) :
    SameConfig s (s.initializeComponents fault).1 := by
  unfold initializeComponents newConfiguration
  dsimp only
  split_ifs <;> rfl

theorem sameConfig_joinStaleWorkers (h : s.joinStaleWorkers = .returned t) : SameConfig s t := by
  unfold joinStaleWorkers at h
  split at h
  · cases h
  · dsimp only at h
    split at h
    · cases h
    · obtain rfl := Outcome.returned.inj h
      rfl

theorem sameConfig_failInitialize : SameConfig s s.failInitialize :=
  sameConfig_transitionState .error

theorem sameConfig_catchInitialize : SameConfig s s.catchInitialize :=
  sameConfig_transitionState (s := s.cleanupComponents) .error

theorem sameConfig_startWorkers (env : InitializeEnv) : SameConfig s (s.startWorkers env).1 := by
  have hm (s : AxonVexSystem) : SameConfig s (s.startMonitor env.monitorSpawned).1 := by
    unfold startMonitor
    split <;> rfl
  have hm' : SameConfig s (s.clearShutdownLatch.startMonitor env.monitorSpawned).1 :=
    hm s.clearShutdownLatch
  unfold startWorkers
  dsimp only
  split
  · exact hm'.trans sameConfig_catchInitialize
  · split
    · exact hm'.trans (sameConfig_catchInitialize (s := startDispatch _ _ |>.1))
    · have hs := hm'.trans (sameConfig_transitionState (s := (startDispatch _ env.dispatchSpawned).1)
        .initialized)
      split <;> exact hs

theorem sameConfig_configureAndStart (env : InitializeEnv) :
    SameConfig s (s.configureAndStart env).1 := by
  unfold configureAndStart
  split
  · rfl
  · dsimp only
    refine (sameConfig_layout env.layout _).trans ?_
    split
    · exact sameConfig_startWorkers env
    · exact sameConfig_failInitialize
    · exact sameConfig_catchInitialize
    · rfl

theorem sameConfig_initializeSystem {env : InitializeEnv} {res : CallResult}
    (h : s.initializeSystem caller env = .returned (t, res)) : SameConfig s t := by
  unfold initializeSystem at h
  split at h
  · obtain ⟨rfl, -⟩ := Outcome.pair_inj h
    rfl
  · obtain ⟨u, hu, h⟩ := Outcome.andThen_eq_returned.mp h
    have hsu := (sameConfig_joinStaleWorkers hu).trans (sameConfig_initializeComponents env.fault)
    have hst := hsu.trans (sameConfig_transitionState .initializing)
    dsimp only at h
    split at h
    · obtain ⟨rfl, -⟩ := Outcome.pair_inj h
      exact hsu
    · split at h <;> obtain ⟨rfl, -⟩ := Outcome.pair_inj h
      · exact hst.trans (sameConfig_configureAndStart env)
      · exact hst

/-! ### The workers -/

theorem sameConfig_workerStep {a : Action} (h : s.workerStep a = some t) : SameConfig s t := by
  cases a with
  | call caller c => exact absurd h (by simp [workerStep])
  | schedulerStep st =>
    obtain ⟨c, -, h⟩ := Option.bind_eq_some_iff.mp h
    obtain ⟨scheduler, -, rfl⟩ := Option.map_eq_some_iff.mp h
    rfl
  | dispatchStep st =>
    obtain ⟨bus, -, rfl⟩ := Option.map_eq_some_iff.mp h
    rfl
  | beginCheck =>
    obtain ⟨-, h⟩ := Option.ite_none_right_eq_some.mp h
    exact Option.some.inj h ▸ rfl
  | finishCheck callbacks spawned =>
    change s.finishCheck callbacks spawned = some t at h
    unfold finishCheck at h
    split at h
    · split at h
      · cases h
      · exact Option.some.inj h ▸ sameConfig_finishHealthCheck _ callbacks spawned
    · cases h
  | refreshStatistics =>
    obtain ⟨-, h⟩ := Option.ite_none_right_eq_some.mp h
    unfold updateStatistics at h
    split at h <;> exact Option.some.inj h ▸ rfl
  | exitMonitor =>
    obtain ⟨-, h⟩ := Option.ite_none_right_eq_some.mp h
    exact Option.some.inj h ▸ rfl

end AxonVexSystem

namespace SystemRun

open AxonVexSystem

variable {r t : SystemRun} {a : Action}

/-- **No action changes the reported configuration.** -/
theorem sameConfig_of_step (h : r.step a = some t) : SameConfig r.system t.system := by
  cases a with
  | call caller c =>
    obtain ⟨u, m, res, rfl, -, hi, -⟩ := invoke_of_step h
    cases c with
    | initializeSystem env => exact sameConfig_initializeSystem hi
    | start env =>
      obtain ⟨⟨v, b⟩, hv, hi⟩ := Outcome.andThen_eq_returned.mp hi
      obtain ⟨rfl, -⟩ := Outcome.pair_inj hi
      exact sameConfig_start hv
    | pause =>
      obtain ⟨rfl, -⟩ := Outcome.pair_inj hi
      exact sameConfig_pause
    | resume =>
      obtain ⟨rfl, -⟩ := Outcome.pair_inj hi
      exact sameConfig_resume
    | stop =>
      obtain ⟨rfl, -⟩ := Outcome.pair_inj hi
      exact sameConfig_stop
    | emergencyShutdown =>
      obtain ⟨rfl, -⟩ := Outcome.pair_inj hi
      exact sameConfig_emergencyShutdown
    | reset =>
      obtain ⟨rfl, -⟩ := Outcome.pair_inj hi
      exact sameConfig_reset
    | registerProcessingUnit unit constraints now =>
      obtain ⟨rfl, -⟩ := Outcome.pair_inj hi
      exact sameConfig_register unit constraints now
    | unregisterProcessingUnit id =>
      obtain ⟨rfl, -⟩ := Outcome.pair_inj hi
      exact sameConfig_unregister id
    | assignSystemInputPort name unit id =>
      obtain ⟨rfl, -⟩ := Outcome.pair_inj hi
      exact sameConfig_layoutCall (.assignInput name unit id)
    | assignSystemOutputPort name unit id =>
      obtain ⟨rfl, -⟩ := Outcome.pair_inj hi
      exact sameConfig_layoutCall (.assignOutput name unit id)
    | removeSystemInputPort name =>
      obtain ⟨rfl, -⟩ := Outcome.pair_inj hi
      exact sameConfig_layoutCall (.removeInput name)
    | removeSystemOutputPort name =>
      obtain ⟨rfl, -⟩ := Outcome.pair_inj hi
      exact sameConfig_layoutCall (.removeOutput name)
    | performHealthCheck callbacks spawned =>
      obtain ⟨rfl, -⟩ := Outcome.pair_inj hi
      exact sameConfig_finishHealthCheck _ callbacks spawned
  | _ =>
    obtain ⟨u, hu, rfl⟩ := Option.map_eq_some_iff.mp h
    exact sameConfig_workerStep hu

/-- **No action changes the limit of the registry**, and none registers a unit beyond it. -/
theorem limit_of_step (hcount : r.system.unitCount.Limited) (h : r.step a = some t) :
    t.system.unitCount.Limited ∧
      t.system.unitRegistry.maxUnits = r.system.unitRegistry.maxUnits := by
  cases hclear : r.clearsUnits a with
  | true =>
    obtain ⟨hunits, hmax, -⟩ := unitCount_of_clearsUnits hclear h
    refine ⟨⟨fun id hid => ?_, ?_⟩, hmax⟩
    · change id ∈ t.system.unitRegistry.units at hid
      rw [hunits] at hid
      exact absurd hid (AList.notMem_empty id)
    · change t.system.unitRegistry.units.keys.length ≤ _
      rw [hunits]
      exact Nat.zero_le _
  | false => exact hcount.of_moves (countMoves_of_step hclear h)

end SystemRun

/-! ## Runs with updates -/

namespace LimitRun

/-- An action of the system, or an update of its configuration. -/
inductive Label
  | action (a : Action)
  | updateSystemConfiguration (config : SystemConfiguration)

/-- One step. -/
def step (r : SystemRun) : Label → Option SystemRun
  | .action a => r.step a
  | .updateSystemConfiguration config =>
    some { r with system := (r.system.updateSystemConfiguration config).1 }

/-- The runs of a system whose configuration may be updated. -/
def machine : Machine SystemRun Label where
  init := SystemRun.machine.init
  step := step

/-- **The reported limit is the one that counts**: a registration is refused for capacity exactly
when as many units are registered as `getSystemConfiguration()` allows, and there are never more. -/
structure LimitHonoured (r : SystemRun) : Prop where
  refused_iff : ∀ unit constraints now,
    (r.system.registerProcessingUnit unit constraints now).2 = none ↔
      r.system.systemConfig.maxProcessingUnits ≤ r.system.unitRegistry.count
  limited : r.system.unitRegistry.count ≤ r.system.systemConfig.maxProcessingUnits

/-- **The condition**: an update that is accepted leaves `maxProcessingUnits` as it is. -/
def KeepsLimit (r : SystemRun) : Label → Prop
  | .action _ => True
  | .updateSystemConfiguration config =>
    r.system.state = .uninitialized → config.validate = .ok () →
      config.maxProcessingUnits = r.system.systemConfig.maxProcessingUnits

/-- The two copies of the limit agree, and the registry keeps its own. -/
structure Agree (r : SystemRun) : Prop where
  limited : r.system.unitCount.Limited
  same : r.system.unitRegistry.maxUnits = r.system.systemConfig.maxProcessingUnits

variable {r t : SystemRun} {a : Label}

theorem refused_iff_full (r : SystemRun) (unit : ProcessingUnit) (constraints : TimingConstraints)
    (now : TimePoint) :
    (r.system.registerProcessingUnit unit constraints now).2 = none ↔
      r.system.unitRegistry.maxUnits ≤ r.system.unitRegistry.count := by
  have hadd : r.system.unitRegistry.add unit = none ↔
      r.system.unitRegistry.maxUnits ≤ r.system.unitRegistry.count := by
    unfold UnitRegistry.add
    split
    next hfull => exact ⟨fun _ => hfull, fun _ => rfl⟩
    next hroom => exact ⟨fun h => absurd h (by simp), fun h => absurd h hroom⟩
  rw [← hadd]
  unfold AxonVexSystem.registerProcessingUnit
  split
  next hnone => simp [hnone]
  next id unitRegistry hsome => simp [hsome]

/-- Where the two copies agree, the limit is honoured. -/
theorem Agree.honoured (h : Agree r) : LimitHonoured r where
  refused_iff unit constraints now := by
    rw [refused_iff_full, h.same]
  limited := by
    have hle : r.system.unitRegistry.count ≤ r.system.unitRegistry.maxUnits := h.limited.limited
    rw [← h.same]
    exact hle

/-- **The step.** -/
theorem Agree.step (h : Agree r) (hG : KeepsLimit r a) (ht : step r a = some t) : Agree t := by
  cases a with
  | action a =>
    obtain ⟨hlimited, hmax⟩ := SystemRun.limit_of_step h.limited ht
    have hconfig : t.system.systemConfig = r.system.systemConfig :=
      SystemRun.sameConfig_of_step ht
    exact ⟨hlimited, by rw [hmax, hconfig]; exact h.same⟩
  | updateSystemConfiguration config =>
    obtain ⟨⟩ := ht
    obtain ⟨hstate, hvalid, hupd⟩ | hupd :=
      AxonVexSystem.updateSystemConfiguration_cases r.system config
    · refine ⟨?_, ?_⟩ <;> rw [hupd]
      · exact ⟨h.limited.fresh, h.limited.limited⟩
      · exact h.same.trans (hG hstate hvalid).symm
    · rw [hupd]
      exact h

theorem Agree.init (hr : machine.init r) : Agree r := by
  obtain ⟨config, objectSize, -, rfl⟩ := hr
  exact ⟨⟨fun id hid => absurd hid (AList.notMem_empty id), Nat.zero_le _⟩, rfl⟩

/-- **The limit that is reported is the limit that holds**, in every state of a run whose accepted
updates keep it. -/
theorem limitHonoured_of_keepsLimit (hr : machine.ReachableUnder KeepsLimit r) :
    LimitHonoured r :=
  (hr.invariant ⟨fun _ h => Agree.init h, fun _ _ _ h hG ht => h.step hG ht⟩).honoured

/-- A unit for a run. -/
def camera : ProcessingUnit := .new 0 "camera"

/-- The camera is registered before and an update of the tick rate after it. -/
def updateTickRate : List Label :=
  [.action (.call (.external 0) (.registerProcessingUnit camera {} 0)),
    .updateSystemConfiguration { systemTickRate := 200 }]

/-- With one camera and a new tick rate, the limit is still the one reported. -/
theorem limitHonoured_updateTickRate :
    ∃ r, machine.exec (SystemRun.fresh {} 0) updateTickRate = some r ∧
      r.system.unitRegistry.count = 1 ∧ LimitHonoured r := by
  have hex : (machine.exec (SystemRun.fresh {} 0) updateTickRate).any
      (fun r => r.system.unitRegistry.count == 1) = true := by decide +kernel
  obtain ⟨r, hrun, hcount⟩ := (Option.any_eq_true _ _).mp hex
  have hinit : machine.init (SystemRun.fresh {} 0) := ⟨{}, 0, by decide, rfl⟩
  have hallowed : machine.Allowed KeepsLimit (SystemRun.fresh {} 0) updateTickRate := by
    refine fun s hs => ⟨trivial, fun t _ => ⟨fun _ _ => ?_, trivial⟩⟩
    have hconfig : s.system.systemConfig = (SystemRun.fresh {} 0).system.systemConfig :=
      SystemRun.sameConfig_of_step (a := .call (.external 0) (.registerProcessingUnit camera {} 0)) hs
    rw [hconfig]
    rfl
  exact ⟨r, hrun, of_decide_eq_true hcount,
    limitHonoured_of_keepsLimit (Machine.ReachableUnder.exec (.init hinit) hallowed hrun)⟩

/-- The limit is raised from 1 to 2 before the camera is registered. -/
def raiseLimit : List Label :=
  [.updateSystemConfiguration { maxProcessingUnits := 2 },
    .action (.call (.external 0) (.registerProcessingUnit camera {} 0))]

/-- **A raised limit has no effect**: with one unit of the two that are reported as allowed, the next
is refused. -/
theorem raised_limit_has_no_effect : ¬ ∀ r, machine.Reachable r → LimitHonoured r := by
  intro hall
  have hex : (machine.exec (SystemRun.fresh { maxProcessingUnits := 1 } 0) raiseLimit).any
      (fun r => (r.system.unitRegistry.maxUnits == 1 && r.system.unitRegistry.count == 1) &&
        r.system.systemConfig.maxProcessingUnits == 2) = true := by decide +kernel
  obtain ⟨r, hrun, hfacts⟩ := (Option.any_eq_true _ _).mp hex
  simp only [Bool.and_eq_true, beq_iff_eq] at hfacts
  obtain ⟨⟨hmax, hcount⟩, hconfig⟩ := hfacts
  have hinit : machine.init (SystemRun.fresh { maxProcessingUnits := 1 } 0) :=
    ⟨{ maxProcessingUnits := 1 }, 0, by decide, rfl⟩
  have hr : machine.Reachable r := Machine.Reachable.exec (.init hinit) hrun
  have hfull : r.system.unitRegistry.maxUnits ≤ r.system.unitRegistry.count := by omega
  have hrefused := ((hall r hr).refused_iff camera {} 0).mp ((refused_iff_full r camera {} 0).mpr hfull)
  omega

end LimitRun

end AxonVex
