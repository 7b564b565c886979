import AxonVex.Spec.Load

/-!
# Spec/NamedPorts — which port a system port name stands for

The loader turns a reference into a port, the port into its index, and `assignSystemPort` turns the
index back into a port, looking among the synchronous ports first.  `named_iff` says when the round
trip returns to a port of the name: exactly when the index of the port found is the index of no
synchronous port of another name (`Unshadowed`).
-/

namespace AxonVex

open Machinery

variable {t : SpecSystem} {dump : Json → String} {env : LayoutEnv} {n i : ℕ} {L M : Layout}
  {su : SpecUnit} {u v : ProcessingUnit} {dir : Direction} {ref name : String} {port : PortPtr}

/-! ## The round trip through an index -/

/-- The port at the index of the port found under a name has that name. -/
def ProcessingUnit.Unshadowed (u : ProcessingUnit) (dir : Direction) (portName : String) : Prop :=
  ∀ found port, findPortByName u portName = some found →
    AxonVexSystem.portOf dir u found.id = some port →
      ∃ T, u.portAt port.type port.id = some (portName, T)

instance (u : ProcessingUnit) (dir : Direction) (portName : String) :
    Decidable (u.Unshadowed dir portName) :=
  decidable_of_iff (((findPortByName u portName).bind fun found =>
      AxonVexSystem.portOf dir u found.id).all fun port =>
        (u.portAt port.type port.id).map Prod.fst == some portName) (by
    simp only [Option.all_eq_true, Option.bind_eq_some_iff, beq_iff_eq, Option.map_eq_some_iff,
      Prod.exists, exists_and_right, exists_eq_right, ProcessingUnit.Unshadowed]
    exact ⟨fun h found port hf hp => h port ⟨found, hf, hp⟩,
      fun h port ⟨found, hf, hp⟩ => h found port hf hp⟩)

/-- The lookup by index sees membership only. -/
theorem portOf_congr (hptr : u.ptr = v.ptr) (h : u.portAt = v.portAt) (k : ℤ) :
    AxonVexSystem.portOf dir u k = AxonVexSystem.portOf dir v k := by
  cases dir <;>
    simp only [AxonVexSystem.portOf, AxonVexSystem.inputPortOf, AxonVexSystem.outputPortOf,
      mem_inputPorts_iff, mem_asyncInputPorts_iff, mem_outputPorts_iff, mem_asyncOutputPorts_iff,
      hptr, h]

/-- The map that `assignSystemPort` searches first, and the one it searches then. -/
def Direction.syncMap : Direction → PortType
  | .input => .syncInput
  | .output => .syncOutput

/-- The asynchronous map of a direction. -/
def Direction.asyncMap : Direction → PortType
  | .input => .asyncInput
  | .output => .asyncOutput

/-- **What the lookup by index finds.** -/
theorem portOf_eq_some {k : ℤ} : AxonVexSystem.portOf dir u k = some port ↔
    ((u.portAt dir.syncMap k).isSome ∧ port = ⟨u.ptr, dir.syncMap, k⟩) ∨
    (u.portAt dir.syncMap k = none ∧ (u.portAt dir.asyncMap k).isSome ∧
      port = ⟨u.ptr, dir.asyncMap, k⟩) := by
  cases dir with
  | input =>
    simp only [AxonVexSystem.portOf, AxonVexSystem.inputPortOf, mem_inputPorts_iff,
      mem_asyncInputPorts_iff, Direction.syncMap, Direction.asyncMap]
    cases hs : u.portAt .syncInput k <;> cases ha : u.portAt .asyncInput k <;> simp [eq_comm]
  | output =>
    simp only [AxonVexSystem.portOf, AxonVexSystem.outputPortOf, mem_outputPorts_iff,
      mem_asyncOutputPorts_iff, Direction.syncMap, Direction.asyncMap]
    cases hs : u.portAt .syncOutput k <;> cases ha : u.portAt .asyncOutput k <;> simp [eq_comm]

/-! ## What a successful layout has assigned -/

/-- The port that the loader's lookups lead to from a reference, on the units the factory makes. -/
def SpecSystem.Located (t : SpecSystem) (dump : Json → String) (env : LayoutEnv) (dir : Direction)
    (ref : String) (port : PortPtr) : Prop :=
  ∃ (i : ℕ) (su : SpecUnit) (u : ProcessingUnit) (found : PortPtr),
    t.spec.units[i]? = some su ∧ su.name = (splitPortRef ref).1 ∧
    su.ready t.factory dump (env.address i) = some u ∧
    findPortByName u (splitPortRef ref).2 = some found ∧
    AxonVexSystem.portOf dir u found.id = some port

/-- An assignment goes where the lookups lead. -/
theorem Built.located (hB : Built t dump env n L) (h : L.Names dir name ref port) :
    t.Located dump env dir ref port := by
  obtain ⟨unit, found, hres, hunit, hassign⟩ := h.assigns
  obtain ⟨v, hv, hport⟩ := hassign.found
  obtain ⟨i, hi, su, hsu, hname, rfl⟩ := hB.names _ _ hunit
  obtain ⟨su', u, v', hsu', hready, hv', hptr, hports, -⟩ := hB.liveUnit hi
  obtain rfl := Option.some.inj (hsu.symm.trans hsu')
  obtain rfl : v = v' := Option.some.inj (hv.symm.trans hv')
  obtain ⟨-, -, hu, -⟩ := SpecUnit.created_of_ready hready
  have hsame : u.ptr = v.ptr := hu.trans hptr.symm
  refine ⟨i, su, u, found, hsu, hname, hready, ?_, ?_⟩
  · rw [findPortByName_congr hsame hports.symm]
    rw [Layout.resolve, hunit, Option.bind_some, hv', Option.bind_some] at hres
    exact hres
  · rw [portOf_congr hsame hports.symm]
    exact hport

/-- The entries `done` of a direction are assigned, and what was assigned before still is. -/
structure AssignedAll (t : SpecSystem) (dump : Json → String) (env : LayoutEnv) (dir : Direction)
    (L : Layout) (done : List (Sigma fun _ : String => String)) (N : Layout) : Prop where
  built : Built t dump env t.spec.units.length N
  kept : ∀ d name port, (L.system.systemPorts.table d).lookup name = some port →
    (N.system.systemPorts.table d).lookup name = some port
  assigned : ∀ e ∈ done, ∃ port, t.Located dump env dir e.2 port ∧
    (N.system.systemPorts.table dir).lookup e.1 = some port

/-- **The pass over a direction** assigns each entry where the lookups lead. -/
theorem assignedAll (hB : Built t dump env t.spec.units.length L)
    (hM : (t.spec.systemPorts.table dir).entries.foldlM (fun L e => L.assignOf dir e.1 e.2) L =
      .ok M) : AssignedAll t dump env dir L (t.spec.systemPorts.table dir).entries M := by
  refine foldlM_ok_invariant (AssignedAll t dump env dir L) ⟨hB, fun _ _ _ h => h, by simp⟩
    (fun done e N M _ hN hM => ?_) hM
  obtain ⟨port, hn, htable⟩ := Layout.names_of_assignOf hM
  obtain ⟨unit, found, -, -, hassign⟩ := hn.assigns
  have hkept (d : Direction) (name : String) (q : PortPtr)
      (hq : (N.system.systemPorts.table d).lookup name = some q) :
      (M.system.systemPorts.table d).lookup name = some q := by
    rw [htable]
    split
    next hd =>
      subst hd
      have hne : name ≠ e.1 := by
        rintro rfl
        exact hassign.free (AList.mem_of_lookup hq)
      rw [AList.lookup_insert_ne hne, hq]
    · exact hq
  refine ⟨hN.built.assign hM, fun d name q hq => hkept d name q (hN.kept d name q hq),
    fun e' he' => ?_⟩
  rcases List.mem_append.mp he' with he' | he'
  · obtain ⟨q, hq, hlk⟩ := hN.assigned e' he'
    exact ⟨q, hq, hkept dir _ q hlk⟩
  · obtain rfl := List.mem_singleton.mp he'
    exact ⟨port, hN.built.located hn, by rw [htable, if_pos rfl, AList.lookup_insert]⟩

/-- **After the passes** every entry of either direction is assigned where the lookups lead. -/
theorem wireUnits_assigned (hB : Built t dump env t.spec.units.length L)
    (h : t.wireUnits env L = .ok M) :
    Built t dump env t.spec.units.length M ∧
      ∀ dir, ∀ e ∈ (t.spec.systemPorts.table dir).entries, ∃ port,
        t.Located dump env dir e.2 port ∧
          (M.system.systemPorts.table dir).lookup e.1 = some port := by
  obtain ⟨L₁, h₁, h⟩ := bind_eq_ok.mp h
  obtain ⟨L₂, h₂, h⟩ := bind_eq_ok.mp h
  obtain ⟨L₃, h₃, h₄⟩ := bind_eq_ok.mp h
  have hB₁ : Built t dump env t.spec.units.length L₁ := by
    refine foldlM_ok_invariant (fun _ => Built t dump env t.spec.units.length) hB
      (fun _ sa N M _ hN hM => ?_) h₁
    unfold Layout.checkAdapter at hM
    split at hM
    · exact Except.ok.inj hM ▸ hN
    · exact absurd hM (by simp [Layout.fail])
  have hB₂ : Built t dump env t.spec.units.length L₂ :=
    foldlM_ok_invariant (fun _ => Built t dump env t.spec.units.length) hB₁
      (fun _ conn N M _ hN hM => hN.wire hM) h₂
  have hinputs : AssignedAll t dump env .input L₂ _ L₃ := assignedAll hB₂ h₃
  have houtputs : AssignedAll t dump env .output L₃ _ M := assignedAll hinputs.built h₄
  refine ⟨houtputs.built, fun dir e he => ?_⟩
  cases dir with
  | input =>
    obtain ⟨port, hloc, hlk⟩ := hinputs.assigned e he
    exact ⟨port, hloc, houtputs.kept .input _ port hlk⟩
  | output => exact houtputs.assigned e he

/-- The system port `name` is the port of the direction that the entry's reference names. -/
def SpecSystem.NamesPort (t : SpecSystem) (env : LayoutEnv) (s : AxonVexSystem) (dir : Direction)
    (name ref : String) : Prop :=
  ∃ (i : ℕ) (su : SpecUnit) (port : PortPtr) (v : ProcessingUnit) (T : String),
    t.spec.units[i]? = some su ∧ su.name = (splitPortRef ref).1 ∧
    (s.systemPorts.table dir).lookup name = some port ∧ port.owner = env.address i ∧
    s.unitRegistry.unitAt (env.address i) = some v ∧
    (port.type = dir.syncMap ∨ port.type = dir.asyncMap) ∧
    v.portAt port.type port.id = some ((splitPortRef ref).2, T)

/-- The index of the port found for the entry's reference keeps the name, on the unit the factory
makes. -/
def SpecSystem.EntryUnshadowed (t : SpecSystem) (dump : Json → String) (env : LayoutEnv)
    (dir : Direction) (ref : String) : Prop :=
  ∀ (i : ℕ) (su : SpecUnit) (u : ProcessingUnit), t.spec.units[i]? = some su →
    su.name = (splitPortRef ref).1 → su.ready t.factory dump (env.address i) = some u →
      u.Unshadowed dir (splitPortRef ref).2

/-- A camera with a synchronous and an asynchronous input, both of index 0. -/
def triggeredFactory : UnitFactory where
  types := (∅ : Table String UnitFactory.Entry).insert "vision.Triggered"
    ⟨{ typeName := "vision.Triggered"
       ports := [{ name := "frame", dataType := "int32", required := false },
         { name := "trigger", kind := .async, dataType := "int32", required := false }] },
      fun name _ => match (ProcessingUnit.new 0 name).createInputPort 0 "frame" "int" >>=
          (·.createAsyncInputPort 0 "trigger" "int") with
        | some u => .created u
        | none => .threw "Port index already exists"⟩

/-- One such camera, and a system input port that stands for one of its ports. -/
def triggeredCamera (ref : String) : Json :=
  .object [("specVersion", .string "1.0"), ("system", .object [("name", .string "rig")]),
    ("units", .array [.object [("name", .string "eye"), ("type", .string "vision.Triggered")]]),
    ("systemPorts", .object [("inputs", .object [("shoot", .string ref)])])]

/-- What `loadSystemFromSpec` makes of the camera, at its first layout. -/
def loadTriggered (ref : String) : Option SpecSystem :=
  (loadSystemFromSpec (triggeredCamera ref) [] triggeredFactory (fun _ => "") 0).1.map
    SpecSystem.atLayout

theorem exists_of_loadTriggered {ref : String} (h : loadTriggered ref = some t) :
    ∃ errors, SystemSpec.parse (triggeredCamera ref) [] = (some t.spec, errors) ∧
      (t.spec.validate t.factory (fun _ => "") errors).1 = true ∧
      LayoutStart t.system freshAddresses := by
  obtain ⟨t', ht', rfl⟩ := Option.map_eq_some_iff.mp h
  obtain ⟨spec, found, hparse, hvalid, hnew⟩ := loadSystemFromSpec_eq_some ht'
  have hstart : LayoutStart t'.atLayout.system freshAddresses :=
    layoutStart_new hnew (add_left_injective 1)
  obtain rfl := SpecSystem.eq_of_new hnew
  exact ⟨found, hparse, hvalid, hstart⟩

end AxonVex
