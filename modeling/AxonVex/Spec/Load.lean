import AxonVex.Spec.Accepted
import AxonVex.Spec.Build

/-!
# Spec/Load — when an accepted document loads

`validate` accepts a document by the descriptors of its units, and the loader builds it from the
units themselves.  With a factory whose descriptors are honest (`UnitFactory.Honest`) the outcome
of the loader is a function of the document and the descriptors: `loads_iff` says that
`initializeBlocksLayout` succeeds on a new system exactly when the spec is `Loadable` — its units
fit, their factors survive the cast to `int`, no system port has the empty name, and the ports the
loader finds first under the names of the document are ones it can use.
-/

namespace AxonVex

open Machinery

variable {cxxType : String ↪ String}

/-! ## What the loader needs of a document -/

/-- The maps of a unit that hold the ports of a direction. -/
def Direction.maps : Direction → List PortType
  | .input => [.syncInput, .asyncInput]
  | .output => [.syncOutput, .asyncOutput]

/-- An index of a port of the direction, in whichever map. -/
def UnitTypeDescriptor.HasIndex (descriptor : UnitTypeDescriptor) (d : Direction) (i : ℤ) : Prop :=
  ∃ type ∈ d.maps, (descriptor.dataTypeAt type i).isSome

/-- The port the loader finds for a reference, with the descriptor of its unit. -/
def SystemSpec.loaderPort (spec : SystemSpec) (factory : UnitFactory) (ref : String) :
    Option (UnitTypeDescriptor × PortType × ℤ) :=
  (spec.units.find? (·.name == (splitPortRef ref).1)).bind fun su =>
    (factory.describe su.type).bind fun descriptor =>
      (descriptor.loaderPort (splitPortRef ref).2).map (descriptor, ·)

/-- The two ports the loader finds for a connection are an output and an input of one kind and one
data type. -/
def SystemSpec.WireFits (spec : SystemSpec) (factory : UnitFactory) (conn : SpecConnection) : Prop :=
  ∃ d p e q, spec.loaderPort factory conn.source = some (d, p) ∧
    spec.loaderPort factory conn.target = some (e, q) ∧ p.1.peer = some q.1 ∧
    d.dataTypeAt p.1 p.2 = e.dataTypeAt q.1 q.2

/-- The port the loader finds for a system port has the index of a port of the direction. -/
def SystemSpec.PortFits (spec : SystemSpec) (factory : UnitFactory) (dir : Direction) (ref : String) :
    Prop :=
  ∃ d p, spec.loaderPort factory ref = some (d, p) ∧ d.HasIndex dir p.2

/-- **What makes an accepted document load.** -/
structure SystemSpec.Loadable (spec : SystemSpec) (factory : UnitFactory) : Prop where
  unitsFit : spec.units.length ≤ spec.maxProcessingUnits
  factors : ∀ su ∈ spec.units, 1 ≤ su.downSamplingFactor
  named : ∀ dir, "" ∉ spec.systemPorts.table dir
  wires : ∀ conn ∈ spec.connections, spec.WireFits factory conn
  ports : ∀ dir name ref, (spec.systemPorts.table dir).lookup name = some ref →
    spec.PortFits factory dir ref

/-- Creation succeeds on parameters that pass, and makes the ports the descriptor describes. -/
def UnitFactory.Honest (factory : UnitFactory) (dump : Json → String) (cxxType : String ↪ String) :
    Prop :=
  ∀ typeName entry, factory.types.lookup typeName = some entry → ∀ instanceName params,
    validateParams dump entry.descriptor params = [] →
      ∃ unit, entry.create instanceName params = .created unit ∧
        Describes cxxType entry.descriptor unit

/-- What `parse` and `validate` and an honest factory give the loader. -/
structure SpecSystem.Accepted (t : SpecSystem) (dump : Json → String) (cxxType : String ↪ String) :
    Prop where
  names : (t.spec.units.map (·.name)).Nodup
  registered : ∀ su ∈ t.spec.units, ∃ entry, t.factory.types.lookup su.type = some entry ∧
    validateParams dump entry.descriptor su.params = []
  honest : t.factory.Honest dump cxxType

variable {t : SpecSystem} {dump : Json → String} {env : LayoutEnv} {L M : Layout} {su : SpecUnit}
  {ref : String}

namespace SpecSystem.Accepted

/-- A unit of an accepted spec is created as its type describes it. -/
theorem created (h : t.Accepted dump cxxType) (hsu : su ∈ t.spec.units) :
    ∃ descriptor unit, t.factory.describe su.type = some descriptor ∧
      t.factory.create dump su.type su.name su.params = .created unit ∧
      Describes cxxType descriptor unit := by
  obtain ⟨entry, hentry, hparams⟩ := h.registered su hsu
  obtain ⟨unit, hunit, hdescribes⟩ := h.honest _ entry hentry su.name su.params hparams
  exact ⟨entry.descriptor, unit, UnitFactory.describe_eq_some.mpr ⟨entry, hentry, rfl⟩,
    (UnitFactory.create_of_registered hentry hparams su.name).trans hunit, hdescribes⟩

/-- Two units of one name are one unit. -/
theorem eq_of_name (h : t.Accepted dump cxxType) {su su' : SpecUnit} (hsu : su ∈ t.spec.units)
    (hsu' : su' ∈ t.spec.units) (hname : su.name = su'.name) : su = su' :=
  List.inj_on_of_nodup_map h.names hsu hsu' hname

end SpecSystem.Accepted

/-- How the loader sees a reference: nobody has that name, or a live unit of a described type. -/
theorem Built.resolve (hB : Built t dump env t.spec.units.length L) (h : t.Accepted dump cxxType)
    (ref : String) :
    (t.spec.loaderPort t.factory ref = none ∧ L.resolve ref = none) ∨
    ∃ descriptor p unit v, t.spec.loaderPort t.factory ref = some (descriptor, p) ∧
      L.unitsByName.lookup (splitPortRef ref).1 = some unit ∧ L.liveUnit unit = some v ∧
      Describes cxxType descriptor v ∧
      (descriptor.dataTypeAt p.1 p.2).isSome = true ∧ L.resolve ref = some ⟨unit, p.1, p.2⟩ := by
  cases hfind : t.spec.units.find? (·.name == (splitPortRef ref).1) with
  | none =>
    refine .inl ⟨by simp [SystemSpec.loaderPort, hfind], ?_⟩
    have hlk : L.unitsByName.lookup (splitPortRef ref).1 = none := by
      refine AList.lookup_eq_none.mpr fun hm => ?_
      obtain ⟨unit, hunit⟩ := Option.isSome_iff_exists.mp (AList.lookup_isSome.mpr hm)
      obtain ⟨i, -, su, hsu, hname, -⟩ := hB.names _ _ hunit
      have := List.find?_eq_none.mp hfind su (List.mem_of_getElem? hsu)
      simp [hname] at this
    simp [Layout.resolve, hlk]
  | some su =>
    have hmem := List.mem_of_find?_eq_some hfind
    have hname : su.name = (splitPortRef ref).1 := by simpa using List.find?_some hfind
    obtain ⟨descriptor, created, hdesc, hcreated, hdescribes⟩ := h.created hmem
    -- the unit registered under the name is the one created for `su`
    obtain ⟨j, hj, rfl⟩ := List.getElem_of_mem hmem
    obtain ⟨unit, hunit⟩ := Option.isSome_iff_exists.mp
      (AList.lookup_isSome.mpr (hB.named j hj _ (List.getElem?_eq_getElem hj)))
    obtain ⟨i, hi, su', hsu', hname', rfl⟩ := hB.names _ _ hunit
    obtain rfl := h.eq_of_name (List.mem_of_getElem? hsu') hmem hname'
    obtain ⟨su'', u, v, hsu'', hready, hv, hptr, hports, -⟩ := hB.liveUnit hi
    obtain rfl := Option.some.inj (hsu'.symm.trans hsu'')
    obtain ⟨unit', hunit', -, hshape, -⟩ := SpecUnit.created_of_ready hready
    obtain rfl : created = unit' := Creation.created.inj (hcreated.symm.trans hunit')
    have hlive : Describes cxxType descriptor v := by
      intro type k portName T
      rw [hports, hshape]
      exact hdescribes type k portName T
    have hresolve : L.resolve ref = (descriptor.loaderPort (splitPortRef ref).2).map
        fun p => ⟨env.address i, p.1, p.2⟩ := by
      rw [Layout.resolve, ← hname, hunit, Option.bind_some, hv, Option.bind_some,
        hlive.findPortByName, hptr]
    have hloader : t.spec.loaderPort t.factory ref =
        (descriptor.loaderPort (splitPortRef ref).2).map (descriptor, ·) := by
      simp only [SystemSpec.loaderPort, hfind, Option.bind_some, hdesc]
    cases hp : descriptor.loaderPort (splitPortRef ref).2 with
    | none => exact .inl ⟨by rw [hloader, hp]; rfl, by rw [hresolve, hp]; rfl⟩
    | some p =>
      refine .inr ⟨descriptor, p, env.address i, v, by rw [hloader, hp]; rfl, hname ▸ hunit, hv,
        hlive, ?_, by rw [hresolve, hp]; rfl⟩
      have hfound := hlive.findPortByName (splitPortRef ref).2
      rw [hp, Option.map_some] at hfound
      obtain ⟨T, hT⟩ := portAt_of_findPortByName hfound
      rw [← hlive.isSome_portAt, hT]
      rfl

/-! ## Each step of the loader -/

variable {dir : Direction} {name : String} {i : ℤ}

/-- `assignSystemPort` finds a port at an index exactly where the descriptor has one. -/
theorem Describes.isSome_portOf {descriptor : UnitTypeDescriptor} {u : ProcessingUnit}
    (h : Describes cxxType descriptor u) :
    (∃ port, AxonVexSystem.portOf dir u i = some port) ↔ descriptor.HasIndex dir i := by
  have hmaps : descriptor.HasIndex dir i ↔ ∃ type ∈ dir.maps, (u.portAt type i).isSome := by
    simp only [UnitTypeDescriptor.HasIndex, h.isSome_portAt]
  rw [hmaps]
  cases dir with
  | input =>
    simp only [AxonVexSystem.portOf, AxonVexSystem.inputPortOf, mem_inputPorts_iff,
      mem_asyncInputPorts_iff, Direction.maps, List.mem_cons, List.not_mem_nil, or_false,
      exists_eq_or_imp, exists_eq_left]
    split_ifs <;> simp_all
  | output =>
    simp only [AxonVexSystem.portOf, AxonVexSystem.outputPortOf, mem_outputPorts_iff,
      mem_asyncOutputPorts_iff, Direction.maps, List.mem_cons, List.not_mem_nil, or_false,
      exists_eq_or_imp, exists_eq_left]
    split_ifs <;> simp_all

/-- **A system port is assigned** exactly when its entry fits and its name is free. -/
theorem Built.names_iff (hB : Built t dump env t.spec.units.length L)
    (h : t.Accepted dump cxxType) (hfree : name ∉ L.system.systemPorts.table dir) :
    (∃ port, L.Names dir name ref port) ↔ name ≠ "" ∧ t.spec.PortFits t.factory dir ref := by
  constructor
  · rintro ⟨port, hn⟩
    obtain ⟨unit, found, hfound, hunit, hassign⟩ := hn.assigns
    obtain ⟨u, hu, hport⟩ := hassign.found
    refine ⟨hassign.named, ?_⟩
    rcases hB.resolve h ref with ⟨-, hnone⟩ | ⟨descriptor, p, unit', v, hp, hunit', hv, hd, -, hres⟩
    · exact absurd (hfound.symm.trans hnone) (by simp)
    · obtain rfl := Option.some.inj (hunit.symm.trans hunit')
      obtain rfl : u = v := Option.some.inj (hu.symm.trans hv)
      obtain rfl := Option.some.inj (hfound.symm.trans hres)
      exact ⟨descriptor, p, hp, hd.isSome_portOf.mp ⟨port, hport⟩⟩
  · rintro ⟨hne, descriptor', p', hp', hindex⟩
    rcases hB.resolve h ref with ⟨hnone, -⟩ | ⟨descriptor, p, unit, v, hp, hunit, hv, hd, -, hres⟩
    · exact absurd (hp'.symm.trans hnone) (by simp)
    · obtain ⟨rfl, rfl⟩ := Prod.mk.inj (Option.some.inj (hp'.symm.trans hp))
      obtain ⟨port, hport⟩ := hd.isSome_portOf.mpr hindex
      exact ⟨port, ⟨⟨unit, _, hres, hunit, hne, ⟨v, hv, hport⟩, hfree⟩⟩⟩

/-- **A connection is wired** exactly when it fits. -/
theorem Built.wires_iff (hB : Built t dump env t.spec.units.length L)
    (h : t.Accepted dump cxxType) {conn : SpecConnection} :
    (∃ source target, L.Wires conn source target) ↔ t.spec.WireFits t.factory conn := by
  constructor
  · rintro ⟨source, target, hw⟩
    rcases hB.resolve h conn.source with ⟨-, hnone⟩ | ⟨d, p, unit, v, hp, -, hv, hd, -, hres⟩
    · exact absurd (hw.resolveSource.symm.trans hnone) (by simp)
    rcases hB.resolve h conn.target with ⟨-, hnone⟩ | ⟨e, q, unit', w, hq, -, hw', he, -, hres'⟩
    · exact absurd (hw.resolveTarget.symm.trans hnone) (by simp)
    obtain rfl := Option.some.inj (hw.resolveSource.symm.trans hres)
    obtain rfl := Option.some.inj (hw.resolveTarget.symm.trans hres')
    obtain ⟨v', w', T, n, m, hv', hw'', hpeer, hsource, htarget⟩ := hw.connects
    obtain rfl : v = v' := Option.some.inj (hv.symm.trans hv')
    obtain rfl : w = w' := Option.some.inj (hw'.symm.trans hw'')
    refine ⟨d, p, e, q, hp, hq, hpeer, ?_⟩
    have h1 := hd.portAt_dataType p.1 p.2
    have h2 := he.portAt_dataType q.1 q.2
    rw [hsource] at h1
    rw [htarget] at h2
    exact Option.map_injective cxxType.injective (h1.symm.trans h2)
  · rintro ⟨d, p, e, q, hp, hq, hpeer, hT⟩
    rcases hB.resolve h conn.source with ⟨hnone, -⟩ | ⟨d', p', unit, v, hp', -, hv, hd, hsome, hres⟩
    · exact absurd (hp.symm.trans hnone) (by simp)
    rcases hB.resolve h conn.target with ⟨hnone, -⟩ | ⟨e', q', unit', w, hq', -, hw, he, -, hres'⟩
    · exact absurd (hq.symm.trans hnone) (by simp)
    obtain ⟨rfl, rfl⟩ := Prod.mk.inj (Option.some.inj (hp.symm.trans hp'))
    obtain ⟨rfl, rfl⟩ := Prod.mk.inj (Option.some.inj (hq.symm.trans hq'))
    obtain ⟨T, hT'⟩ := Option.isSome_iff_exists.mp hsome
    have h1 := hd.portAt_dataType p.1 p.2
    have h2 := he.portAt_dataType q.1 q.2
    rw [hT', Option.map_some] at h1
    rw [← hT, hT', Option.map_some] at h2
    obtain ⟨⟨n, T₁⟩, hn, rfl⟩ := Option.map_eq_some_iff.mp h1
    obtain ⟨⟨m, T₂⟩, hm, hTT⟩ := Option.map_eq_some_iff.mp h2
    refine ⟨_, _, hres, hres', v, w, cxxType T, n, m, hv, hw, hpeer, ?_, ?_⟩
    · exact hn
    · rw [hm, ← hTT]

/-! ## The passes -/

/-- With every adapter there, the check of the adapters changes nothing. -/
theorem checkAdapters_ok {adapters : List SpecAdapter}
    (hinjected : ∀ sa ∈ adapters, env.injected sa.uri = true) (L : Layout) :
    adapters.foldlM (fun L sa => L.checkAdapter env sa) L = .ok L := by
  induction adapters generalizing L with
  | nil => rfl
  | cons sa rest ih =>
    rw [List.foldlM_cons, Layout.checkAdapter, if_pos (hinjected sa List.mem_cons_self)]
    exact ih (fun sa' hsa' => hinjected sa' (List.mem_cons_of_mem _ hsa')) L

/-- The pass over the connections. -/
theorem wirePass (hB : Built t dump env t.spec.units.length L) (h : t.Accepted dump cxxType) :
    ((∃ M, t.spec.connections.foldlM (fun L conn => L.wire conn) L = .ok M) ↔
      ∀ conn ∈ t.spec.connections, t.spec.WireFits t.factory conn) ∧
    ∀ M, t.spec.connections.foldlM (fun L conn => L.wire conn) L = .ok M →
      Built t dump env t.spec.units.length M ∧ M.system.systemPorts = L.system.systemPorts := by
  have hstep (done : List SpecConnection) (conn : SpecConnection) (N M : Layout)
      (_ : ∃ later, done ++ conn :: later = t.spec.connections)
      (hN : Built t dump env t.spec.units.length N ∧ N.system.systemPorts = L.system.systemPorts)
      (hM : N.wire conn = .ok M) :
      Built t dump env t.spec.units.length M ∧ M.system.systemPorts = L.system.systemPorts :=
    ⟨hN.1.wire hM, (Layout.systemPorts_wire hM).trans hN.2⟩
  refine ⟨foldlM_ok_iff (fun _ N => Built t dump env t.spec.units.length N ∧
    N.system.systemPorts = L.system.systemPorts) _ ⟨hB, rfl⟩ hstep fun done conn N _ hN => ?_,
    fun M hM => foldlM_ok_invariant (fun _ N => Built t dump env t.spec.units.length N ∧
      N.system.systemPorts = L.system.systemPorts) ⟨hB, rfl⟩ hstep hM⟩
  rw [← hN.1.wires_iff h]
  constructor
  · rintro ⟨M, hM⟩
    by_contra hw
    obtain ⟨e, he⟩ := Layout.wire_refused fun source target hc => hw ⟨source, target, hc⟩
    exact absurd (hM.symm.trans he) (by simp)
  · rintro ⟨source, target, hw⟩
    exact ⟨_, Layout.wire_of_wires hw⟩

/-- What the layout `N` has made of `L` once the entries `done` of a direction are assigned. -/
structure AssignedSoFar (t : SpecSystem) (dump : Json → String) (env : LayoutEnv) (dir : Direction)
    (L : Layout) (done : List (Sigma fun _ : String => String)) (N : Layout) : Prop where
  built : Built t dump env t.spec.units.length N
  taken : ∀ name ∈ N.system.systemPorts.table dir, name ∈ done.map Sigma.fst
  other : ∀ d ≠ dir, N.system.systemPorts.table d = L.system.systemPorts.table d

/-- The names of a map are different. -/
theorem notMem_of_entries {entries done later : List (Sigma fun _ : String => String)}
    {e : Sigma fun _ : String => String} (hnodup : entries.NodupKeys)
    (hsplit : done ++ e :: later = entries) : e.1 ∉ done.map Sigma.fst := by
  have hn : (entries.map Sigma.fst).Nodup := hnodup
  rw [← hsplit, List.map_append, List.map_cons, List.nodup_append] at hn
  exact fun hm => hn.2.2 _ hm _ List.mem_cons_self rfl

/-- The pass over the system ports of a direction. -/
theorem assignPass (hB : Built t dump env t.spec.units.length L) (h : t.Accepted dump cxxType)
    (hfree : L.system.systemPorts.table dir = ∅) :
    ((∃ M, (t.spec.systemPorts.table dir).entries.foldlM (fun L e => L.assignOf dir e.1 e.2) L =
        .ok M) ↔
      ∀ e ∈ (t.spec.systemPorts.table dir).entries,
        e.1 ≠ "" ∧ t.spec.PortFits t.factory dir e.2) ∧
    ∀ M, (t.spec.systemPorts.table dir).entries.foldlM (fun L e => L.assignOf dir e.1 e.2) L =
        .ok M →
      AssignedSoFar t dump env dir L (t.spec.systemPorts.table dir).entries M := by
  have hstart : AssignedSoFar t dump env dir L [] L :=
    ⟨hB, fun name hm => absurd hm (by simp [hfree]), fun _ _ => rfl⟩
  have hstep (done : List (Sigma fun _ : String => String)) (e : Sigma fun _ : String => String)
      (N M : Layout) (_ : ∃ later, done ++ e :: later = (t.spec.systemPorts.table dir).entries)
      (hN : AssignedSoFar t dump env dir L done N) (hM : N.assignOf dir e.1 e.2 = .ok M) :
      AssignedSoFar t dump env dir L (done ++ [e]) M := by
    obtain ⟨port, -, htable⟩ := Layout.names_of_assignOf hM
    refine ⟨hN.built.assign hM, fun name hm => ?_, fun d hd => ?_⟩
    · rw [htable, if_pos rfl, AList.mem_insert] at hm
      rw [List.map_append, List.mem_append]
      rcases hm with rfl | hm
      · exact .inr (by simp)
      · exact .inl (hN.taken name hm)
    · rw [htable, if_neg hd, hN.other d hd]
  refine ⟨foldlM_ok_iff (AssignedSoFar t dump env dir L) _ hstart hstep fun done e N hl hN => ?_,
    fun M hM => foldlM_ok_invariant (AssignedSoFar t dump env dir L) hstart hstep hM⟩
  obtain ⟨later, hlater⟩ := hl
  have hnew : e.1 ∉ N.system.systemPorts.table dir := fun hm =>
    notMem_of_entries (t.spec.systemPorts.table dir).nodupKeys hlater (hN.taken _ hm)
  rw [← hN.built.names_iff h hnew]
  constructor
  · rintro ⟨M, hM⟩
    obtain ⟨port, hn, -⟩ := Layout.names_of_assignOf hM
    exact ⟨port, hn⟩
  · rintro ⟨port, hn⟩
    obtain ⟨s, hs, -⟩ := Layout.assignOf_of_names hn
    exact ⟨_, hs⟩

/-- **The passes after the unit pass** succeed exactly when every connection and every system port
fits. -/
theorem wireUnits_ok_iff (hB : Built t dump env t.spec.units.length L)
    (h : t.Accepted dump cxxType) (hfree : ∀ dir, L.system.systemPorts.table dir = ∅)
    (hinjected : ∀ sa ∈ t.spec.adapters, env.injected sa.uri = true) :
    (∃ M, t.wireUnits env L = .ok M) ↔
      (∀ conn ∈ t.spec.connections, t.spec.WireFits t.factory conn) ∧
      ∀ dir, ∀ e ∈ (t.spec.systemPorts.table dir).entries,
        e.1 ≠ "" ∧ t.spec.PortFits t.factory dir e.2 := by
  have hports : (∀ dir, ∀ e ∈ (t.spec.systemPorts.table dir).entries,
      e.1 ≠ "" ∧ t.spec.PortFits t.factory dir e.2) ↔
      (∀ e ∈ t.spec.systemPorts.inputs.entries, e.1 ≠ "" ∧ t.spec.PortFits t.factory .input e.2) ∧
      ∀ e ∈ t.spec.systemPorts.outputs.entries, e.1 ≠ "" ∧ t.spec.PortFits t.factory .output e.2 :=
    ⟨fun hall => ⟨hall .input, hall .output⟩, fun hall dir => by cases dir; exacts [hall.1, hall.2]⟩
  unfold SpecSystem.wireUnits
  rw [checkAdapters_ok hinjected, ok_bind, hports, ← (wirePass hB h).1]
  refine ok_bind_iff fun L₂ h₂ => ?_
  obtain ⟨hB₂, hports₂⟩ := (wirePass hB h).2 L₂ h₂
  have hfree₂ (dir : Direction) : L₂.system.systemPorts.table dir = ∅ := hports₂ ▸ hfree dir
  refine (ok_bind_iff fun L₃ h₃ => ?_).trans (and_congr_left' (assignPass hB₂ h (hfree₂ .input)).1)
  have hA := (assignPass hB₂ h (hfree₂ .input)).2 L₃ h₃
  exact (assignPass hA.built h ((hA.other .output (by decide)).trans (hfree₂ .output))).1

/-- A unit of an accepted spec gets as far as its registration exactly when its factor allows it. -/
theorem SpecSystem.Accepted.ready_iff (h : t.Accepted dump cxxType) (hsu : su ∈ t.spec.units)
    (ptr : UnitPtr) : (∃ u, su.ready t.factory dump ptr = some u) ↔ 1 ≤ su.downSamplingFactor := by
  constructor
  · rintro ⟨u, hu⟩
    obtain ⟨-, -, -, -, hfactor⟩ := SpecUnit.created_of_ready hu
    exact hfactor
  · intro hfactor
    obtain ⟨-, unit, -, hunit, -⟩ := h.created hsu
    exact SpecUnit.ready_of_created hunit hfactor

/-- **The unit pass** registers every unit exactly when they fit and their factors are good. -/
theorem reaches_iff (h : t.Accepted dump cxxType)
    (hempty : t.system.unitRegistry.units.keys.length = 0) :
    t.Reaches dump env t.spec.units.length ↔
      t.spec.units.length ≤ t.system.unitRegistry.maxUnits ∧
        ∀ su ∈ t.spec.units, 1 ≤ su.downSamplingFactor := by
  constructor
  · intro hr
    refine ⟨?_, fun su hsu => ?_⟩
    · rcases Nat.eq_zero_or_pos t.spec.units.length with hzero | hpos
      · exact hzero ▸ Nat.zero_le _
      · have hlast := (hr (t.spec.units.length - 1) (by omega)).2
        omega
    · obtain ⟨i, hi, rfl⟩ := List.getElem_of_mem hsu
      obtain ⟨⟨su', u, hsu', hu⟩, -⟩ := hr i hi
      obtain rfl : t.spec.units[i] = su' := Option.some.inj ((List.getElem?_eq_getElem hi).symm.trans hsu')
      exact (h.ready_iff hsu _).mp ⟨u, hu⟩
  · rintro ⟨hfit, hfactors⟩ i hi
    have hmem := List.getElem_mem hi
    obtain ⟨u, hu⟩ := (h.ready_iff hmem (env.address i)).mpr (hfactors _ hmem)
    exact ⟨⟨_, u, List.getElem?_eq_getElem hi, hu⟩, by omega⟩

/-! ## The whole layout -/

/-- **The passes of a layout** on a system without units and system ports. -/
theorem layoutPasses_ok_iff (hs : LayoutStart t.system env) (h : t.Accepted dump cxxType)
    (hempty : t.system.unitRegistry.units.keys.length = 0)
    (hfree : ∀ dir, t.system.systemPorts.table dir = ∅)
    (hinjected : ∀ sa ∈ t.spec.adapters, env.injected sa.uri = true)
    (hmax : t.system.unitRegistry.maxUnits = t.spec.maxProcessingUnits) :
    (∃ L, t.layoutPasses dump env = .ok L) ↔ t.spec.Loadable t.factory := by
  have hunits : (∃ L, t.instantiateUnits dump env { system := t.system } = .ok L) ↔
      t.Reaches dump env t.spec.units.length := by
    rcases instantiateUnits_run dump hs with ⟨L, hL, -, hr, -⟩ | ⟨n, L, stop, hL, -, hS⟩
    · exact ⟨fun _ => hr, fun _ => ⟨L, hL⟩⟩
    · exact ⟨fun ⟨M, hM⟩ => absurd (hM.symm.trans hL) (by simp),
        fun hr => absurd (hr n hS.inSpec) hS.notRegistered⟩
  have hpasses : (∃ L, t.layoutPasses dump env = .ok L) ↔
      (∃ L, t.instantiateUnits dump env { system := t.system } = .ok L) ∧
      (∀ conn ∈ t.spec.connections, t.spec.WireFits t.factory conn) ∧
      ∀ dir, ∀ e ∈ (t.spec.systemPorts.table dir).entries,
        e.1 ≠ "" ∧ t.spec.PortFits t.factory dir e.2 := by
    refine ok_bind_iff fun L hL => ?_
    rcases instantiateUnits_run dump hs with ⟨L', hL', hB, -, hports⟩ | ⟨n, L', stop, hL', -⟩
    · obtain rfl := Except.ok.inj (hL.symm.trans hL')
      exact wireUnits_ok_iff hB h (fun dir => hports ▸ hfree dir) hinjected
    · exact absurd (hL.symm.trans hL') (by simp)
  have hlookup (dir : Direction) (e : Sigma fun _ : String => String) :
      e ∈ (t.spec.systemPorts.table dir).entries ↔
        (t.spec.systemPorts.table dir).lookup e.1 = some e.2 := AList.mem_lookup_iff.symm
  rw [hpasses, hunits, reaches_iff h hempty, hmax]
  constructor
  · rintro ⟨⟨hfit, hfactors⟩, hwires, hports⟩
    refine ⟨hfit, hfactors, fun dir hm => ?_, hwires, fun dir name ref hlk => ?_⟩
    · obtain ⟨ref, href⟩ := Option.isSome_iff_exists.mp (AList.lookup_isSome.mpr hm)
      exact (hports dir ⟨"", ref⟩ ((hlookup dir ⟨"", ref⟩).mpr href)).1 rfl
    · exact (hports dir ⟨name, ref⟩ ((hlookup dir ⟨name, ref⟩).mpr hlk)).2
  · intro hload
    refine ⟨⟨hload.unitsFit, hload.factors⟩, hload.wires, fun dir e he => ?_⟩
    have hlk := (hlookup dir e).mp he
    refine ⟨fun hname => hload.named dir ?_, hload.ports dir e.1 e.2 hlk⟩
    rw [← hname]
    exact AList.mem_of_lookup hlk

/-- **When an accepted document loads.**  For a document that `parse` and `validate` accept, an honest
factory, injected adapters and no mission pipelines, the first `initializeBlocksLayout` of a new
system returns `true` exactly when the spec is loadable. -/
theorem loads_iff {doc : Json} {errors errors' : List SpecError} {spec : SystemSpec}
    {factory : UnitFactory} {objectSize : ℕ}
    (hparse : SystemSpec.parse doc errors = (some spec, errors'))
    (hvalid : (spec.validate factory dump errors').1 = true)
    (hhonest : factory.Honest dump cxxType)
    (hinjected : ∀ sa ∈ spec.adapters, env.injected sa.uri = true)
    (hmission : spec.missionPipelines = [])
    (hnew : SpecSystem.new spec factory objectSize = some t)
    (hdistinct : Function.Injective env.address) :
    (t.atLayout.initializeBlocksLayout dump env).2 = .returned true ↔ spec.Loadable factory := by
  have hstart := layoutStart_new hnew hdistinct
  obtain rfl := SpecSystem.eq_of_new hnew
  set t : SpecSystem := { system := .new spec.systemConfiguration objectSize, spec, factory } with ht
  have hregistries := t.system.atLayout_registries
  have haccepted : t.atLayout.Accepted dump cxxType :=
    ⟨parse_names hparse, fun su hsu => validate_units hvalid hsu, hhonest⟩
  have hpasses : (∃ L, t.atLayout.layoutPasses dump env = .ok L) ↔ spec.Loadable factory :=
    layoutPasses_ok_iff hstart haccepted (by rw [SpecSystem.atLayout, hregistries.1]; rfl)
      (fun dir => by rw [SpecSystem.atLayout, hregistries.2]; cases dir <;> rfl) hinjected
      (by rw [SpecSystem.atLayout, hregistries.1]; rfl)
  rw [← hpasses]
  constructor
  · intro h
    obtain ⟨L, hL, -⟩ := SpecSystem.exists_of_returned_true h
    exact ⟨L, hL⟩
  · rintro ⟨L, hL⟩
    rw [SpecSystem.initializeBlocksLayout_of_ok hmission hL]

/-! ## Two cameras -/

/-- The canonical name of `int` is `int32`. -/
def cxxTypeOf : String ↪ String := (Equiv.swap "int32" "int").toEmbedding

/-- A unit with its control ports only is what a descriptor without ports describes. -/
theorem describes_new (ptr : UnitPtr) (name typeName : String) (parameters : List ParamDescriptor) :
    Describes cxxTypeOf { typeName, parameters } (.new ptr name) := by
  have hint : cxxTypeOf "int32" = "int" := by decide
  intro type i portName T
  cases type with
  | asyncInput =>
    simp only [ProcessingUnit.portAt, ProcessingUnit.new, UnitTypeDescriptor.allPorts, controlPorts,
      List.nil_append, List.mem_cons, List.not_mem_nil, or_false, exists_eq_or_imp, exists_eq_left,
      PortDescriptor.portType, true_and, hint, Option.map_eq_some_iff, AList.lookup_insert_eq_some]
    constructor
    · rintro ⟨p, ⟨rfl, rfl⟩ | ⟨-, ⟨rfl, rfl⟩ | ⟨-, h⟩⟩, he⟩
      · exact .inr ⟨rfl, (Prod.mk.inj he).1, (Prod.mk.inj he).2⟩
      · exact .inl ⟨rfl, (Prod.mk.inj he).1, (Prod.mk.inj he).2⟩
      · cases h
    · rintro (⟨rfl, rfl, rfl⟩ | ⟨rfl, rfl, rfl⟩)
      · exact ⟨_, .inr ⟨by decide, .inl ⟨rfl, rfl⟩⟩, rfl⟩
      · exact ⟨_, .inl ⟨rfl, rfl⟩, rfl⟩
  | _ =>
    simp [ProcessingUnit.portAt, ProcessingUnit.new, UnitTypeDescriptor.allPorts, controlPorts,
      PortDescriptor.portType]

theorem honest_cameraFactory (dump : Json → String) : cameraFactory.Honest dump cxxTypeOf := by
  intro typeName entry hentry instanceName params _
  rcases AList.lookup_insert_eq_some.mp hentry with ⟨-, rfl⟩ | ⟨-, h⟩
  · exact ⟨_, rfl, describes_new 0 instanceName _ _⟩
  · cases h

/-- Two cameras load. -/
theorem loads_twoCameras : ∃ t, loadTwoCameras [] [] = some t ∧
    (t.initializeBlocksLayout (fun _ => "") freshAddresses).2 = .returned true := by
  have hfacts : (loadTwoCameras [] []).map (fun t => t.spec.missionPipelines.isEmpty &&
      t.spec.connections.isEmpty && t.spec.systemPorts.inputs.entries.isEmpty &&
      t.spec.systemPorts.outputs.entries.isEmpty && t.spec.units.length ≤ t.spec.maxProcessingUnits &&
      t.spec.units.all fun su => 1 ≤ su.downSamplingFactor) = some true := by
    decide +kernel
  obtain ⟨t, ht, hfacts⟩ := Option.map_eq_some_iff.mp hfacts
  obtain ⟨t', ht', rfl⟩ := Option.map_eq_some_iff.mp ht
  obtain ⟨spec, found, hparse, hvalid, hnew⟩ := loadSystemFromSpec_eq_some ht'
  have hspec : t'.atLayout.spec = spec := by rw [SpecSystem.eq_of_new hnew]; rfl
  simp only [hspec, Bool.and_eq_true, List.isEmpty_iff, decide_eq_true_eq, List.all_eq_true]
    at hfacts
  obtain ⟨⟨⟨⟨⟨hmission, hconnections⟩, hinputs⟩, houtputs⟩, hfit⟩, hfactors⟩ := hfacts
  have hports (dir : Direction) : (spec.systemPorts.table dir).entries = [] := by
    cases dir; exacts [hinputs, houtputs]
  refine ⟨_, ht, (loads_iff hparse hvalid (honest_cameraFactory _) (fun _ _ => rfl) hmission hnew
    (add_left_injective 1)).mpr ⟨hfit, hfactors, fun dir hm => ?_, fun conn hconn => ?_,
      fun dir name ref hlk => ?_⟩⟩
  · rw [AList.mem_keys, AList.keys, hports dir] at hm
    exact absurd hm List.not_mem_nil
  · exact absurd hconn (by simp [hconnections])
  · have hmem := AList.mem_lookup_iff.mp hlk
    rw [hports dir] at hmem
    exact absurd hmem List.not_mem_nil

/-- **An accepted document that does not load**: it declares two cameras and room for one. -/
theorem not_loads_noRoom :
    ¬ ∀ (doc : Json) (errors errors' : List SpecError) (spec : SystemSpec) (factory : UnitFactory)
      (dump : Json → String) (cxxType : String ↪ String) (env : LayoutEnv) (objectSize : ℕ)
      (t : SpecSystem), SystemSpec.parse doc errors = (some spec, errors') →
      (spec.validate factory dump errors').1 = true → factory.Honest dump cxxType →
      (∀ sa ∈ spec.adapters, env.injected sa.uri = true) → spec.missionPipelines = [] →
      SpecSystem.new spec factory objectSize = some t → Function.Injective env.address →
      (t.atLayout.initializeBlocksLayout dump env).2 = .returned true := by
  intro h
  have hruns : (loadTwoCameras [("maxProcessingUnits", .integer 1)] []).map (fun t =>
      (t.spec.missionPipelines.isEmpty,
        (t.initializeBlocksLayout (fun _ => "") freshAddresses).2)) =
      some (true, .returned false) := by
    decide +kernel
  obtain ⟨t, ht, he⟩ := Option.map_eq_some_iff.mp hruns
  obtain ⟨t', ht', rfl⟩ := Option.map_eq_some_iff.mp ht
  obtain ⟨spec, found, hparse, hvalid, hnew⟩ := loadSystemFromSpec_eq_some ht'
  have hspec : t'.atLayout.spec = spec := by rw [SpecSystem.eq_of_new hnew]; rfl
  simp only [hspec, Prod.mk.injEq, List.isEmpty_iff] at he
  have htrue := h _ _ _ spec _ (fun _ => "") cxxTypeOf freshAddresses 0 t' hparse hvalid
    (honest_cameraFactory _) (fun _ _ => rfl) he.1 hnew (add_left_injective 1)
  exact absurd (he.2.symm.trans htrue) (by simp)

end AxonVex
