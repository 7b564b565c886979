import AxonVex.Spec.Accepted
import AxonVex.Spec.PortRefs

/-!
# Spec/Valid — what `validate` decides

    units known, parameters pass ─┐
    references resolve            ├─ `SystemSpec.Valid` ⟷ `validate` finds nothing
    one wire an input, required ──┘

`SystemSpec.Valid` says when a document fits a factory, by itself and in no order.  The pass of
`validate` collects the wired inputs on the way and goes easy on what an earlier error explains;
`clean_validateAll` shows that neither changes the verdict on a parsed document.
-/

namespace AxonVex

open Machinery Machinery.Reported

namespace SystemSpec

variable (spec : SystemSpec) (factory : UnitFactory) (dump : Json → String)

/-- The port a reference stands for: the first one of its name that the type of the unit of its
name declares. -/
def Resolves (ref : String) (pd : PortDescriptor) : Prop :=
  ∃ u ∈ spec.units, u.name = (splitPortRef ref).1 ∧
    ∃ descriptor, factory.describe u.type = some descriptor ∧
      declaredPort descriptor (splitPortRef ref).2 = some pd

/-- The references wired as inputs, one for each connection and each system input. -/
def inputWires : List String :=
  spec.connections.map (·.target) ++ spec.systemPorts.inputs.entries.map (·.2)

/-- **A document that fits a factory.** -/
structure Valid : Prop where
  units : ∀ u ∈ spec.units, ∃ descriptor, factory.describe u.type = some descriptor ∧
    validateParams dump descriptor u.params = []
  connections : ∀ c ∈ spec.connections, ∃ source target,
    spec.Resolves factory c.source source ∧ source.direction = .output ∧
    spec.Resolves factory c.target target ∧ target.direction = .input ∧
    source.kind = target.kind ∧ source.dataType = target.dataType
  /-- no input is wired twice -/
  oneWire : (spec.inputWires.map splitPortRef).Nodup
  inputs : ∀ e ∈ spec.systemPorts.inputs.entries, ∃ pd,
    spec.Resolves factory e.2 pd ∧ pd.direction = .input
  outputs : ∀ e ∈ spec.systemPorts.outputs.entries, ∃ pd,
    spec.Resolves factory e.2 pd ∧ pd.direction = .output
  required : ∀ u ∈ spec.units, ∀ descriptor, factory.describe u.type = some descriptor →
    ∀ pd ∈ descriptor.ports, pd.direction = .input → pd.required = true →
      ∃ ref ∈ spec.inputWires, splitPortRef ref = (u.name, pd.name)
  adapters : ∀ a ∈ spec.adapters, "://".toList <:+: a.uri.toList

variable {spec factory dump}

/-! ## The table of the units -/

variable (factory) in
/-- Of units with different names each is found under its name. -/
theorem lookup_unitsByName (hnames : (spec.units.map (·.name)).Nodup) {name : String}
    {info : UnitInfo} : (spec.unitsByName factory).lookup name = some info ↔
      ∃ u ∈ spec.units, u.name = name ∧ (⟨u.type, factory.describe u.type⟩ : UnitInfo) = info := by
  unfold unitsByName
  -- the table holds what it held before, and the units inserted so far
  have key (units : List SpecUnit) (byName : Table String UnitInfo)
      (hnodup : (units.map (·.name)).Nodup) (hnew : ∀ u ∈ units, u.name ∉ byName) :
      (units.foldl (fun byName u => byName.insert u.name ⟨u.type, factory.describe u.type⟩)
        byName).lookup name = some info ↔ byName.lookup name = some info ∨
          ∃ u ∈ units, u.name = name ∧ (⟨u.type, factory.describe u.type⟩ : UnitInfo) = info := by
    induction units generalizing byName with
    | nil => simp
    | cons u units ih =>
      obtain ⟨hu, hnodup⟩ := List.nodup_cons.mp hnodup
      rw [List.foldl_cons, ih _ hnodup, AList.lookup_insert_eq_some]
      · have hbyName : u.name ∉ byName := hnew u List.mem_cons_self
        constructor
        · rintro ((⟨rfl, rfl⟩ | ⟨-, h⟩) | ⟨v, hv, h⟩)
          · exact .inr ⟨u, List.mem_cons_self, rfl, rfl⟩
          · exact .inl h
          · exact .inr ⟨v, List.mem_cons_of_mem _ hv, h⟩
        · rintro (h | ⟨v, hv, rfl, rfl⟩)
          · refine .inl (.inr ⟨?_, h⟩)
            rintro rfl
            exact hbyName (AList.mem_of_lookup h)
          · rcases List.mem_cons.mp hv with rfl | hv
            · exact .inl (.inl ⟨rfl, rfl⟩)
            · exact .inr ⟨v, hv, rfl, rfl⟩
      · intro v hv hmem
        rcases (AList.mem_insert _).mp hmem with heq | hmem
        · exact hu (List.mem_map.mpr ⟨v, hv, heq⟩)
        · exact hnew v (List.mem_cons_of_mem _ hv) hmem
  rw [key spec.units ∅ hnames fun u _ => AList.notMem_empty _]
  simp

/-! ## References

From here on every unit has a registered type: `validate` has reported the others, and reports
nothing more about them. -/

section

variable (hnames : (spec.units.map (·.name)).Nodup)
  (hknown : ∀ u ∈ spec.units, ∃ descriptor, factory.describe u.type = some descriptor)
  {ref path : String} {pd : PortDescriptor} {direction : Direction}

include hnames

/-- A reference that resolves is resolved. -/
theorem resolvePort_eq (h : spec.Resolves factory ref pd) :
    resolvePort (spec.unitsByName factory) ref path = pure (some pd) := by
  obtain ⟨u, hu, hname, descriptor, hd, hpd⟩ := h
  have hlk := (lookup_unitsByName factory hnames).mpr ⟨u, hu, hname, rfl⟩
  simp only [resolvePort, hlk, hd, hpd]

include hknown

/-- One that does not is reported. -/
theorem exists_resolves (h : (resolvePort (spec.unitsByName factory) ref path).Clean) :
    ∃ pd, spec.Resolves factory ref pd := by
  unfold resolvePort at h
  dsimp only at h
  split at h
  · exact absurd h clean_refuse
  next info hlk =>
    obtain ⟨u, hu, hname, rfl⟩ := (lookup_unitsByName factory hnames).mp hlk
    obtain ⟨descriptor, hd⟩ := hknown u hu
    simp only [hd] at h
    split at h
    next pd hpd => exact ⟨pd, u, hu, hname, descriptor, hd, hpd⟩
    · exact absurd h clean_refuse

omit hnames hknown in
@[simp] theorem clean_requireDirection :
    (requireDirection direction ref path (some pd)).Clean ↔ pd.direction = direction := by
  unfold requireDirection
  dsimp only
  split_ifs with h
  · simp [h]
  · simp [h]

omit hnames hknown in
theorem requireDirection_eq (h : pd.direction = direction) :
    requireDirection direction ref path (some pd) = pure (some pd) := if_pos h

omit hnames hknown in
@[simp] theorem clean_wireInput {wiredInputs : List String} :
    (wireInput wiredInputs ref path).Clean ↔ ref ∉ wiredInputs := by
  unfold wireInput
  split_ifs with h
  · simp [h]
  · simp [h]

omit hnames hknown in
theorem value_wireInput {wiredInputs : List String} (h : ref ∉ wiredInputs) :
    (wireInput wiredInputs ref path).value = ref :: wiredInputs := by
  rw [wireInput, if_neg h]
  rfl

/-- A connection that joins two ports. -/
def Joins (spec : SystemSpec) (factory : UnitFactory) (c : SpecConnection) : Prop :=
  ∃ source target, spec.Resolves factory c.source source ∧ source.direction = .output ∧
    spec.Resolves factory c.target target ∧ target.direction = .input ∧
    source.kind = target.kind ∧ source.dataType = target.dataType

omit hknown in
/-- What is left of a connection whose ports are found. -/
theorem validateConnection_eq {wiredInputs : List String} {i : ℕ} {c : SpecConnection}
    (h : spec.Joins factory c) :
    validateConnection (spec.unitsByName factory) wiredInputs i c =
      wireInput wiredInputs c.target (entryPath "$.connections" i ++ ".to") := by
  obtain ⟨source, target, hs, hsd, ht, htd, hkind, htype⟩ := h
  simp only [validateConnection, resolvePort_eq hnames hs, resolvePort_eq hnames ht, pure_bind,
    requireDirection_eq hsd, requireDirection_eq htd, hkind, htype, ne_eq, not_true_eq_false,
    if_false]

/-- **A connection passes** when it joins two ports and its target is not wired yet. -/
theorem clean_validateConnection {wiredInputs : List String} {i : ℕ} {c : SpecConnection} :
    (validateConnection (spec.unitsByName factory) wiredInputs i c).Clean ↔
      spec.Joins factory c ∧ c.target ∉ wiredInputs := by
  constructor
  · intro h
    have hjoins : spec.Joins factory c := by
      simp only [validateConnection, clean_bind] at h
      obtain ⟨hs, ht, hsd, htd, hmatch⟩ := h
      obtain ⟨source, hsource⟩ := exists_resolves hnames hknown hs
      obtain ⟨target, htarget⟩ := exists_resolves hnames hknown ht
      simp only [resolvePort_eq hnames hsource, resolvePort_eq hnames htarget, value_pure,
        clean_requireDirection] at hsd htd
      simp only [resolvePort_eq hnames hsource, resolvePort_eq hnames htarget, value_pure,
        requireDirection_eq hsd, requireDirection_eq htd] at hmatch
      split_ifs at hmatch with hkind htype
      · exact absurd hmatch clean_refuse
      · exact absurd hmatch clean_refuse
      · exact ⟨source, target, hsource, hsd, htarget, htd, not_not.mp hkind, not_not.mp htype⟩
    refine ⟨hjoins, ?_⟩
    rwa [validateConnection_eq hnames hjoins, clean_wireInput] at h
  · rintro ⟨hjoins, hnew⟩
    rwa [validateConnection_eq hnames hjoins, clean_wireInput]

theorem value_validateConnection {wiredInputs : List String} {i : ℕ} {c : SpecConnection}
    (h : (validateConnection (spec.unitsByName factory) wiredInputs i c).Clean) :
    (validateConnection (spec.unitsByName factory) wiredInputs i c).value =
      c.target :: wiredInputs := by
  obtain ⟨hjoins, hnew⟩ := (clean_validateConnection hnames hknown).mp h
  rw [validateConnection_eq hnames hjoins, value_wireInput hnew]

/-- A reference passes with a direction when it resolves to a port of that direction. -/
theorem clean_resolve_direction :
    ((resolvePort (spec.unitsByName factory) ref path).Clean ∧
      (requireDirection direction ref path
        (resolvePort (spec.unitsByName factory) ref path).value).Clean) ↔
      ∃ pd, spec.Resolves factory ref pd ∧ pd.direction = direction := by
  constructor
  · rintro ⟨hresolve, hdirection⟩
    obtain ⟨pd, hpd⟩ := exists_resolves hnames hknown hresolve
    rw [resolvePort_eq hnames hpd, value_pure, clean_requireDirection] at hdirection
    exact ⟨pd, hpd, hdirection⟩
  · rintro ⟨pd, hpd, hdirection⟩
    rw [resolvePort_eq hnames hpd, value_pure, clean_requireDirection]
    exact ⟨clean_pure _, hdirection⟩

/-- **A system input passes** when it resolves to an input that is not wired yet. -/
theorem clean_validateSystemInput {wiredInputs : List String} {name : String} :
    (validateSystemInput (spec.unitsByName factory) wiredInputs name ref).Clean ↔
      (∃ pd, spec.Resolves factory ref pd ∧ pd.direction = .input) ∧ ref ∉ wiredInputs := by
  simp only [validateSystemInput, clean_bind]
  rw [← and_assoc, clean_resolve_direction hnames hknown]
  refine and_congr_right fun hresolves => ?_
  obtain ⟨pd, hpd, hdirection⟩ := hresolves
  rw [resolvePort_eq hnames hpd, value_pure, requireDirection_eq hdirection, value_pure]
  exact clean_wireInput

theorem value_validateSystemInput {wiredInputs : List String} {name : String}
    (h : (validateSystemInput (spec.unitsByName factory) wiredInputs name ref).Clean) :
    (validateSystemInput (spec.unitsByName factory) wiredInputs name ref).value =
      ref :: wiredInputs := by
  obtain ⟨⟨pd, hpd, hdirection⟩, hnew⟩ := (clean_validateSystemInput hnames hknown).mp h
  simp only [validateSystemInput, value_bind, resolvePort_eq hnames hpd, value_pure,
    requireDirection_eq hdirection]
  exact value_wireInput hnew

theorem clean_validateSystemOutput {name : String} :
    (validateSystemOutput (spec.unitsByName factory) name ref).Clean ↔
      ∃ pd, spec.Resolves factory ref pd ∧ pd.direction = .output := by
  simp only [validateSystemOutput, clean_bind, clean_pure, and_true]
  exact clean_resolve_direction hnames hknown

omit hknown in
/-- **The required inputs of a unit pass** when each of them is among the wired references. -/
theorem clean_validateRequired {wiredInputs : List String} {i : ℕ} {u : SpecUnit}
    (hu : u ∈ spec.units) :
    (validateRequired (spec.unitsByName factory) wiredInputs i u).Clean ↔
      ∀ descriptor, factory.describe u.type = some descriptor → ∀ pd ∈ descriptor.ports,
        pd.direction = .input → pd.required = true → u.name ++ "." ++ pd.name ∈ wiredInputs := by
  have hlk := (lookup_unitsByName factory hnames).mpr ⟨u, hu, rfl, rfl⟩
  simp only [validateRequired, hlk, Option.bind_some]
  cases hd : factory.describe u.type with
  | none => simp
  | some descriptor => simp

end

/-! ## The verdict -/

/-- The unit at an index passes when its type is registered and its parameters have no issue. -/
theorem clean_validateUnit {i : ℕ} {u : SpecUnit} :
    (validateUnit factory dump i u).Clean ↔ ∃ descriptor,
      factory.describe u.type = some descriptor ∧ validateParams dump descriptor u.params = [] := by
  unfold validateUnit
  split
  next hd => simp [hd]
  next descriptor hd =>
    simp only [clean_forM, clean_report, imp_false, hd, Option.some.injEq, exists_eq_left']
    exact List.eq_nil_iff_forall_not_mem.symm

/-- Different references are different pairs of names, if they are good ones. -/
theorem nodup_map_splitPortRef {refs : List String}
    (h : ∀ ref ∈ refs, isValidPortRef ref = true) :
    (refs.map splitPortRef).Nodup ↔ refs.Nodup := by
  refine ⟨List.Nodup.of_map _, fun hnodup => hnodup.map_on fun x hx y hy heq => ?_⟩
  exact ((splitPortRef_eq_iff (h x hx)).mp heq).trans ((splitPortRef_eq_iff (h y hy)).mp rfl).symm

theorem RefsValid.inputWires (hrefs : spec.RefsValid) :
    ∀ ref ∈ spec.inputWires, isValidPortRef ref = true := by
  intro ref href
  rcases List.mem_append.mp href with href | href
  · obtain ⟨c, hc, rfl⟩ := List.mem_map.mp href
    exact (hrefs.connections c hc).2
  · obtain ⟨e, he, rfl⟩ := List.mem_map.mp href
    exact hrefs.inputs e he

/-- A required input is wired when a good reference names it. -/
theorem mem_inputWires_iff (hrefs : spec.RefsValid) {unitName portName : String} :
    unitName ++ "." ++ portName ∈ spec.inputWires ↔
      ∃ ref ∈ spec.inputWires, splitPortRef ref = (unitName, portName) := by
  constructor
  · intro h
    exact ⟨_, h, (splitPortRef_eq_iff (hrefs.inputWires _ h)).mpr rfl⟩
  · rintro ⟨ref, href, hsplit⟩
    rwa [← (splitPortRef_eq_iff (hrefs.inputWires ref href)).mp hsplit]

section

variable (hnames : (spec.units.map (·.name)).Nodup)
  (hknown : ∀ u ∈ spec.units, ∃ descriptor, factory.describe u.type = some descriptor)

/-- The pass over the connections. -/
def validateConnections (spec : SystemSpec) (factory : UnitFactory) : Parsed (List String) :=
  spec.connections.zipIdx.foldlM
    (fun wired c => validateConnection (spec.unitsByName factory) wired c.2 c.1) []

/-- The pass over the system inputs. -/
def validateSystemInputs (spec : SystemSpec) (factory : UnitFactory) (wired : List String) :
    Parsed (List String) :=
  spec.systemPorts.inputs.entries.foldlM
    (fun wired e => validateSystemInput (spec.unitsByName factory) wired e.1 e.2) wired

include hnames hknown

theorem value_validateConnections (h : (spec.validateConnections factory).Clean) :
    (spec.validateConnections factory).value = (spec.connections.map (·.target)).reverse := by
  refine (value_foldlM_insert (fun c : SpecConnection × ℕ => c.1.target)
    (fun _ _ => value_validateConnection hnames hknown) h).trans ?_
  rw [List.append_nil, map_zipIdx]

theorem clean_validateConnections : (spec.validateConnections factory).Clean ↔
    (∀ c ∈ spec.connections, spec.Joins factory c) ∧ (spec.connections.map (·.target)).Nodup := by
  refine (clean_foldlM_insert (fun c : SpecConnection × ℕ => spec.Joins factory c.1)
    (fun c => c.1.target) (fun _ _ => clean_validateConnection hnames hknown)
    (fun _ _ => value_validateConnection hnames hknown) List.nodup_nil).trans ?_
  rw [forall_zipIdx (spec.Joins factory), List.append_nil, List.nodup_reverse, map_zipIdx]

theorem value_validateSystemInputs {wired : List String}
    (h : (spec.validateSystemInputs factory wired).Clean) :
    (spec.validateSystemInputs factory wired).value =
      (spec.systemPorts.inputs.entries.map (·.2)).reverse ++ wired :=
  value_foldlM_insert (fun e : Sigma fun _ : String => String => e.2)
    (fun _ _ => value_validateSystemInput hnames hknown) h

theorem clean_validateSystemInputs {wired : List String} (hwired : wired.Nodup) :
    (spec.validateSystemInputs factory wired).Clean ↔
      (∀ e ∈ spec.systemPorts.inputs.entries, ∃ pd,
        spec.Resolves factory e.2 pd ∧ pd.direction = .input) ∧
      ((spec.systemPorts.inputs.entries.map (·.2)).reverse ++ wired).Nodup :=
  clean_foldlM_insert
    (fun e : Sigma fun _ : String => String => ∃ pd,
      spec.Resolves factory e.2 pd ∧ pd.direction = .input)
    (fun e => e.2) (fun _ _ => clean_validateSystemInput hnames hknown)
    (fun _ _ => value_validateSystemInput hnames hknown) hwired

end

/-- The passes of `validate`, one after the other. -/
theorem validateAll_eq : spec.validateAll factory dump = (do
    forM spec.units.zipIdx fun u => validateUnit factory dump u.2 u.1
    let wiredInputs ← spec.validateConnections factory
    let wiredInputs ← spec.validateSystemInputs factory wiredInputs
    forM spec.systemPorts.outputs.entries fun e =>
      validateSystemOutput (spec.unitsByName factory) e.1 e.2
    forM spec.units.zipIdx fun u =>
      validateRequired (spec.unitsByName factory) wiredInputs u.2 u.1
    forM spec.adapters.zipIdx fun a => validateAdapter a.2 a.1) := rfl

/-- **`validate` finds nothing exactly when the document fits the factory.** -/
theorem clean_validateAll (hnames : (spec.units.map (·.name)).Nodup) (hrefs : spec.RefsValid) :
    (spec.validateAll factory dump).Clean ↔ spec.Valid factory dump := by
  have hunits : (∀ e ∈ spec.units.zipIdx, (validateUnit factory dump e.2 e.1).Clean) ↔
      ∀ u ∈ spec.units, ∃ descriptor, factory.describe u.type = some descriptor ∧
        validateParams dump descriptor u.params = [] := by
    simp only [clean_validateUnit]
    exact forall_zipIdx fun u : SpecUnit => ∃ descriptor,
      factory.describe u.type = some descriptor ∧ validateParams dump descriptor u.params = []
  have hadapters : (∀ e ∈ spec.adapters.zipIdx, (validateAdapter e.2 e.1).Clean) ↔
      ∀ a ∈ spec.adapters, "://".toList <:+: a.uri.toList := by
    simp only [validateAdapter, clean_require]
    exact forall_zipIdx fun a : SpecAdapter => "://".toList <:+: a.uri.toList
  have hrequired (wired : List String) (hwired : ∀ ref, ref ∈ wired ↔ ref ∈ spec.inputWires) :
      (∀ e ∈ spec.units.zipIdx,
        (validateRequired (spec.unitsByName factory) wired e.2 e.1).Clean) ↔
      ∀ u ∈ spec.units, ∀ descriptor, factory.describe u.type = some descriptor →
        ∀ pd ∈ descriptor.ports, pd.direction = .input → pd.required = true →
          ∃ ref ∈ spec.inputWires, splitPortRef ref = (u.name, pd.name) := by
    refine Iff.trans (forall₂_congr fun e he => ?_) (forall_zipIdx fun u : SpecUnit =>
      ∀ descriptor, factory.describe u.type = some descriptor → ∀ pd ∈ descriptor.ports,
        pd.direction = .input → pd.required = true →
          ∃ ref ∈ spec.inputWires, splitPortRef ref = (u.name, pd.name))
    obtain ⟨u, i⟩ := e
    rw [clean_validateRequired hnames (List.mem_of_getElem? (List.mem_zipIdx_iff_getElem?.mp he))]
    simp only [hwired, mem_inputWires_iff hrefs]
  rw [validateAll_eq]
  simp only [clean_bind, clean_forM, hunits, hadapters]
  have hwires : ((spec.systemPorts.inputs.entries.map (·.2)).reverse ++
      (spec.connections.map (·.target)).reverse) = spec.inputWires.reverse :=
    (List.reverse_append ..).symm
  have hwired (ref : String) : ref ∈ spec.inputWires.reverse ↔ ref ∈ spec.inputWires :=
    List.mem_reverse
  constructor
  · rintro ⟨hu, hconnections, hinputs, houtputs, hreq, hadapt⟩
    have hknown : ∀ u ∈ spec.units, ∃ descriptor, factory.describe u.type = some descriptor :=
      fun u hmem => (hu u hmem).imp fun _ h => h.1
    have hvalue := value_validateConnections hnames hknown hconnections
    obtain ⟨hjoins, hnodup⟩ := (clean_validateConnections hnames hknown).mp hconnections
    rw [hvalue] at hinputs hreq
    have hvalue' := value_validateSystemInputs hnames hknown hinputs
    obtain ⟨hin, hnodup'⟩ :=
      (clean_validateSystemInputs hnames hknown (List.nodup_reverse.mpr hnodup)).mp hinputs
    rw [hvalue', hwires, hrequired _ hwired] at hreq
    rw [hwires, List.nodup_reverse] at hnodup'
    exact {
      units := hu
      connections := hjoins
      oneWire := (nodup_map_splitPortRef hrefs.inputWires).mpr hnodup'
      inputs := hin
      outputs := fun e he => (clean_validateSystemOutput hnames hknown).mp (houtputs e he)
      required := hreq
      adapters := hadapt }
  · intro hvalid
    have hknown : ∀ u ∈ spec.units, ∃ descriptor, factory.describe u.type = some descriptor :=
      fun u hmem => (hvalid.units u hmem).imp fun _ h => h.1
    have hnodup := (nodup_map_splitPortRef hrefs.inputWires).mp hvalid.oneWire
    have hconnections := (clean_validateConnections hnames hknown).mpr
      ⟨hvalid.connections, hnodup.of_append_left⟩
    have hinputs := (clean_validateSystemInputs hnames hknown
      (List.nodup_reverse.mpr hnodup.of_append_left)).mpr
        ⟨hvalid.inputs, by rwa [hwires, List.nodup_reverse]⟩
    rw [value_validateConnections hnames hknown hconnections,
      value_validateSystemInputs hnames hknown hinputs, hwires, hrequired _ hwired]
    exact ⟨hvalid.units, hconnections, hinputs,
      fun e he => (clean_validateSystemOutput hnames hknown).mpr (hvalid.outputs e he),
      hvalid.required, hvalid.adapters⟩

end SystemSpec

/-- **`validate` decides `Valid`** on every parsed document: it accepts exactly when the document
fits the factory, appends nothing then, and at least one error otherwise. -/
theorem validate_correct {doc : Json} {spec : SystemSpec} {parseErrors parseErrors' : List SpecError}
    (hparse : SystemSpec.parse doc parseErrors = (some spec, parseErrors')) (factory : UnitFactory)
    (dump : Json → String) (errors : List SpecError) :
    ((spec.validate factory dump errors).1 = true ↔ spec.Valid factory dump) ∧
      ((spec.validate factory dump errors).1 = true →
        (spec.validate factory dump errors).2 = errors) ∧
      ((spec.validate factory dump errors).1 = false ↔
        ∃ new, new ≠ [] ∧ (spec.validate factory dump errors).2 = errors ++ new) := by
  have hclean : (spec.validateAll factory dump).Clean ↔ spec.Valid factory dump :=
    SystemSpec.clean_validateAll (parse_names hparse) (parse_refs hparse)
  simp only [SystemSpec.validate, List.isEmpty_iff, List.isEmpty_eq_false_iff]
  refine ⟨hclean, fun h => by rw [h, List.append_nil], fun h => ⟨_, h, rfl⟩, ?_⟩
  rintro ⟨new, hnew, heq⟩
  rwa [List.append_cancel_left heq]

/-! ## A camera and a filter -/

/-- A camera writes frames, a filter needs them. -/
def filterFactory : UnitFactory where
  types := AList.insert "vision.Filter" ⟨{
      typeName := "vision.Filter"
      ports := [{ name := "frame", dataType := "image" }] }, fun _ _ => .null⟩
    (AList.insert "vision.Camera" ⟨{
      typeName := "vision.Camera"
      ports := [{ name := "frame", direction := .output, dataType := "image" }] },
      fun _ _ => .null⟩ ∅)

/-- A camera and a filter with these connections. -/
def filteredCamera (connections : List Json) : Json :=
  .object [("connections", .array connections), ("specVersion", .string "1.0"),
    ("system", .object [("name", .string "rig")]),
    ("units", .array [.object [("name", .string "eye"), ("type", .string "vision.Camera")],
      .object [("name", .string "smooth"), ("type", .string "vision.Filter")]])]

/-- The document fits the factory with a wire between the two, and not without it. -/
theorem valid_filteredCamera :
    (∃ spec, (SystemSpec.parse (filteredCamera
        [.object [("from", .string "eye.frame"), ("to", .string "smooth.frame")]]) []).1 = some spec ∧
      spec.Valid filterFactory fun _ => "") ∧
    ∃ spec, (SystemSpec.parse (filteredCamera []) []).1 = some spec ∧
      ¬ spec.Valid filterFactory fun _ => "" := by
  have hwired : (SystemSpec.parse (filteredCamera
      [.object [("from", .string "eye.frame"), ("to", .string "smooth.frame")]]) []).1.map
        (fun spec => (spec.validate filterFactory (fun _ => "") []).1) = some true := by
    decide +kernel
  have hunwired : (SystemSpec.parse (filteredCamera []) []).1.map
      (fun spec => (spec.validate filterFactory (fun _ => "") []).1) = some false := by
    decide +kernel
  obtain ⟨spec, hspec, hvalid⟩ := Option.map_eq_some_iff.mp hwired
  obtain ⟨spec', hspec', hinvalid⟩ := Option.map_eq_some_iff.mp hunwired
  refine ⟨⟨spec, hspec, ?_⟩, spec', hspec', fun h => ?_⟩
  · exact (validate_correct (Prod.ext hspec rfl) filterFactory _ []).1.mp hvalid
  · rw [(validate_correct (Prod.ext hspec' rfl) filterFactory _ []).1.mpr h] at hinvalid
    exact absurd hinvalid (by simp)

end AxonVex
