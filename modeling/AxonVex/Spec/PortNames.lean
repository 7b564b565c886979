import AxonVex.Spec.Loader

/-!
# Spec/PortNames — what a port name stands for

A unit shows the loader four maps from indices to named ports; `portAt` is the name and the data
type at an index, and everything the loader and `assignSystemPort` look up is a function of it
(`findPortByName_congr`).  A descriptor shows the same maps
(`UnitTypeDescriptor.loaderPort`), and where it describes a unit exactly the two agree
(`Describes.findPortByName`).
-/

namespace AxonVex

open Machinery

/-- The least element depends on the members only. -/
theorem min?_congr {l l' : List ℤ} (h : ∀ i, i ∈ l ↔ i ∈ l') : l.min? = l'.min? := by
  ext i
  simp only [List.min?_eq_some_iff, h]

/-! ## On a unit -/

namespace ProcessingUnit

variable (u : ProcessingUnit) {v : ProcessingUnit} {type : PortType} {i : ℤ} {portName : String}

/-- The name and the data type of the port at an index of a map. -/
def portAt (type : PortType) (i : ℤ) : Option (String × String) :=
  match type with
  | .syncInput => (u.inputPorts.lookup i).map fun p => (p.name, p.dataTypeName)
  | .syncOutput => (u.outputPorts.lookup i).map fun p => (p.name, p.dataTypeName)
  | .asyncInput => (u.asyncInputPorts.lookup i).map fun p => (p.name, p.dataTypeName)
  | .asyncOutput => (u.asyncOutputPorts.lookup i).map fun p => (p.name, p.dataTypeName)

variable {u}

theorem mem_keys_filterValues {V : Type} {t : Table ℤ V} {p : V → Bool} :
    i ∈ (t.filterValues p).keys ↔ ∃ v, t.lookup i = some v ∧ p v = true := by
  rw [← AList.mem_keys, ← AList.lookup_isSome, Option.isSome_iff_exists]
  exact exists_congr fun v => AList.lookup_filterValues p

/-- The indices of a name are the indices `portAt` shows it at. -/
theorem mem_indicesNamed :
    i ∈ u.indicesNamed type portName ↔ ∃ T, u.portAt type i = some (portName, T) := by
  cases type <;> simp [indicesNamed, portAt, mem_keys_filterValues]

/-- What a pointer reads of a reading port. -/
theorem inPort?_portAt (p : PortPtr) (h : p.type = .syncInput ∨ p.type = .asyncInput) :
    (u.inPort? p).map (fun q => (q.name, q.dataTypeName)) = u.portAt p.type p.id := by
  rcases h with h | h <;> simp only [inPort?, portAt, h]

/-- What a pointer reads of a writing port. -/
theorem outPort?_portAt (p : PortPtr) (h : p.type = .syncOutput ∨ p.type = .asyncOutput) :
    (u.outPort? p).map (fun q => (q.name, q.dataTypeName)) = u.portAt p.type p.id := by
  rcases h with h | h <;> simp only [outPort?, portAt, h]

@[simp] theorem modifyOut_ptr (p : PortPtr) (f : OutPort → OutPort) :
    (u.modifyOut p f).ptr = u.ptr := by
  unfold modifyOut
  split <;> rfl

/-- A connection keeps the name and the data type. -/
theorem connect_view (p : OutPort) (q : PortPtr) :
    ((p.connect q).name, (p.connect q).dataTypeName) = (p.name, p.dataTypeName) := by
  unfold OutPort.connect
  split <;> rfl

/-- **A connection shows nowhere in the names and types of a unit.** -/
@[simp] theorem portAt_modifyOut_connect (p q : PortPtr) :
    (u.modifyOut p (·.connect q)).portAt = u.portAt := by
  have hview (t : Table ℤ OutPort) (k i : ℤ) :
      ((t.modify k (·.connect q)).lookup i).map (fun p => (p.name, p.dataTypeName)) =
        (t.lookup i).map fun p => (p.name, p.dataTypeName) :=
    AList.map_lookup_modify (·.connect q) (fun p => (p.name, p.dataTypeName)) (connect_view · q) t k i
  funext type i
  cases hp : p.type <;> cases type <;> simp only [modifyOut, hp, portAt, hview]

end ProcessingUnit

variable {u v : ProcessingUnit} {i : ℤ} {portName : String}

/-- **The loader's lookup sees names only.** -/
theorem findPortByName_congr (hptr : u.ptr = v.ptr) (h : u.portAt = v.portAt) :
    findPortByName u portName = findPortByName v portName := by
  have hmin (type : PortType) : (u.indicesNamed type portName).min? = (v.indicesNamed type portName).min? :=
    min?_congr fun i => by rw [ProcessingUnit.mem_indicesNamed, ProcessingUnit.mem_indicesNamed, h]
  simp only [findPortByName, hptr, hmin]

theorem owner_findPortByName {p : PortPtr} (h : findPortByName u portName = some p) :
    p.owner = u.ptr := by
  obtain ⟨type, -, hp⟩ := List.exists_of_findSome?_eq_some h
  obtain ⟨i, -, rfl⟩ := Option.map_eq_some_iff.mp hp
  rfl

/-- The port found is there, under the name. -/
theorem portAt_of_findPortByName {p : PortPtr} (h : findPortByName u portName = some p) :
    ∃ T, u.portAt p.type p.id = some (portName, T) := by
  obtain ⟨type, -, hp⟩ := List.exists_of_findSome?_eq_some h
  obtain ⟨i, hi, rfl⟩ := Option.map_eq_some_iff.mp hp
  exact ProcessingUnit.mem_indicesNamed.mp (List.min?_mem hi)

theorem mem_inputPorts_iff : i ∈ u.inputPorts ↔ (u.portAt .syncInput i).isSome := by
  rw [← AList.lookup_isSome, ProcessingUnit.portAt, Option.isSome_map]

theorem mem_asyncInputPorts_iff : i ∈ u.asyncInputPorts ↔ (u.portAt .asyncInput i).isSome := by
  rw [← AList.lookup_isSome, ProcessingUnit.portAt, Option.isSome_map]

theorem mem_outputPorts_iff : i ∈ u.outputPorts ↔ (u.portAt .syncOutput i).isSome := by
  rw [← AList.lookup_isSome, ProcessingUnit.portAt, Option.isSome_map]

theorem mem_asyncOutputPorts_iff : i ∈ u.asyncOutputPorts ↔ (u.portAt .asyncOutput i).isSome := by
  rw [← AList.lookup_isSome, ProcessingUnit.portAt, Option.isSome_map]

/-! ## On a descriptor -/

/-- The control ports every unit is born with, as a descriptor would declare them. -/
def controlPorts : List PortDescriptor :=
  [{ index := ProcessingUnit.resetPort, name := "Reset", kind := .async, dataType := "int32",
     required := false },
   { index := ProcessingUnit.disablePort, name := "Disable", kind := .async, dataType := "int32",
     required := false }]

namespace UnitTypeDescriptor

variable (descriptor : UnitTypeDescriptor) {type : PortType}

/-- The ports a unit of the type has. -/
def allPorts : List PortDescriptor := descriptor.ports ++ controlPorts

/-- The indices of a name in one of the maps. -/
def indicesNamed (type : PortType) (portName : String) : List ℤ :=
  (descriptor.allPorts.filter fun d => d.portType = type ∧ d.name = portName).map (·.index)

/-- The port the loader finds under a name: the map and the index. -/
def loaderPort (portName : String) : Option (PortType × ℤ) :=
  portMaps.findSome? fun type => (descriptor.indicesNamed type portName).min?.map (type, ·)

/-- The canonical data type at an index of a map. -/
def dataTypeAt (type : PortType) (i : ℤ) : Option String :=
  (descriptor.allPorts.find? fun d => d.portType = type ∧ d.index = i).map (·.dataType)

end UnitTypeDescriptor

/-- The descriptor describes exactly the ports of the unit, its control ports apart, which it may
list or not; `cxxType` is the type a canonical name stands for. -/
def Describes (cxxType : String ↪ String) (descriptor : UnitTypeDescriptor) (u : ProcessingUnit) :
    Prop :=
  ∀ type i portName T, u.portAt type i = some (portName, T) ↔
    ∃ d ∈ descriptor.allPorts, d.portType = type ∧ d.index = i ∧ d.name = portName ∧
      cxxType d.dataType = T

namespace Describes

variable {cxxType : String ↪ String} {descriptor : UnitTypeDescriptor}

/-- **The loader finds what the descriptor says it finds.** -/
theorem findPortByName (h : Describes cxxType descriptor u) (portName : String) :
    findPortByName u portName =
      (descriptor.loaderPort portName).map fun p => ⟨u.ptr, p.1, p.2⟩ := by
  have hmin (type : PortType) : (u.indicesNamed type portName).min? =
      (descriptor.indicesNamed type portName).min? := by
    refine min?_congr fun i => ?_
    rw [ProcessingUnit.mem_indicesNamed, UnitTypeDescriptor.indicesNamed]
    simp only [h type i, List.mem_map, List.mem_filter, decide_eq_true_eq]
    constructor
    · rintro ⟨T, d, hd, ht, hi, hn, -⟩
      exact ⟨d, ⟨hd, ht, hn⟩, hi⟩
    · rintro ⟨d, ⟨hd, ht, hn⟩, hi⟩
      exact ⟨_, d, hd, ht, hi, hn, rfl⟩
  simp only [AxonVex.findPortByName, UnitTypeDescriptor.loaderPort, hmin, portMaps]
  simp only [List.findSome?_cons]
  cases (descriptor.indicesNamed .syncInput portName).min? with
  | some i => rfl
  | none =>
    cases (descriptor.indicesNamed .syncOutput portName).min? with
    | some i => rfl
    | none =>
      cases (descriptor.indicesNamed .asyncInput portName).min? with
      | some i => rfl
      | none => cases (descriptor.indicesNamed .asyncOutput portName).min? <;> rfl

/-- The data type of a port is the one the descriptor gives its index. -/
theorem portAt_dataType (h : Describes cxxType descriptor u) (type : PortType) (i : ℤ) :
    (u.portAt type i).map Prod.snd = (descriptor.dataTypeAt type i).map cxxType := by
  unfold UnitTypeDescriptor.dataTypeAt
  cases hd : descriptor.allPorts.find? fun d => d.portType = type ∧ d.index = i with
  | some d =>
    have hmem := List.mem_of_find?_eq_some hd
    have hp : d.portType = type ∧ d.index = i := by simpa using List.find?_some hd
    have := (h type i d.name (cxxType d.dataType)).mpr ⟨d, hmem, hp.1, hp.2, rfl, rfl⟩
    rw [this]
    rfl
  | none =>
    cases hu : u.portAt type i with
    | none => rfl
    | some p =>
      obtain ⟨d, hmem, ht, hi, -⟩ := (h type i p.1 p.2).mp hu
      have := List.find?_eq_none.mp hd d hmem
      simp [ht, hi] at this

theorem isSome_portAt (h : Describes cxxType descriptor u) (type : PortType) (i : ℤ) :
    (u.portAt type i).isSome = (descriptor.dataTypeAt type i).isSome := by
  simpa using congrArg Option.isSome (h.portAt_dataType type i)

end Describes

end AxonVex
