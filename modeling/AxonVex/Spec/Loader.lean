import AxonVex.Core.Operations
import AxonVex.Spec.Validate

/-!
# Spec/Loader — building a system from its spec

`SpecSystem.initializeBlocksLayout` creates and registers the units of a spec, wires them, and
names their system ports.  Each step either goes on, fails with a `SpecError`, after which the units
registered so far are unregistered, or lets an exception through, after which nothing is undone.

Where `validate` resolves a port name against the declared ports in declaration order, the loader
searches the four port maps of the live unit, each by ascending index (`findPortByName`).
-/

namespace AxonVex

open Machinery

namespace ProcessingUnit

variable (u : ProcessingUnit)

/-- `setDownSamplingFactor(factor)`: a factor below 1 throws. -/
def setDownSamplingFactor (factor : ℤ) : Except String ProcessingUnit :=
  if factor < 1 then .error "Down-sampling factor must be >= 1"
  else .ok { u with downSamplingFactor := factor }

/-- The indices of the ports of this name in one of the four maps. -/
def indicesNamed (type : PortType) (portName : String) : List ℤ :=
  match type with
  | .syncInput => (u.inputPorts.filterValues (·.name == portName)).keys
  | .syncOutput => (u.outputPorts.filterValues (·.name == portName)).keys
  | .asyncInput => (u.asyncInputPorts.filterValues (·.name == portName)).keys
  | .asyncOutput => (u.asyncOutputPorts.filterValues (·.name == portName)).keys

end ProcessingUnit

/-- The order in which the loader searches the port maps of a unit. -/
def portMaps : List PortType := [.syncInput, .syncOutput, .asyncInput, .asyncOutput]

/-- `findPortByName(unit, portName)`: the maps in turn, each by ascending index. -/
def findPortByName (u : ProcessingUnit) (portName : String) : Option PortPtr :=
  portMaps.findSome? fun type => (u.indicesNamed type portName).min?.map (⟨u.ptr, type, ·⟩)

/-! ## Wiring -/

/-- The port a writing port of this type connects to. -/
def PortType.peer : PortType → Option PortType
  | .syncOutput => some .syncInput
  | .asyncOutput => some .asyncInput
  | .syncInput => none
  | .asyncInput => none

namespace AxonVexSystem

variable (s : AxonVexSystem)

/-- A registered unit is changed in place. -/
def modifyUnit (unit : UnitPtr) (f : ProcessingUnit → ProcessingUnit) : AxonVexSystem :=
  match s.unitRegistry.idOf unit with
  | none => s
  | some id => { s with
      unitRegistry := { s.unitRegistry with units := s.unitRegistry.units.modify id f } }

/-- `source->tryConnect(target)`: the target must be a reading port of the source's kind and of its
data type; a reading port refuses every target. -/
def tryConnect (source target : PortPtr) : AxonVexSystem × Bool :=
  match (s.unitRegistry.unitAt source.owner).bind (·.outPort? source),
      (s.unitRegistry.unitAt target.owner).bind (·.inPort? target) with
  | some p, some q =>
    if source.type.peer = some target.type ∧ p.dataTypeName = q.dataTypeName then
      (s.modifyUnit source.owner (·.modifyOut source (·.connect target)), true)
    else (s, false)
  | _, _ => (s, false)

end AxonVexSystem

/-! ## The passes of the loader -/

/-- What the environment contributes to `initializeBlocksLayout()`. -/
structure LayoutEnv where
  /-- where the unit at an index of the spec is created -/
  address : ℕ → UnitPtr
  now : TimePoint := 0
  /-- `getAdapter(uri)` is there -/
  injected : String → Bool

/-- The system while it is built: `unitsByName` and `registeredUnitIds` of the source. -/
structure Layout where
  system : AxonVexSystem
  unitsByName : Table String UnitPtr := ∅
  registeredUnitIds : List ℕ := []

/-- Why the layout stops. -/
inductive LayoutStop
  | failed (error : SpecError)
  /-- an exception no `catch` is there for -/
  | escaped

/-- A pass goes on with a layout, or stops with the layout it leaves behind. -/
abbrev LayoutPass := Except (Layout × LayoutStop) Layout

namespace Layout

variable (L : Layout)

/-- The unit of this address that is registered now. -/
def liveUnit (unit : UnitPtr) : Option ProcessingUnit := L.system.unitRegistry.unitAt unit

/-- `resolveInstantiatedPort(unitsByName, ref)`. -/
def resolve (ref : String) : Option PortPtr :=
  (L.unitsByName.lookup (splitPortRef ref).1).bind fun unit =>
    (L.liveUnit unit).bind fun u => findPortByName u (splitPortRef ref).2

/-- A stop with a recorded error. -/
def fail (path : String) (code : SpecErrorCode) (message : String) : LayoutPass :=
  .error (L, .failed ⟨path, code, message⟩)

/-- `rollbackRegisteredUnits()`. -/
def rollback : AxonVexSystem :=
  L.registeredUnitIds.foldl (fun s id => (s.unregisterProcessingUnit id).1) L.system

/-- The path of an error about a unit of the spec. -/
def unitPath (name : String) : String := "$.units[" ++ name ++ "]"

/-- Configuring and registering a unit that has been created.  A factor that is refused throws
past every `catch`. -/
def registerUnit (env : LayoutEnv) (su : SpecUnit) (unit : ProcessingUnit) : LayoutPass :=
  match if su.downSamplingFactor ≠ 1 then unit.setDownSamplingFactor su.downSamplingFactor
      else .ok unit with
  | .error _ => .error (L, .escaped)
  | .ok unit =>
    match L.system.registerProcessingUnit unit (if su.hasTiming then su.timing else {}) env.now with
    | (_, none) =>
      L.fail (unitPath su.name) .badReference ("registerProcessingUnit() failed for unit '" ++
        su.name ++ "': Maximum number of processing units exceeded")
    | (system, some unitId) => .ok {
        system
        unitsByName := L.unitsByName.insert su.name unit.ptr
        registeredUnitIds := L.registeredUnitIds ++ [unitId] }

/-- The unit at index `i` of the spec. -/
def instantiate (factory : UnitFactory) (dump : Json → String) (env : LayoutEnv) (i : ℕ)
    (su : SpecUnit) : LayoutPass :=
  match factory.create dump su.type su.name su.params with
  | .threw what =>
    L.fail (unitPath su.name) .unknownUnitType
      ("factory.create() failed for unit '" ++ su.name ++ "': " ++ what)
  | .threwOther => .error (L, .escaped)
  | .null =>
    L.fail (unitPath su.name) .unknownUnitType
      ("factory.create() returned null for unit '" ++ su.name ++ "'")
  | .created unit => L.registerUnit env su { unit with ptr := env.address i }

/-- One adapter of the spec. -/
def checkAdapter (env : LayoutEnv) (sa : SpecAdapter) : LayoutPass :=
  if env.injected sa.uri then .ok L
  else L.fail "$.adapters" .missingAdapter
    ("adapter '" ++ sa.uri ++ "' was not injected via addAdapter() before initialize()")

/-- One connection of the spec. -/
def wire (conn : SpecConnection) : LayoutPass :=
  match L.resolve conn.source, L.resolve conn.target with
  | some fromPort, some toPort =>
    match L.system.tryConnect fromPort toPort with
    | (system, true) => .ok { L with system }
    | (_, false) => failed
  | _, _ => failed
where
  /-- the error of every way to fail -/
  failed : LayoutPass :=
    L.fail "$.connections" .badReference ("internal defect: failed to wire '" ++ conn.source ++
      "' -> '" ++ conn.target ++ "' after validate() reported it as resolvable and compatible")

/-- The common body of the two loops over system ports. -/
def assignPort (assign : AxonVexSystem → String → UnitPtr → ℤ → AxonVexSystem × Bool)
    (kind name ref : String) : LayoutPass :=
  match L.resolve ref, L.unitsByName.lookup (splitPortRef ref).1 with
  | some port, some unit =>
    match assign L.system name unit port.id with
    | (system, true) => .ok { L with system }
    | (_, false) => failed
  | _, _ => failed
where
  /-- the error of every way to fail -/
  failed : LayoutPass :=
    L.fail ("$.systemPorts." ++ kind ++ "s." ++ name) .badReference
      ("internal defect: failed to assign system " ++ kind ++ " '" ++ name ++ "' -> '" ++ ref ++ "'")

/-- One entry of `systemPorts.inputs`. -/
def assignInput (name ref : String) : LayoutPass :=
  L.assignPort AxonVexSystem.assignSystemInputPort "input" name ref

/-- One entry of `systemPorts.outputs`. -/
def assignOutput (name ref : String) : LayoutPass :=
  L.assignPort AxonVexSystem.assignSystemOutputPort "output" name ref

end Layout

/-- `SpecSystem`. -/
structure SpecSystem where
  system : AxonVexSystem
  spec : SystemSpec
  factory : UnitFactory
  specErrors : List SpecError := []

namespace SpecSystem

variable (t : SpecSystem) (dump : Json → String) (env : LayoutEnv)

/-- The constructor; `none` where that of `AxonVexSystem` throws on the configuration. -/
def new (spec : SystemSpec) (factory : UnitFactory) (objectSize : ℕ) : Option SpecSystem :=
  match spec.systemConfiguration.validate with
  | .error _ => none
  | .ok () => some { system := .new spec.systemConfiguration objectSize, spec, factory }

/-- The units are created and registered. -/
def instantiateUnits (L : Layout) : LayoutPass :=
  t.spec.units.zipIdx.foldlM (fun L u => L.instantiate t.factory dump env u.2 u.1) L

/-- The passes after the units are there. -/
def wireUnits (L : Layout) : LayoutPass := do
  let L ← t.spec.adapters.foldlM (fun L sa => L.checkAdapter env sa) L
  let L ← t.spec.connections.foldlM (fun L conn => L.wire conn) L
  let L ← t.spec.systemPorts.inputs.entries.foldlM (fun L e => L.assignInput e.1 e.2) L
  t.spec.systemPorts.outputs.entries.foldlM (fun L e => L.assignOutput e.1 e.2) L

/-- The passes of `initializeBlocksLayout`, in order. -/
def layoutPasses : LayoutPass := t.instantiateUnits dump env { system := t.system } >>= t.wireUnits env

/-- `initializeBlocksLayout()`. -/
def initializeBlocksLayout : SpecSystem × AxonVexSystem.CallResult :=
  if !t.spec.missionPipelines.isEmpty then
    ({ t with specErrors := [⟨"$.missionPipelines", .unsupportedSection,
        "missionPipelines is not yet consumed by the loader (no MissionElement factories exist)"⟩] },
      .returned false)
  else match t.layoutPasses dump env with
    | .ok L => ({ t with system := L.system, specErrors := [] }, .returned true)
    | .error (L, .failed e) => ({ t with system := L.rollback, specErrors := [e] }, .returned false)
    | .error (L, .escaped) => ({ t with system := L.system, specErrors := [] }, .escaped)

end SpecSystem

/-- `loadSystemFromSpec(doc, errors, factory)`. -/
def loadSystemFromSpec (doc : Json) (errors : List SpecError) (factory : UnitFactory)
    (dump : Json → String) (objectSize : ℕ) : Option SpecSystem × List SpecError :=
  match SystemSpec.parse doc [] with
  | (none, found) => (none, errors ++ found)
  | (some spec, found) =>
    match spec.validate factory dump found with
    | (false, found) => (none, errors ++ found)
    | (true, found) => (SpecSystem.new spec factory objectSize, errors ++ found)

end AxonVex
