import AxonVex.Spec.Parse

/-!
# Spec/Validate — a parsed document against a factory

`SystemSpec.validate` checks a spec without creating a unit: a reference `unit.port` is resolved
against the ports that the type of the unit declares, in declaration order.
-/

namespace AxonVex

open Machinery Machinery.Reported

/-- What `validate` knows of a unit: its type, and the descriptor if the type is registered. -/
structure UnitInfo where
  type : String
  descriptor : Option UnitTypeDescriptor

namespace SystemSpec

variable (spec : SystemSpec) (factory : UnitFactory) (dump : Json → String)

/-- `unitsByName`: of two units of one name the later counts. -/
def unitsByName : Table String UnitInfo :=
  spec.units.foldl (fun byName u => byName.insert u.name ⟨u.type, factory.describe u.type⟩) ∅

/-- The type and the parameters of the unit at index `i`. -/
def validateUnit (i : ℕ) (u : SpecUnit) : Parsed Unit :=
  match factory.describe u.type with
  | none => report ⟨entryPath "$.units" i ++ ".type", .unknownUnitType,
      "unknown unit type '" ++ u.type ++ "'"⟩
  | some descriptor =>
    forM (validateParams dump descriptor u.params) fun issue =>
      report ⟨entryPath "$.units" i ++ ".params." ++ issue.paramName,
        if issue.code = .unknownKey then .unknownKey else .paramConstraint, issue.message⟩

/-- The port of a descriptor that a name stands for: the first one declared. -/
def declaredPort (descriptor : UnitTypeDescriptor) (portName : String) : Option PortDescriptor :=
  descriptor.ports.find? (·.name == portName)

/-- `resolvePort(ref, path)`.  A unit of an unknown type is not reported again. -/
def resolvePort (byName : Table String UnitInfo) (ref path : String) :
    Parsed (Option PortDescriptor) :=
  let unitName := (splitPortRef ref).1
  let portName := (splitPortRef ref).2
  match byName.lookup unitName with
  | none => refuse none path .badReference ("no unit named '" ++ unitName ++ "' in this document")
  | some info =>
    match info.descriptor with
    | none => pure none
    | some descriptor =>
      match declaredPort descriptor portName with
      | some pd => pure (some pd)
      | none => refuse none path .badReference ("unit '" ++ unitName ++ "' (type '" ++ info.type ++
          "') has no port named '" ++ portName ++ "'")

/-- A resolved port, dropped with an error when it has the wrong direction. -/
def requireDirection (direction : Direction) (ref path : String) (port : Option PortDescriptor) :
    Parsed (Option PortDescriptor) :=
  match port with
  | none => pure none
  | some pd =>
    if pd.direction = direction then pure (some pd)
    else refuse none path .badReference ("'" ++ ref ++ match direction with
      | .input => "' is not an input port"
      | .output => "' is not an output port")

/-- `wiredInputs.insert(ref)`: a second wire to one input is an error. -/
def wireInput (wiredInputs : List String) (ref path : String) : Parsed (List String) :=
  if ref ∈ wiredInputs then
    refuse wiredInputs path .dupInputWire ("'" ++ ref ++ "' already has a connection wired to it")
  else pure (ref :: wiredInputs)

/-- The connection at index `i`. -/
def validateConnection (byName : Table String UnitInfo) (wiredInputs : List String) (i : ℕ)
    (c : SpecConnection) : Parsed (List String) := do
  let base := entryPath "$.connections" i
  let fromPort ← resolvePort byName c.source (base ++ ".from")
  let toPort ← resolvePort byName c.target (base ++ ".to")
  let fromPort ← requireDirection .output c.source (base ++ ".from") fromPort
  let toPort ← requireDirection .input c.target (base ++ ".to") toPort
  match fromPort, toPort with
  | some fromPort, some toPort =>
    if fromPort.kind ≠ toPort.kind then
      refuse wiredInputs base .kindMismatch ("'" ++ c.source ++ "' (" ++ kindName fromPort.kind ++
        ") cannot connect to '" ++ c.target ++ "' (" ++ kindName toPort.kind ++ ")")
    else if fromPort.dataType ≠ toPort.dataType then
      refuse wiredInputs base .portTypeMismatch ("'" ++ c.source ++ "' (" ++ fromPort.dataType ++
        ") cannot connect to '" ++ c.target ++ "' (" ++ toPort.dataType ++ ")")
    else wireInput wiredInputs c.target (base ++ ".to")
  | _, _ => pure wiredInputs

/-- One entry of `systemPorts.inputs`. -/
def validateSystemInput (byName : Table String UnitInfo) (wiredInputs : List String)
    (name ref : String) : Parsed (List String) := do
  let path := "$.systemPorts.inputs." ++ name
  let port ← resolvePort byName ref path
  let port ← requireDirection .input ref path port
  match port with
  | some _ => wireInput wiredInputs ref path
  | none => pure wiredInputs

/-- One entry of `systemPorts.outputs`. -/
def validateSystemOutput (byName : Table String UnitInfo) (name ref : String) : Parsed Unit := do
  let path := "$.systemPorts.outputs." ++ name
  let port ← resolvePort byName ref path
  let _ ← requireDirection .output ref path port

/-- The required inputs of the unit at index `i`. -/
def validateRequired (byName : Table String UnitInfo) (wiredInputs : List String) (i : ℕ)
    (u : SpecUnit) : Parsed Unit :=
  match (byName.lookup u.name).bind (·.descriptor) with
  | none => pure ()
  | some descriptor =>
    forM descriptor.ports fun pd =>
      require (pd.direction = .input ∧ pd.required = true → u.name ++ "." ++ pd.name ∈ wiredInputs)
        ⟨entryPath "$.units" i, .requiredInputUnwired,
          "required input '" ++ pd.name ++ "' on unit '" ++ u.name ++ "' is not wired"⟩

/-- The uri of the adapter at index `i`. -/
def validateAdapter (i : ℕ) (a : SpecAdapter) : Parsed Unit :=
  require ("://".toList <:+: a.uri.toList)
    ⟨entryPath "$.adapters" i ++ ".uri", .badReference,
      "uri '" ++ a.uri ++ "' is not well-formed (expected 'scheme://...')"⟩

/-- The body of `validate`. -/
def validateAll : Parsed Unit := do
  forM spec.units.zipIdx fun u => validateUnit factory dump u.2 u.1
  let byName := spec.unitsByName factory
  let wiredInputs ← spec.connections.zipIdx.foldlM
    (fun wired c => validateConnection byName wired c.2 c.1) []
  let wiredInputs ← spec.systemPorts.inputs.entries.foldlM
    (fun wired e => validateSystemInput byName wired e.1 e.2) wiredInputs
  forM spec.systemPorts.outputs.entries fun e => validateSystemOutput byName e.1 e.2
  forM spec.units.zipIdx fun u => validateRequired byName wiredInputs u.2 u.1
  forM spec.adapters.zipIdx fun a => validateAdapter a.2 a.1

/-- `validate(factory, errors)`. -/
def validate (errors : List SpecError) : Bool × List SpecError :=
  ((spec.validateAll factory dump).errors.isEmpty, errors ++ (spec.validateAll factory dump).errors)

end SystemSpec

end AxonVex
