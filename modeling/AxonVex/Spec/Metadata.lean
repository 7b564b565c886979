import AxonVex.Core.Ports
import AxonVex.Machinery.Table
import AxonVex.Spec.Json
import Mathlib.Data.List.MinMax

/-!
# Spec/Metadata — what a unit type declares, and the factory that builds it

A `UnitTypeDescriptor` lists the ports and the parameters of a unit type; `validateParams` checks a
parameter object against it, and `UnitFactory.create` runs the user's creation function only on
parameters that pass (`UnitFactory.create_of_registered`).  A port is identified by the map it
lives in (`PortDescriptor.portType`) and its index there.
-/

namespace AxonVex

open Machinery

/-! ## Ports -/

/-- `PortDescriptor::Direction`. -/
inductive Direction
  | input | output
  deriving DecidableEq, Repr

/-- `PortDescriptor::Kind`. -/
inductive Kind
  | sync | async
  deriving DecidableEq, Repr

/-- `kindName(k)`. -/
def kindName : Kind → String
  | .sync => "Sync"
  | .async => "Async"

/-- `PortDescriptor`; `dataType` is the canonical name `PortDataTypeName<T>::value()`. -/
structure PortDescriptor where
  index : ℤ := 0
  name : String
  direction : Direction := .input
  kind : Kind := .sync
  dataType : String
  required : Bool := true
  deriving DecidableEq, Repr

/-- The map a port of this direction and kind lives in. -/
def PortDescriptor.portType (d : PortDescriptor) : PortType :=
  match d.direction, d.kind with
  | .input, .sync => .syncInput
  | .input, .async => .asyncInput
  | .output, .sync => .syncOutput
  | .output, .async => .asyncOutput

/-! ## Parameters -/

/-- `ParamDescriptor::Type`. -/
inductive ParamType
  | bool | int | double | string | enum | object
  deriving DecidableEq, Repr

/-- `paramTypeName(t)`. -/
def paramTypeName : ParamType → String
  | .bool => "Bool"
  | .int => "Int"
  | .double => "Double"
  | .string => "String"
  | .enum => "Enum"
  | .object => "Object"

/-- `ParamDescriptor`. -/
structure ParamDescriptor where
  name : String
  type : ParamType := .string
  defaultValue : Json := .null
  constraints : Json := .null

/-- `isRequired()`. -/
def ParamDescriptor.isRequired (desc : ParamDescriptor) : Bool := desc.defaultValue.isNull

/-- `UnitTypeDescriptor`. -/
structure UnitTypeDescriptor where
  typeName : String
  ports : List PortDescriptor := []
  parameters : List ParamDescriptor := []

/-- `ParamValidationIssue::code`. -/
inductive ParamIssueCode
  | unknownKey | missingRequired | typeMismatch | constraintViolation
  deriving DecidableEq, Repr

/-- The text of a code. -/
def ParamIssueCode.toString : ParamIssueCode → String
  | unknownKey => "UNKNOWN_KEY"
  | missingRequired => "MISSING_REQUIRED"
  | typeMismatch => "TYPE_MISMATCH"
  | constraintViolation => "CONSTRAINT_VIOLATION"

/-- `ParamValidationIssue`. -/
structure ParamValidationIssue where
  paramName : String
  code : ParamIssueCode
  message : String
  deriving DecidableEq, Repr

/-- `jsonTypeMatches(type, value)`: a `Double` accepts an integer too. -/
def jsonTypeMatches : ParamType → Json → Bool
  | .bool, value => value.isBoolean
  | .int, value => value.isNumberInteger
  | .double, value => value.isNumber
  | .string, value => value.isString
  | .enum, value => value.isString
  | .object, value => value.isObject

section

/- `dump()` of the JSON library, which only the texts of the issues use. -/
variable (dump : Json → String)

/-- `constraintsSatisfied(desc, value, violation)`: the text of the violation, if there is one.  A
constraint that is absent or malformed holds of everything. -/
def constraintViolation? (desc : ParamDescriptor) (value : Json) : Option String :=
  if !desc.constraints.isObject then none
  else match desc.type with
    | .enum =>
      match desc.constraints.find? "values" with
      | some (.array allowed) =>
        if allowed.any (·.isTheString value.getString) then none
        else some ("value '" ++ dump value ++ "' is not one of the allowed enum values")
      | _ => none
    | .int => bounds
    | .double => bounds
    | _ => none
where
  /-- the `min` and `max` of a number, compared as doubles -/
  bounds : Option String :=
    if !value.isNumber then none
    else match (desc.constraints.find? "min").filter fun bound =>
        bound.isNumber && value.getDouble < bound.getDouble with
      | some bound => some ("value " ++ dump value ++ " is below the minimum " ++ dump bound)
      | none =>
        match (desc.constraints.find? "max").filter fun bound =>
            bound.isNumber && bound.getDouble < value.getDouble with
        | some bound => some ("value " ++ dump value ++ " exceeds the maximum " ++ dump bound)
        | none => none

/-- The issue with the value of one declared parameter, if there is one. -/
def checkParam (obj : Json) (desc : ParamDescriptor) : Option ParamValidationIssue :=
  match obj.find? desc.name with
  | none =>
    if desc.isRequired then
      some ⟨desc.name, .missingRequired, "required parameter '" ++ desc.name ++ "' is missing"⟩
    else none
  | some found =>
    if !jsonTypeMatches desc.type found then
      some ⟨desc.name, .typeMismatch, "parameter '" ++ desc.name ++ "' expects type " ++
        paramTypeName desc.type ++ ", got " ++ found.typeName⟩
    else (constraintViolation? dump desc found).map fun violation =>
      ⟨desc.name, .constraintViolation, "parameter '" ++ desc.name ++ "': " ++ violation⟩

/-- `validateParams(meta, params)`. -/
def validateParams (descriptor : UnitTypeDescriptor) (params : Json) : List ParamValidationIssue :=
  let obj := if params.isNull then .emptyObject else params
  if !obj.isObject then [⟨"", .typeMismatch, "params must be a JSON object"⟩]
  else
    (obj.members.filterMap fun (key, _) =>
      if descriptor.parameters.any (·.name == key) then none
      else some ⟨key, .unknownKey, "unit type '" ++ descriptor.typeName ++
        "' has no parameter named '" ++ key ++ "'"⟩) ++
    descriptor.parameters.filterMap (checkParam dump obj)

end

/-! ## The factory -/

/-- How a creation function ends. -/
inductive Creation
  | created (unit : ProcessingUnit)
  | null
  /-- a `std::exception` with this `what()` -/
  | threw (what : String)
  /-- an exception that is not a `std::exception` -/
  | threwOther

/-- `CreateFn`: the unit named `instanceName` of these parameters. -/
abbrev CreateFn := String → Json → Creation

/-- `UnitFactory::Entry`. -/
structure UnitFactory.Entry where
  descriptor : UnitTypeDescriptor
  create : CreateFn

/-- `UnitFactory`. -/
structure UnitFactory where
  types : Table String UnitFactory.Entry := ∅

namespace UnitFactory

variable (factory : UnitFactory) (dump : Json → String)

/-- `registerType(meta, create)`: a type without a name and a name that is taken throw. -/
def registerType (descriptor : UnitTypeDescriptor) (create : CreateFn) : Option UnitFactory :=
  if descriptor.typeName.isEmpty ∨ descriptor.typeName ∈ factory.types then none
  else some { types := factory.types.insert descriptor.typeName ⟨descriptor, create⟩ }

/-- `describe(typeName)`. -/
def describe (typeName : String) : Option UnitTypeDescriptor :=
  (factory.types.lookup typeName).map (·.descriptor)

/-- The text `create` throws with on parameters that do not pass. -/
def paramFailure (typeName : String) (issues : List ParamValidationIssue) : String :=
  issues.foldl (fun message issue =>
      message ++ " [" ++ issue.code.toString ++ "] " ++ issue.message ++ ";")
    ("UnitFactory::create: parameter validation failed for type '" ++ typeName ++ "':")

/-- `create(typeName, instanceName, params)`. -/
def create (typeName instanceName : String) (params : Json) : Creation :=
  match factory.types.lookup typeName with
  | none => .threw ("UnitFactory::create: unknown unit type '" ++ typeName ++ "'")
  | some entry =>
    if (validateParams dump entry.descriptor params).isEmpty then entry.create instanceName params
    else .threw (paramFailure typeName (validateParams dump entry.descriptor params))

variable {factory dump} {typeName : String} {entry : Entry} {params : Json}

/-- **The creation function runs on validated parameters only.** -/
theorem create_of_registered (h : factory.types.lookup typeName = some entry)
    (hp : validateParams dump entry.descriptor params = []) (instanceName : String) :
    factory.create dump typeName instanceName params = entry.create instanceName params := by
  simp [create, h, hp]

theorem describe_eq_some {descriptor : UnitTypeDescriptor} :
    factory.describe typeName = some descriptor ↔
      ∃ entry, factory.types.lookup typeName = some entry ∧ entry.descriptor = descriptor :=
  Option.map_eq_some_iff

end UnitFactory

end AxonVex
