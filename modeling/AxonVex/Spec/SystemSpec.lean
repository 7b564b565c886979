import AxonVex.Core.System
import AxonVex.Spec.Metadata

/-!
# Spec/SystemSpec — a parsed system document

`SystemSpec` is what `SystemSpec::parse` makes of a document: units, connections and system ports
by name, a reference to a port being the text `unit.port`.  `isValidPortRef` and `splitPortRef` are
the syntax of such a reference.
-/

namespace AxonVex

open Machinery

/-- The constants of `SpecErrorCode`. -/
inductive SpecErrorCode
  | specVersionUnsupported | missingField | invalidType | invalidEnumValue | unknownKey
  | dupUnitName | unknownUnitType | paramConstraint | badReference | kindMismatch
  | portTypeMismatch | requiredInputUnwired | dupInputWire | missingAdapter | unsupportedSection
  deriving DecidableEq, Repr

/-- `SpecError`. -/
structure SpecError where
  path : String
  code : SpecErrorCode
  message : String
  deriving DecidableEq, Repr

/-- `LogLevel`. -/
inductive LogLevel
  | debug | info | warning | error | critical
  deriving DecidableEq, Repr

/-- `SpecUnit`. -/
structure SpecUnit where
  name : String := ""
  type : String := ""
  params : Json := .emptyObject
  hasTiming : Bool := false
  timing : TimingConstraints := {}
  downSamplingFactor : ℤ := 1

/-- `SpecConnection`: two references `unit.port`. -/
structure SpecConnection where
  source : String := ""
  target : String := ""
  deriving DecidableEq, Repr

/-- `SpecSystemPorts`: external name to `unit.port`. -/
structure SpecSystemPorts where
  inputs : Table String String := ∅
  outputs : Table String String := ∅

/-- `SpecAdapter`. -/
structure SpecAdapter where
  uri : String := ""
  type : String := ""
  config : Json := .emptyObject

/-- `SpecSafetyPolicy`. -/
structure SpecSafetyPolicy where
  type : String := ""
  params : Json := .emptyObject

/-- `SpecSafety`. -/
structure SpecSafety where
  evaluationPeriodMs : ℤ := 100
  policies : List SpecSafetyPolicy := []

/-- `SpecMissionElement`. -/
structure SpecMissionElement where
  name : String := ""
  type : String := ""
  params : Json := .emptyObject

/-- `SpecMissionTransition`. -/
structure SpecMissionTransition where
  source : String := ""
  target : String := ""
  on : String := ""
  deriving DecidableEq, Repr

/-- `SpecMissionPipeline`. -/
structure SpecMissionPipeline where
  name : String := ""
  elements : List SpecMissionElement := []
  transitions : List SpecMissionTransition := []

/-- `SystemSpec`. -/
structure SystemSpec where
  specVersion : String := ""
  systemName : String := ""
  tickRate : Microseconds := 100
  schedulingPolicy : SchedulingPolicy := .priorityBased
  enableRealTimeScheduling : Bool := true
  logLevel : LogLevel := .info
  eventPoolSize : ℕ := 1024
  eventQueueSize : ℕ := 256
  maxProcessingUnits : ℕ := 1000
  units : List SpecUnit := []
  connections : List SpecConnection := []
  systemPorts : SpecSystemPorts := {}
  adapters : List SpecAdapter := []
  hasSafety : Bool := false
  safety : SpecSafety := {}
  missionPipelines : List SpecMissionPipeline := []

/-- `systemConfiguration()`. -/
def SystemSpec.systemConfiguration (spec : SystemSpec) : SystemConfiguration where
  systemName := spec.systemName
  defaultSchedulingPolicy := spec.schedulingPolicy
  systemTickRate := spec.tickRate
  maxProcessingUnits := spec.maxProcessingUnits
  eventPoolSize := .ofNat spec.eventPoolSize
  eventQueueSize := .ofNat spec.eventQueueSize

/-! ## References to ports -/

/-- `isValidPortRef(s)`: exactly one '.', and something on both sides of it. -/
def isValidPortRef (s : String) : Bool :=
  match s.toList.findIdx? (· == '.') with
  | none => false
  | some pos => pos != 0 && pos != s.length - 1 && !(s.toList.drop (pos + 1)).contains '.'

/-- `splitPortRef(ref, unitName, portName)`: cut at the first '.'; without one, `find` gives `npos`
and both parts are the whole text. -/
def splitPortRef (ref : String) : String × String :=
  match ref.toList.findIdx? (· == '.') with
  | none => (ref, ref)
  | some pos => (.ofList (ref.toList.take pos), .ofList (ref.toList.drop (pos + 1)))

example : splitPortRef "plant.speed" = ("plant", "speed") := by decide

end AxonVex
