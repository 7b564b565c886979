import AxonVex.Spec.Schema

/-!
# Spec/Contents — the spec that a document stands for

`Contents` says, section by section, that a `SystemSpec` holds what a document says: each present
member as it is, each absent one by its default, arrays in document order.  The two members that
the code stores as `int` are read through a conversion, so that the same relation can speak of what
is written and of what is stored.
-/

namespace AxonVex

open Machinery

/-! ## Fields -/

/-- `a` is what the member under `key` says, or the fallback when there is none. -/
def Field {α : Type} (obj : Json) (key : String) (Is : Json → α → Prop) (fallback a : α) : Prop :=
  (obj.find? key = none ∧ a = fallback) ∨ ∃ v, obj.find? key = some v ∧ Is v a

/-- The member under `key` is this text. -/
def TextField (obj : Json) (key text : String) : Prop := obj.find? key = some (.string text)

/-- A number. -/
def IsInteger (v : Json) (z : ℤ) : Prop := v.asInteger = some z

/-- A size. -/
def IsSize (v : Json) (n : ℕ) : Prop := v.asInteger = some (n : ℤ)

/-- A number behind a conversion. -/
def IsConverted (convert : ℤ → ℤ) (v : Json) (n : ℤ) : Prop :=
  ∃ z, v.asInteger = some z ∧ n = convert z

/-- A boolean. -/
def IsBoolean (v : Json) (b : Bool) : Prop := v = .boolean b

/-- The name of an enumerator. -/
def IsNamed {α : Type} (name : α → String) (v : Json) (a : α) : Prop := v = .string (name a)

/-- An array, entry by entry. -/
def IsArray {α : Type} (Is : Json → α → Prop) (v : Json) (as : List α) : Prop :=
  ∃ elements, v = .array elements ∧ List.Forall₂ Is elements as

/-- A map from names to texts. -/
def IsTable (v : Json) (table : Table String String) : Prop :=
  ∀ name text, table.lookup name = some text ↔ v.find? name = some (.string text)

/-! ## Enumerators -/

/-- The name of a policy in a document. -/
def SchedulingPolicy.name : SchedulingPolicy → String
  | .roundRobin => "ROUND_ROBIN"
  | .priorityBased => "PRIORITY_BASED"
  | .earliestDeadlineFirst => "EARLIEST_DEADLINE_FIRST"
  | .rateMonotonic => "RATE_MONOTONIC"
  | .custom => "CUSTOM"

/-- The name of a log level in a document. -/
def LogLevel.name : LogLevel → String
  | .debug => "Debug"
  | .info => "Info"
  | .warning => "Warning"
  | .error => "Error"
  | .critical => "Critical"

/-- The name of a priority in a document. -/
def SchedulerPriority.name : SchedulerPriority → String
  | .idle => "IDLE"
  | .low => "LOW"
  | .normal => "NORMAL"
  | .high => "HIGH"
  | .realTime => "REAL_TIME"
  | .critical => "CRITICAL"

/-! ## Sections -/

/-- What `system` says. -/
structure SystemContents (sys : Json) (spec : SystemSpec) : Prop where
  name : TextField sys "name" spec.systemName
  tickRate : Field sys "tickRateUs" IsInteger 100 spec.tickRate
  schedulingPolicy : Field sys "schedulingPolicy" (IsNamed SchedulingPolicy.name) .priorityBased
    spec.schedulingPolicy
  enableRealTimeScheduling : Field sys "enableRealTimeScheduling" IsBoolean true
    spec.enableRealTimeScheduling
  logLevel : Field sys "logLevel" (IsNamed LogLevel.name) .info spec.logLevel
  eventPoolSize : Field sys "eventPoolSize" IsSize 1024 spec.eventPoolSize
  eventQueueSize : Field sys "eventQueueSize" IsSize 256 spec.eventQueueSize
  maxProcessingUnits : Field sys "maxProcessingUnits" IsSize 1000 spec.maxProcessingUnits

/-- What the `timing` of a unit says. -/
structure TimingContents (t : Json) (timing : TimingConstraints) : Prop where
  period : Field t "periodUs" IsInteger 0 timing.period
  deadline : Field t "deadlineUs" IsInteger 0 timing.deadline
  wcet : Field t "wcetUs" IsInteger 0 timing.wcet
  priority : Field t "priority" (IsNamed SchedulerPriority.name) .normal timing.priority
  isRealTime : Field t "isRealTime" IsBoolean false timing.isRealTime

/-- A `timing`, with the flag that there is one. -/
def IsTiming (t : Json) (timing : Bool × TimingConstraints) : Prop :=
  timing.1 = true ∧ TimingContents t timing.2

section

variable (convert : ℤ → ℤ)

/-- What an entry of `units` says. -/
structure UnitContents (u : Json) (su : SpecUnit) : Prop where
  name : TextField u "name" su.name
  type : TextField u "type" su.type
  params : Field u "params" Eq .emptyObject su.params
  timing : Field u "timing" IsTiming (false, {}) (su.hasTiming, su.timing)
  downSamplingFactor : Field u "downSamplingFactor" (IsConverted convert) 1 su.downSamplingFactor

/-- What an entry of `connections` says. -/
structure ConnectionContents (c : Json) (sc : SpecConnection) : Prop where
  source : TextField c "from" sc.source
  target : TextField c "to" sc.target

/-- What `systemPorts` says. -/
structure SystemPortsContents (sp : Json) (ports : SpecSystemPorts) : Prop where
  inputs : Field sp "inputs" IsTable ∅ ports.inputs
  outputs : Field sp "outputs" IsTable ∅ ports.outputs

/-- What an entry of `adapters` says. -/
structure AdapterContents (a : Json) (sa : SpecAdapter) : Prop where
  uri : TextField a "uri" sa.uri
  type : TextField a "type" sa.type
  config : Field a "config" Eq .emptyObject sa.config

/-- What an entry of `safety.policies` says. -/
structure PolicyContents (p : Json) (policy : SpecSafetyPolicy) : Prop where
  type : TextField p "type" policy.type
  params : Field p "params" Eq .emptyObject policy.params

/-- What `safety` says, with the flag that there is one. -/
structure SafetyContents (s : Json) (safety : Bool × SpecSafety) : Prop where
  present : safety.1 = true
  evaluationPeriodMs : Field s "evaluationPeriodMs" (IsConverted convert) 100
    safety.2.evaluationPeriodMs
  policies : Field s "policies" (IsArray PolicyContents) [] safety.2.policies

/-- What an entry of the `elements` of a pipeline says. -/
structure ElementContents (e : Json) (element : SpecMissionElement) : Prop where
  name : TextField e "name" element.name
  type : TextField e "type" element.type
  params : Field e "params" Eq .emptyObject element.params

/-- What an entry of the `transitions` of a pipeline says. -/
structure TransitionContents (t : Json) (transition : SpecMissionTransition) : Prop where
  source : TextField t "from" transition.source
  target : TextField t "to" transition.target
  on : TextField t "on" transition.on

/-- What an entry of `missionPipelines` says. -/
structure PipelineContents (mp : Json) (pipeline : SpecMissionPipeline) : Prop where
  name : TextField mp "name" pipeline.name
  elements : Field mp "elements" (IsArray ElementContents) [] pipeline.elements
  transitions : Field mp "transitions" (IsArray TransitionContents) [] pipeline.transitions

/-- **What a document says**, where the numbers stored as `int` go through `convert`. -/
structure Contents (doc : Json) (spec : SystemSpec) : Prop where
  specVersion : TextField doc "specVersion" spec.specVersion
  system : ∃ sys, doc.find? "system" = some sys ∧ SystemContents sys spec
  units : ∃ units, doc.find? "units" = some units ∧ IsArray (UnitContents convert) units spec.units
  connections : Field doc "connections" (IsArray ConnectionContents) [] spec.connections
  systemPorts : Field doc "systemPorts" SystemPortsContents {} spec.systemPorts
  adapters : Field doc "adapters" (IsArray AdapterContents) [] spec.adapters
  safety : Field doc "safety" (SafetyContents convert) (false, {}) (spec.hasSafety, spec.safety)
  missionPipelines : Field doc "missionPipelines" (IsArray PipelineContents) [] spec.missionPipelines

end

end AxonVex
