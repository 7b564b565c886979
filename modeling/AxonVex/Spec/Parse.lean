import AxonVex.Machinery.Reported
import AxonVex.Spec.SystemSpec

/-!
# Spec/Parse — from a document to a `SystemSpec`

`SystemSpec.parse` walks the sections of a document in order and reports every error it finds; it
yields a spec only when there is none.  The field readers come first: each of them reads one member
of an object, reports at most one error, and falls back to the default of the field.
-/

namespace AxonVex

open Machinery Machinery.Reported

/-- A parsed value, with the errors found. -/
abbrev Parsed := Reported SpecError

/-! ## Fields -/

/-- A value kept as it is, with one error. -/
def refuse {α : Type} (a : α) (path : String) (code : SpecErrorCode) (message : String) :
    Parsed α := ⟨a, [⟨path, code, message⟩]⟩

@[simp] theorem clean_refuse {α : Type} {a : α} {path : String} {code : SpecErrorCode}
    {message : String} : ¬ (refuse a path code message).Clean := List.cons_ne_nil _ _

@[simp] theorem value_refuse {α : Type} {a : α} {path : String} {code : SpecErrorCode}
    {message : String} : (refuse a path code message).value = a := rfl

/-- `checkUnknownKeys(obj, allowed, path, errors)`. -/
def checkUnknownKeys (obj : Json) (allowed : List String) (path : String) : Parsed Unit :=
  forM obj.members fun entry =>
    require (entry.1 ∈ allowed)
      ⟨path ++ "." ++ entry.1, .unknownKey, "unknown key '" ++ entry.1 ++ "'"⟩

section Fields

variable {α : Type} (obj : Json) (key path : String)

/-- A required non-empty string; the default is empty. -/
def requiredString (missing invalid : String) : Parsed String :=
  match obj.find? key with
  | none => refuse "" path .missingField missing
  | some v =>
    if v.isString && v.getString != "" then pure v.getString
    else refuse "" path .invalidType invalid

/-- A required string that may be empty, with one error for both ways to miss it. -/
def plainString (missing : String) : Parsed String :=
  match obj.find? key with
  | none => refuse "" path .missingField missing
  | some v => if v.isString then pure v.getString else refuse "" path .missingField missing

/-- An optional integer that is at least `lower` as an `int64_t`, stored through `convert`. -/
def integerField (lower : ℤ) (requirement : String) (convert : ℤ → α) (fallback : α) : Parsed α :=
  match obj.find? key with
  | none => pure fallback
  | some v =>
    if v.isNumberInteger && lower ≤ v.getInt64 then pure (convert v.getInt64)
    else refuse fallback path .paramConstraint (key ++ " must be " ++ requirement)

/-- An optional boolean. -/
def booleanField (fallback : Bool) : Parsed Bool :=
  match obj.find? key with
  | none => pure fallback
  | some v =>
    if v.isBoolean then pure v.getBool
    else refuse fallback path .invalidType (key ++ " must be a boolean")

/-- An optional name of an enumerator. -/
def enumField (decode : String → Option α) (fallback : α) : Parsed α :=
  match obj.find? key with
  | none => pure fallback
  | some v =>
    if !v.isString then refuse fallback path .invalidType (key ++ " must be a string")
    else match decode v.getString with
      | some a => pure a
      | none =>
        refuse fallback path .invalidEnumValue ("unknown " ++ key ++ " '" ++ v.getString ++ "'")

/-- An optional object; the default is empty. -/
def objectField : Parsed Json :=
  match obj.find? key with
  | none => pure .emptyObject
  | some v =>
    if v.isObject then pure v
    else refuse .emptyObject path .invalidType (key ++ " must be an object")

/-- `checkRef(key, target)`: a required reference `unit.port`. -/
def checkRef : Parsed (Option String) :=
  match obj.find? key with
  | none => refuse none path .missingField (key ++ " is required")
  | some v =>
    if !v.isString then refuse none path .invalidType (key ++ " must be a string")
    else if !isValidPortRef v.getString then
      refuse none path .badReference (key ++ " must be a 'unit.port' reference")
    else pure (some v.getString)

end Fields

/-- The path of an entry of an array. -/
def entryPath (path : String) (i : ℕ) : String := path ++ "[" ++ toString i ++ "]"

/-- The entries of an array, in order; an entry that is not an object is reported and skipped. -/
def parseEntries {α : Type} (entries : List Json) (path kind : String)
    (parseEntry : String → Json → Parsed (List α)) : Parsed (List α) :=
  entries.zipIdx.foldlM (fun parsed entry =>
    if !entry.1.isObject then
      refuse parsed (entryPath path entry.2) .invalidType (kind ++ " entry must be an object")
    else do
      let more ← parseEntry (entryPath path entry.2) entry.1
      pure (parsed ++ more)) []

/-! ## Enumerators -/

/-- `parseSchedulingPolicy(s)`: `CUSTOM` is not accepted. -/
def parseSchedulingPolicy (s : String) : Option SchedulingPolicy :=
  [("ROUND_ROBIN", .roundRobin), ("PRIORITY_BASED", .priorityBased),
    ("EARLIEST_DEADLINE_FIRST", .earliestDeadlineFirst),
    ("RATE_MONOTONIC", SchedulingPolicy.rateMonotonic)].lookup s

/-- `parseLogLevel(s)`. -/
def parseLogLevel (s : String) : Option LogLevel :=
  [("Debug", .debug), ("Info", .info), ("Warning", .warning), ("Error", .error),
    ("Critical", LogLevel.critical)].lookup s

/-- `parseSchedulerPriority(s)`. -/
def parseSchedulerPriority (s : String) : Option SchedulerPriority :=
  [("IDLE", .idle), ("LOW", .low), ("NORMAL", .normal), ("HIGH", .high), ("REAL_TIME", .realTime),
    ("CRITICAL", SchedulerPriority.critical)].lookup s

/-! ## The sections -/

/-- `parseSystemSection(doc, spec, errors)`. -/
def parseSystemSection (doc : Json) (spec : SystemSpec) : Parsed SystemSpec :=
  match doc.find? "system" with
  | none => refuse spec "$.system" .missingField "system section is required"
  | some sys =>
    if !sys.isObject then refuse spec "$.system" .invalidType "system must be an object"
    else do
      checkUnknownKeys sys ["name", "tickRateUs", "schedulingPolicy", "enableRealTimeScheduling",
        "logLevel", "eventPoolSize", "eventQueueSize", "maxProcessingUnits"] "$.system"
      let systemName ← requiredString sys "name" "$.system.name" "system.name is required"
        "system.name must be a non-empty string"
      let tickRate ← integerField sys "tickRateUs" "$.system.tickRateUs" 1 "a positive integer" id
        spec.tickRate
      let schedulingPolicy ← enumField sys "schedulingPolicy" "$.system.schedulingPolicy"
        parseSchedulingPolicy spec.schedulingPolicy
      let enableRealTimeScheduling ← booleanField sys "enableRealTimeScheduling"
        "$.system.enableRealTimeScheduling" spec.enableRealTimeScheduling
      let logLevel ← enumField sys "logLevel" "$.system.logLevel" parseLogLevel spec.logLevel
      let eventPoolSize ← parsePositiveSizeField sys "eventPoolSize" spec.eventPoolSize
      let eventQueueSize ← parsePositiveSizeField sys "eventQueueSize" spec.eventQueueSize
      let maxProcessingUnits ←
        parsePositiveSizeField sys "maxProcessingUnits" spec.maxProcessingUnits
      pure { spec with
        systemName, tickRate, schedulingPolicy, enableRealTimeScheduling, logLevel, eventPoolSize
        eventQueueSize, maxProcessingUnits }
where
  /-- `parsePositiveSizeField(key, target)` -/
  parsePositiveSizeField (sys : Json) (key : String) (target : ℕ) : Parsed ℕ :=
    integerField sys key ("$.system." ++ key) 1 "a positive integer" Int.toNat target

/-- The units parsed so far, and where each name was first seen. -/
structure ParsedUnits where
  units : List SpecUnit := []
  seenNames : Table String ℕ := ∅

/-- The `name` of the unit at index `i`. -/
def parseUnitName (seenNames : Table String ℕ) (i : ℕ) (base : String) (u : Json) :
    Parsed (String × Table String ℕ) := do
  let name ← requiredString u "name" (base ++ ".name") "unit name is required"
    "unit name must be a non-empty string"
  if name = "" then pure (name, seenNames)
  else match seenNames.lookup name with
    | some seen =>
      refuse (name, seenNames) (base ++ ".name") .dupUnitName
        ("duplicate unit name '" ++ name ++ "' (first seen at units[" ++ toString seen ++ "])")
    | none => pure (name, seenNames.insert name i)

/-- The `timing` of a unit, and whether there is one. -/
def parseTiming (base : String) (u : Json) : Parsed (Bool × TimingConstraints) :=
  match u.find? "timing" with
  | none => pure (false, {})
  | some t =>
    if !t.isObject then
      refuse (false, {}) (base ++ ".timing") .invalidType "timing must be an object"
    else do
      checkUnknownKeys t ["periodUs", "deadlineUs", "wcetUs", "priority", "isRealTime"]
        (base ++ ".timing")
      let period ← parseDurationField t "periodUs"
      let deadline ← parseDurationField t "deadlineUs"
      let wcet ← parseDurationField t "wcetUs"
      let priority ← enumField t "priority" (base ++ ".timing.priority") parseSchedulerPriority
        .normal
      let isRealTime ← booleanField t "isRealTime" (base ++ ".timing.isRealTime") false
      pure (true, { period, deadline, wcet, priority, isRealTime })
where
  /-- `parseDurationField(key, target)` -/
  parseDurationField (t : Json) (key : String) : Parsed Microseconds :=
    integerField t key (base ++ ".timing." ++ key) 0 "a non-negative integer" id 0

/-- The unit at index `i`. -/
def parseUnit (parsed : ParsedUnits) (i : ℕ) (u : Json) : Parsed ParsedUnits :=
  let base := entryPath "$.units" i
  if !u.isObject then refuse parsed base .invalidType "unit entry must be an object"
  else do
    checkUnknownKeys u ["name", "type", "params", "timing", "downSamplingFactor"] base
    let (name, seenNames) ← parseUnitName parsed.seenNames i base u
    let type ← requiredString u "type" (base ++ ".type") "unit type is required"
      "unit type must be a non-empty string"
    let params ← objectField u "params" (base ++ ".params")
    let (hasTiming, timing) ← parseTiming base u
    -- checked as an `int64_t`, then stored through a cast to `int`
    let downSamplingFactor ← integerField u "downSamplingFactor" (base ++ ".downSamplingFactor") 1
      "an integer >= 1" (wrapSigned 32) 1
    pure ⟨parsed.units ++ [{ name, type, params, hasTiming, timing, downSamplingFactor }],
      seenNames⟩

/-- `parseUnitsSection(doc, spec, errors)`. -/
def parseUnitsSection (doc : Json) (spec : SystemSpec) : Parsed SystemSpec :=
  match doc.find? "units" with
  | none => refuse spec "$.units" .missingField "units is required"
  | some units =>
    if !units.isArray || units.elements.isEmpty then
      refuse spec "$.units" .paramConstraint "units must be a non-empty array"
    else do
      let parsed ← units.elements.zipIdx.foldlM (fun parsed u => parseUnit parsed u.2 u.1) {}
      pure { spec with units := spec.units ++ parsed.units }

/-- One entry of `connections`; it counts when both references are good. -/
def parseConnection (base : String) (c : Json) : Parsed (List SpecConnection) := do
  checkUnknownKeys c ["from", "to"] base
  let source ← checkRef c "from" (base ++ ".from")
  let target ← checkRef c "to" (base ++ ".to")
  pure (match source, target with
    | some source, some target => [{ source, target }]
    | _, _ => [])

/-- `parseConnectionsSection(doc, spec, errors)`. -/
def parseConnectionsSection (doc : Json) (spec : SystemSpec) : Parsed SystemSpec :=
  match doc.find? "connections" with
  | none => pure spec
  | some conns =>
    if !conns.isArray then
      refuse spec "$.connections" .invalidType "connections must be an array"
    else do
      let connections ←
        parseEntries conns.elements "$.connections" "connection" parseConnection
      pure { spec with connections := spec.connections ++ connections }

/-- One entry of a system port map. -/
def parsePortEntry (base : String) (target : Table String String) (entry : String × Json) :
    Parsed (Table String String) :=
  if !entry.2.isString then
    refuse target (base ++ "." ++ entry.1) .invalidType "must map to a string"
  else if !isValidPortRef entry.2.getString then
    refuse target (base ++ "." ++ entry.1) .badReference "must map to a 'unit.port' reference"
  else pure (target.insert entry.1 entry.2.getString)

/-- `parseMap(key, target)`: the names are taken as they come, the empty one too. -/
def parseMap (sp : Json) (key : String) (target : Table String String) :
    Parsed (Table String String) :=
  match sp.find? key with
  | none => pure target
  | some m =>
    if !m.isObject then
      refuse target ("$.systemPorts." ++ key) .invalidType (key ++ " must be an object")
    else m.members.foldlM (parsePortEntry ("$.systemPorts." ++ key)) target

/-- `parseSystemPortsSection(doc, spec, errors)`. -/
def parseSystemPortsSection (doc : Json) (spec : SystemSpec) : Parsed SystemSpec :=
  match doc.find? "systemPorts" with
  | none => pure spec
  | some sp =>
    if !sp.isObject then
      refuse spec "$.systemPorts" .invalidType "systemPorts must be an object"
    else do
      checkUnknownKeys sp ["inputs", "outputs"] "$.systemPorts"
      let inputs ← parseMap sp "inputs" spec.systemPorts.inputs
      let outputs ← parseMap sp "outputs" spec.systemPorts.outputs
      pure { spec with systemPorts := { inputs, outputs } }

/-- One entry of `adapters`. -/
def parseAdapter (base : String) (a : Json) : Parsed (List SpecAdapter) := do
  checkUnknownKeys a ["uri", "type", "config"] base
  let uri ← requiredString a "uri" (base ++ ".uri")
    "uri is required and must be a non-empty string" "uri is required and must be a non-empty string"
  let type ← requiredString a "type" (base ++ ".type")
    "type is required and must be a non-empty string"
    "type is required and must be a non-empty string"
  let config ← objectField a "config" (base ++ ".config")
  pure [{ uri, type, config }]

/-- `parseAdaptersSection(doc, spec, errors)`. -/
def parseAdaptersSection (doc : Json) (spec : SystemSpec) : Parsed SystemSpec :=
  match doc.find? "adapters" with
  | none => pure spec
  | some arr =>
    if !arr.isArray then refuse spec "$.adapters" .invalidType "adapters must be an array"
    else do
      let adapters ← parseEntries arr.elements "$.adapters" "adapter" parseAdapter
      pure { spec with adapters := spec.adapters ++ adapters }

/-- One entry of `safety.policies`. -/
def parsePolicy (base : String) (p : Json) : Parsed (List SpecSafetyPolicy) := do
  checkUnknownKeys p ["type", "params"] base
  let type ← requiredString p "type" (base ++ ".type")
    "policy type is required and must be a non-empty string"
    "policy type is required and must be a non-empty string"
  let params ← objectField p "params" (base ++ ".params")
  pure [{ type, params }]

/-- `parseSafetySection(doc, spec, errors)`. -/
def parseSafetySection (doc : Json) (spec : SystemSpec) : Parsed SystemSpec :=
  match doc.find? "safety" with
  | none => pure spec
  | some s =>
    if !s.isObject then refuse spec "$.safety" .invalidType "safety must be an object"
    else do
      checkUnknownKeys s ["evaluationPeriodMs", "policies"] "$.safety"
      let evaluationPeriodMs ← integerField s "evaluationPeriodMs" "$.safety.evaluationPeriodMs" 1
        "a positive integer" (wrapSigned 32) spec.safety.evaluationPeriodMs
      let policies ← parsePolicies s
      pure { spec with
        hasSafety := true
        safety := { evaluationPeriodMs, policies := spec.safety.policies ++ policies } }
where
  /-- the member `policies` -/
  parsePolicies (s : Json) : Parsed (List SpecSafetyPolicy) :=
    match s.find? "policies" with
    | none => pure []
    | some pols =>
      if !pols.isArray then
        refuse [] "$.safety.policies" .invalidType "policies must be an array"
      else parseEntries pols.elements "$.safety.policies" "policy" parsePolicy

/-- One entry of `elements`. -/
def parseElement (base : String) (e : Json) : Parsed (List SpecMissionElement) := do
  checkUnknownKeys e ["name", "type", "params"] base
  let name ← plainString e "name" (base ++ ".name") "element name is required"
  let type ← plainString e "type" (base ++ ".type") "element type is required"
  let params ← objectField e "params" (base ++ ".params")
  pure [{ name, type, params }]

/-- One entry of `transitions`. -/
def parseMissionTransition (base : String) (t : Json) : Parsed (List SpecMissionTransition) := do
  checkUnknownKeys t ["from", "to", "on"] base
  let source ← plainString t "from" (base ++ ".from") "transition 'from' is required"
  let target ← plainString t "to" (base ++ ".to") "transition 'to' is required"
  let on ← parseOn t
  pure [{ source, target, on }]
where
  /-- the member `on` -/
  parseOn (t : Json) : Parsed String :=
    match t.find? "on" with
    | none => refuse "" (base ++ ".on") .missingField "transition 'on' is required"
    | some v =>
      if !v.isString then
        refuse "" (base ++ ".on") .missingField "transition 'on' is required"
      else if v.getString ∈ ["success", "failure", "abort"] then pure v.getString
      else refuse "" (base ++ ".on") .invalidEnumValue "'on' must be one of success|failure|abort"

/-- An optional array of a pipeline. -/
def parsePipelineArray {α : Type} (mp : Json) (base key kind : String)
    (parseEntry : String → Json → Parsed (List α)) : Parsed (List α) :=
  match mp.find? key with
  | none => pure []
  | some xs =>
    if !xs.isArray then refuse [] (base ++ "." ++ key) .invalidType (key ++ " must be an array")
    else parseEntries xs.elements (base ++ "." ++ key) kind parseEntry

/-- One entry of `missionPipelines`. -/
def parsePipeline (base : String) (mp : Json) : Parsed (List SpecMissionPipeline) := do
  checkUnknownKeys mp ["name", "elements", "transitions"] base
  let name ← requiredString mp "name" (base ++ ".name")
    "missionPipeline name is required and must be a non-empty string"
    "missionPipeline name is required and must be a non-empty string"
  let elements ← parsePipelineArray mp base "elements" "element" parseElement
  let transitions ← parsePipelineArray mp base "transitions" "transition" parseMissionTransition
  pure [{ name, elements, transitions }]

/-- `parseMissionPipelinesSection(doc, spec, errors)`: the shape only. -/
def parseMissionPipelinesSection (doc : Json) (spec : SystemSpec) : Parsed SystemSpec :=
  match doc.find? "missionPipelines" with
  | none => pure spec
  | some arr =>
    if !arr.isArray then
      refuse spec "$.missionPipelines" .invalidType "missionPipelines must be an array"
    else do
      let missionPipelines ←
        parseEntries arr.elements "$.missionPipelines" "missionPipeline" parsePipeline
      pure { spec with missionPipelines := spec.missionPipelines ++ missionPipelines }

/-! ## The document -/

/-- The member `specVersion`. -/
def parseSpecVersion (doc : Json) (spec : SystemSpec) : Parsed SystemSpec :=
  match doc.find? "specVersion" with
  | none => refuse spec "$.specVersion" .missingField "specVersion is required"
  | some v =>
    if !v.isString then
      refuse spec "$.specVersion" .invalidType "specVersion must be a string"
    else if v.getString = "1.0" then pure { spec with specVersion := v.getString }
    else refuse { spec with specVersion := v.getString } "$.specVersion" .specVersionUnsupported
      ("unsupported specVersion '" ++ v.getString ++ "'; this build understands '1.0'")

/-- The body of `SystemSpec::parse`, on an object. -/
def parseDocument (doc : Json) : Parsed SystemSpec := do
  checkUnknownKeys doc ["specVersion", "system", "units", "connections", "systemPorts", "adapters",
    "safety", "missionPipelines"] "$"
  let spec ← parseSpecVersion doc {}
  let spec ← parseSystemSection doc spec
  let spec ← parseUnitsSection doc spec
  let spec ← parseConnectionsSection doc spec
  let spec ← parseSystemPortsSection doc spec
  let spec ← parseAdaptersSection doc spec
  let spec ← parseSafetySection doc spec
  parseMissionPipelinesSection doc spec

/-- `SystemSpec::parse(doc, errors)`: the spec, if there is no error, and the errors with the new
ones appended. -/
def SystemSpec.parse (doc : Json) (errors : List SpecError) : Option SystemSpec × List SpecError :=
  if !doc.isObject then
    (none, errors ++ [⟨"$", .invalidType, "document root must be a JSON object"⟩])
  else
    (if (parseDocument doc).errors.isEmpty then some (parseDocument doc).value else none,
      errors ++ (parseDocument doc).errors)

end AxonVex
