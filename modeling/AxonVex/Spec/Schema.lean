import AxonVex.Spec.PortRefs

/-!
# Spec/Schema — the schema of a system document

A JSON schema as the predicate it puts on a value, one combinator for each combination of keywords
in use; `axvSchema` is the schema file of the document format.  `object_iff` reads the schema of
an object member by member, which is how a parser meets it.
-/

namespace AxonVex

open Machinery

/-! ## Values as the library stores them -/

namespace Json

/-- A value as the library stores it: the members of an object have different keys.  Its integers
fit in `int64_t`, and a number without a fractional part is stored as an integer. -/
inductive Stored : Json → Prop
  | null : Stored .null
  | boolean (b : Bool) : Stored (.boolean b)
  | integer {z : ℤ} : -2 ^ 63 ≤ z → z < 2 ^ 63 → Stored (.integer z)
  | float {v : ℚ} : v.den ≠ 1 → Stored (.float v)
  | string (s : String) : Stored (.string s)
  | array {elements : List Json} : (∀ j ∈ elements, Stored j) → Stored (.array elements)
  | object {members : List (String × Json)} : (members.map Prod.fst).Nodup →
      (∀ m ∈ members, Stored m.2) → Stored (.object members)

variable {j v : Json} {key : String}

theorem Stored.elements (h : j.Stored) : ∀ v ∈ j.elements, v.Stored := by
  cases h with
  | array h => exact h
  | _ => exact fun v hv => absurd hv List.not_mem_nil

theorem Stored.nodup (h : j.Stored) : (j.members.map Prod.fst).Nodup := by
  cases h with
  | object hnodup _ => exact hnodup
  | _ => exact List.nodup_nil

theorem Stored.members (h : j.Stored) : ∀ m ∈ j.members, m.2.Stored := by
  cases h with
  | object _ h => exact h
  | _ => exact fun m hm => absurd hm List.not_mem_nil

/-- A member is what `find` finds under its key. -/
theorem Stored.find?_eq_some (h : j.Stored) : j.find? key = some v ↔ (key, v) ∈ j.members := by
  have hnodup := h.nodup
  unfold Json.find?
  generalize j.members = ms at hnodup
  induction ms with
  | nil => simp
  | cons m ms ih =>
    obtain ⟨k, w⟩ := m
    obtain ⟨hk, hms⟩ := List.nodup_cons.mp hnodup
    rw [List.lookup_cons, List.mem_cons]
    by_cases hkey : key = k
    · subst hkey
      have hnot : (key, v) ∉ ms := fun hmem => hk (List.mem_map.mpr ⟨_, hmem, rfl⟩)
      simp [hnot, eq_comm]
    · have hne : (key, v) ≠ (k, w) := fun heq => hkey (Prod.mk.inj heq).1
      rw [show (key == k) = false from beq_eq_false_iff_ne.mpr hkey]
      simp [hne, ih hms]

theorem Stored.find? (h : j.Stored) (hv : j.find? key = some v) : v.Stored :=
  h.members _ (h.find?_eq_some.mp hv)

theorem isString_iff : j.isString = true ↔ ∃ s, j = .string s := by
  cases j <;> simp [isString]

/-- The value of an integral number. -/
def asInteger : Json → Option ℤ
  | integer z => some z
  | float v => if v.den = 1 then some v.num else none
  | _ => none

theorem asInteger_eq_some {z : ℤ} (h : j.Stored) : j.asInteger = some z ↔ j = .integer z := by
  cases h with
  | float h => simp [asInteger, h]
  | _ => simp [asInteger]

/-- **A stored integer is read as it is.** -/
theorem Stored.getInt64 {z : ℤ} (h : (Json.integer z).Stored) : (Json.integer z).getInt64 = z := by
  cases h with
  | integer hlow hhigh =>
    change z.bmod (2 ^ 64) = z
    rw [Int.bmod_eq_of_le] <;> omega

end Json

/-! ## Schemas -/

/-- A schema, as the values that satisfy it. -/
abbrev Schema := Json → Prop

namespace Schema

/-- `{"const": s}`. -/
def const (s : String) : Schema := fun j => j = .string s

/-- `{"enum": names}`. -/
def enum (names : List String) : Schema := fun j => ∃ s ∈ names, j = .string s

/-- `{"type": "string", "minLength": n}`. -/
def string (minLength : ℕ) : Schema := fun j => ∃ s, j = .string s ∧ minLength ≤ s.length

/-- `{"type": "string", "pattern": "^[^.]+\\.[^.]+$"}`. -/
def portRef : Schema := fun j =>
  ∃ a b, (DotFree a ∧ a ≠ "") ∧ (DotFree b ∧ b ≠ "") ∧ j = .string (a ++ "." ++ b)

/-- `{"type": "integer", "minimum": n}`. -/
def integer (minimum : ℤ) : Schema := fun j => ∃ z, j.asInteger = some z ∧ minimum ≤ z

/-- `{"type": "integer", "exclusiveMinimum": n}`. -/
def integerAbove (exclusiveMinimum : ℤ) : Schema := fun j =>
  ∃ z, j.asInteger = some z ∧ exclusiveMinimum < z

/-- `{"type": "boolean"}`. -/
def boolean : Schema := fun j => ∃ b, j = .boolean b

/-- `{"type": "object"}`. -/
def anyObject : Schema := fun j => ∃ members, j = .object members

/-- `{"type": "object", "additionalProperties": values}`. -/
def objectOf (values : Schema) : Schema := fun j =>
  ∃ members, j = .object members ∧ ∀ m ∈ members, values m.2

/-- `{"type": "object", "additionalProperties": false, "required": …, "properties": …}`. -/
def object (required : List String) (properties : List (String × Schema)) : Schema := fun j =>
  ∃ members, j = .object members ∧ (∀ key ∈ required, ∃ v, (key, v) ∈ members) ∧
    ∀ m ∈ members, ∃ S, (m.1, S) ∈ properties ∧ S m.2

/-- `{"type": "array", "minItems": n, "items": …}`. -/
def array (minItems : ℕ) (items : Schema) : Schema := fun j =>
  ∃ elements, j = .array elements ∧ minItems ≤ elements.length ∧ ∀ v ∈ elements, items v

/-! ### An object member by member -/

variable {j : Json} {required : List String} {properties : List (String × Schema)} {key : String}
  {S : Schema}

/-- What a schema asks of the member under one key. -/
def Member (required : List String) (j : Json) (property : String × Schema) : Prop :=
  (property.1 ∈ required → (j.find? property.1).isSome) ∧
    ∀ v, j.find? property.1 = some v → property.2 v

/-- What a schema asks of the members one after the other. -/
def Members (required : List String) (j : Json) : List (String × Schema) → Prop
  | [] => True
  | property :: properties => Member required j property ∧ Members required j properties

theorem members_iff :
    Members required j properties ↔ ∀ property ∈ properties, Member required j property := by
  induction properties with
  | nil => simp [Members]
  | cons property properties ih => rw [Members, ih, List.forall_mem_cons]

/-- **An object satisfies its schema** when it has no other keys and each property is in order. -/
theorem object_iff (hj : j.Stored) (hkeys : (properties.map Prod.fst).Nodup)
    (hrequired : ∀ key ∈ required, key ∈ properties.map Prod.fst) :
    object required properties j ↔ j.isObject = true ∧
      (∀ m ∈ j.members, m.1 ∈ properties.map Prod.fst) ∧ Members required j properties := by
  rw [members_iff]
  constructor
  · rintro ⟨members, rfl, hreq, hmem⟩
    refine ⟨rfl, fun m hm => ?_, fun property hp => ⟨fun hr => ?_, fun v hv => ?_⟩⟩
    · obtain ⟨S, hS, -⟩ := hmem m hm
      exact List.mem_map.mpr ⟨_, hS, rfl⟩
    · obtain ⟨v, hv⟩ := hreq _ hr
      rw [hj.find?_eq_some.mpr hv]
      rfl
    · obtain ⟨S, hS, hv⟩ := hmem _ (hj.find?_eq_some.mp hv)
      have heq : property.2 = S :=
        congrArg Prod.snd (List.inj_on_of_nodup_map hkeys hp hS rfl)
      rw [heq]
      exact hv
  · rintro ⟨hobj, hmem, hprops⟩
    cases j with
    | object members =>
      refine ⟨members, rfl, fun key hr => ?_, fun m hm => ?_⟩
      · obtain ⟨property, hp, rfl⟩ := List.mem_map.mp (hrequired key hr)
        obtain ⟨v, hv⟩ := Option.isSome_iff_exists.mp ((hprops property hp).1 hr)
        exact ⟨v, hj.find?_eq_some.mp hv⟩
      · obtain ⟨property, hp, heq⟩ := List.mem_map.mp (hmem m hm)
        refine ⟨property.2, heq ▸ hp, (hprops property hp).2 m.2 ?_⟩
        rw [heq]
        exact hj.find?_eq_some.mpr hm
    | _ => exact absurd hobj (by simp [Json.isObject])

end Schema

/-! ## The document format -/

open Schema

/-- One entry of `units`, its `timing`. -/
def timingSchema : Schema :=
  object [] [("periodUs", integer 0), ("deadlineUs", integer 0), ("wcetUs", integer 0),
    ("priority", enum ["IDLE", "LOW", "NORMAL", "HIGH", "REAL_TIME", "CRITICAL"]),
    ("isRealTime", boolean)]

/-- One entry of `units`. -/
def unitSchema : Schema :=
  object ["name", "type"] [("name", string 1), ("type", string 1), ("params", anyObject),
    ("timing", timingSchema), ("downSamplingFactor", integer 1)]

/-- The member `system`. -/
def systemSchema : Schema :=
  object ["name"] [("name", string 1), ("tickRateUs", integerAbove 0),
    ("schedulingPolicy",
      enum ["ROUND_ROBIN", "PRIORITY_BASED", "EARLIEST_DEADLINE_FIRST", "RATE_MONOTONIC"]),
    ("enableRealTimeScheduling", boolean),
    ("logLevel", enum ["Debug", "Info", "Warning", "Error", "Critical"]),
    ("eventPoolSize", integerAbove 0), ("eventQueueSize", integerAbove 0),
    ("maxProcessingUnits", integerAbove 0)]

/-- One entry of `connections`. -/
def connectionSchema : Schema :=
  object ["from", "to"] [("from", portRef), ("to", portRef)]

/-- The member `systemPorts`. -/
def systemPortsSchema : Schema :=
  object [] [("inputs", objectOf portRef), ("outputs", objectOf portRef)]

/-- One entry of `adapters`. -/
def adapterSchema : Schema :=
  object ["uri", "type"] [("uri", string 1), ("type", string 1), ("config", anyObject)]

/-- One entry of `safety.policies`. -/
def policySchema : Schema := object ["type"] [("type", string 1), ("params", anyObject)]

/-- The member `safety`. -/
def safetySchema : Schema :=
  object [] [("evaluationPeriodMs", integerAbove 0), ("policies", array 0 policySchema)]

/-- One entry of the `elements` of a pipeline. -/
def elementSchema : Schema :=
  object ["name", "type"] [("name", string 0), ("type", string 0), ("params", anyObject)]

/-- One entry of the `transitions` of a pipeline. -/
def transitionSchema : Schema :=
  object ["from", "to", "on"] [("from", string 0), ("to", string 0),
    ("on", enum ["success", "failure", "abort"])]

/-- One entry of `missionPipelines`. -/
def pipelineSchema : Schema :=
  object ["name"] [("name", string 1), ("elements", array 0 elementSchema),
    ("transitions", array 0 transitionSchema)]

/-- **The schema of a system document.** -/
def axvSchema : Schema :=
  object ["specVersion", "system", "units"] [("specVersion", const "1.0"),
    ("system", systemSchema), ("units", array 1 unitSchema),
    ("connections", array 0 connectionSchema), ("systemPorts", systemPortsSchema),
    ("adapters", array 0 adapterSchema), ("safety", safetySchema),
    ("missionPipelines", array 0 pipelineSchema)]

end AxonVex
