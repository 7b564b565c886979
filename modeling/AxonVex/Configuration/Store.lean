import AxonVex.Configuration.Tree
import AxonVex.Machinery.Regex

/-!
# Configuration/Store — the configuration manager

A store keeps one document and the callbacks on its keys.  A key is a dotted path: `splitKey` drops
the empty parts, `getJsonPointer` walks the rest, with `create` making objects of what is missing.
A call returns with the store it leaves and the callbacks it has invoked (`Response`); where the
code throws, and catches, the store is the one the exception finds.
-/

namespace AxonVex

open Machinery

namespace Json

/-- `is_primitive()`. -/
def isPrimitive : Json → Bool
  | array _ => false
  | object _ => false
  | _ => true

/-- The nodes that are missing on the path become objects, and whether its end is reached:
`operator[]` throws at an array and at a primitive value. -/
def create : List String → Json → Json × Bool
  | [], j => (j, true)
  | key :: keys, j =>
    match j.find? key with
    | some node => (j.put key (create keys node).1, (create keys node).2)
    | none =>
      if j.indexable then (j.put key (create keys emptyObject).1, (create keys emptyObject).2)
      else (j, false)

/-- The member at the end of the path is erased, if it is there. -/
def removeAt : List String → Json → Json × Bool
  | [], j => (j, false)
  | [key], j => if j.contains key then (j.eraseKey key, true) else (j, false)
  | key :: keys, j =>
    match j.find? key with
    | none => (j, false)
    | some node => (j.put key (removeAt keys node).1, (removeAt keys node).2)

variable {j : Json} {p : List String}

theorem sorted_emptyObject : emptyObject.Sorted :=
  .object List.Pairwise.nil fun _ hm => absurd hm List.not_mem_nil

theorem Sorted.create (h : j.Sorted) : (j.create p).1.Sorted := by
  induction p generalizing j with
  | nil => exact h
  | cons key keys ih =>
    rw [Json.create]
    split
    next node hnode => exact h.put (ih (h.find? hnode))
    · split
      · exact h.put (ih sorted_emptyObject)
      · exact h

theorem Sorted.removeAt (h : j.Sorted) : (j.removeAt p).1.Sorted := by
  induction p generalizing j with
  | nil => exact h
  | cons key keys ih =>
    cases keys with
    | nil =>
      rw [Json.removeAt]
      split
      · exact h.eraseKey
      · exact h
    | cons next keys =>
      rw [Json.removeAt]
      split
      · exact h
      next node hnode => exact h.put (ih (h.find? hnode))
      · simp

end Json

namespace Document

/-- The nodes that are missing on the path become objects. -/
def create (d : Document) (path : List String) : Document := ⟨(d.1.create path).1, d.2.create⟩

/-- The member at the end of the path is erased. -/
def removeAt (d : Document) (path : List String) : Document := ⟨(d.1.removeAt path).1, d.2.removeAt⟩

end Document

namespace Configuration

/-- `ValidationError`. -/
structure ValidationError where
  key : String
  message : String
  expectedType : String
  actualType : String
  deriving DecidableEq

/-- One invocation of a registered callback. -/
structure Invocation where
  callback : ℕ
  key : String
  oldValue : Json
  newValue : Json

/-- `Configuration`, without its statistics and the schema's contents. -/
structure Store where
  configData : Document := .null
  /-- `schema_` is set -/
  hasSchema : Bool := false
  validationEnabled : Bool := true
  monitoringEnabled : Bool := true
  /-- id and key pattern of the callbacks, in iteration order -/
  callbacks : List (ℕ × String) := []

/-- What a call returns, and what it leaves behind. -/
structure Response where
  returned : Bool
  store : Store
  invoked : List Invocation := []

/-! ## Keys -/

/-- The parts of a dotted key that are not empty. -/
def splitKey (key : String) : List String :=
  ((key.toList.splitOn '.').filter fun part => !part.isEmpty).map String.ofList

/-- The glob with `.` for each star, anywhere in a text. -/
def regexPattern (pattern : String) : List Char :=
  ".*".toList ++ pattern.toList.map (fun c => if c = '*' then '.' else c) ++ ".*".toList

/-- `matchesPattern(key, pattern)`; a text that is no regular expression throws. -/
def matchesPattern (key pattern : String) : Bool :=
  if pattern = "*" then true
  else if '*' ∈ pattern.toList then
    match Regex.parse (regexPattern pattern) with
    | some regex => regex.fullMatch key.toList
    | none => false
  else key = pattern

/-- The key of a member below the node of `above`. -/
def fullKey (above key : String) : String := if above.isEmpty then key else above ++ "." ++ key

namespace Store

/-- `getJsonPointer(key)`. -/
def getJsonPointer (c : Store) (key : String) : Option Json :=
  if splitKey key = [] then none else c.configData.1.at? (splitKey key)

/-- `has(key)`. -/
def has (c : Store) (key : String) : Bool := (c.getJsonPointer key).isSome

/-! ## Validation -/

/-- A type check of the values under keys with this text. -/
def checkKey (text : String) (holds : Json → Bool) (message expected key : String) (value : Json) :
    List ValidationError :=
  if text.toList <:+: key.toList ∧ holds value = false then
    [⟨key, message, expected, value.typeName⟩]
  else []

/-- `validateKey(key, value)`. -/
def validateKey (c : Store) (key : String) (value : Json) : List ValidationError :=
  if c.hasSchema then
    checkKey "frequency" Json.isNumber "Frequency values must be numeric" "number" key value ++
      checkKey "enabled" Json.isBoolean "Enabled flags must be boolean" "boolean" key value
  else []

/-- `validateInternal(data)`. -/
def validateInternal (c : Store) (data : Json) : List ValidationError :=
  if c.hasSchema ∧ (data.isObject || data.isArray || data.isPrimitive) = false then
    [⟨"root", "Invalid JSON data", "object/array/primitive", "unknown"⟩]
  else []

/-! ## Callbacks -/

/-- `notifyCallbacks(key, old_value, new_value)`. -/
def notifyCallbacks (c : Store) (key : String) (oldValue newValue : Json) : List Invocation :=
  (c.callbacks.filter fun callback => matchesPattern key callback.2).map fun callback =>
    ⟨callback.1, key, oldValue, newValue⟩

/-! ## Access -/

/-- `set(key, value, validate)`; a value without a document is one whose conversion throws. -/
def set (c : Store) (key : String) (value : Option Document) (validate : Bool) : Response :=
  let oldValue := (c.getJsonPointer key).getD .null
  let keys := splitKey key
  if keys = [] then { returned := false, store := c }
  else
    let created := { c with configData := c.configData.create keys }
    if (c.configData.1.create keys).2 = false then { returned := false, store := created }
    else match value with
      | none => { returned := false, store := created }
      | some newValue =>
        if validate ∧ c.validationEnabled ∧ c.validateKey key newValue.1 ≠ [] then
          { returned := false, store := created }
        else
          { returned := true
            store := { c with configData := created.configData.writeAt keys newValue }
            invoked :=
              if c.monitoringEnabled then c.notifyCallbacks key oldValue newValue.1 else [] }

/-- `remove(key)`. -/
def remove (c : Store) (key : String) : Response :=
  { returned := (c.configData.1.removeAt (splitKey key)).2
    store := { c with configData := c.configData.removeAt (splitKey key) } }

end Store

mutual

/-- The keys at and below a member that match the pattern. -/
def traverseMember (pattern : String) : String → String × Json → List String
  | above, (key, .object ms) =>
    (if matchesPattern (fullKey above key) pattern then [fullKey above key] else []) ++
      traverse pattern (fullKey above key) ms
  | above, (key, _) =>
    if matchesPattern (fullKey above key) pattern then [fullKey above key] else []

/-- The keys below an object that match the pattern. -/
def traverse (pattern : String) : String → List (String × Json) → List String
  | _, [] => []
  | above, m :: ms => traverseMember pattern above m ++ traverse pattern above ms

end

/-- `getKeys(pattern)`; `key()` throws at the elements of another value than an object. -/
def Store.getKeys (c : Store) (pattern : String) : Option (List String) :=
  match c.configData.1 with
  | .object ms => some (traverse pattern "" ms)
  | .null => some []
  | .array [] => some []
  | _ => none

end Configuration

end AxonVex
