import AxonVex.Configuration.Store

/-!
# Configuration/Access — what a key reads after a write or a removal

The three traversals of a path agree: `create` leaves the tree as it is, unless the node is missing
and every node on the way may be indexed, and then it writes an empty object (`create_eq`);
`removeAt` erases what `at?` finds and nothing apart from it.

`set` creates the path before it converts and checks the value, so a refused value at a missing key
leaves the empty objects behind, and no other failure leaves a trace
(`Store.set_keeps_tree_iff`).
-/

namespace AxonVex

namespace Json

variable {j v : Json} {p q : List String}

/-! ## Creation -/

/-- Every node that is on the path may be indexed. -/
def creatable : List String → Json → Bool
  | [], _ => true
  | key :: keys, j =>
    match j.find? key with
    | some node => creatable keys node
    | none => j.indexable

/-- Below a fresh node every path can be walked. -/
theorem create_emptyObject : emptyObject.create p = (null.writeAt p emptyObject, true) := by
  induction p with
  | nil => rfl
  | cons key keys ih =>
    rw [create, writeAt]
    simp only [find?, members, emptyObject, List.lookup_nil, indexable] at ih ⊢
    rw [ih]
    rfl

/-- **Creation writes an empty object at a missing node, or nothing.** -/
theorem create_eq (h : j.Sorted) :
    j.create p =
      if j.at? p = none ∧ j.creatable p then (j.writeAt p emptyObject, true)
      else (j, (j.at? p).isSome) := by
  induction p generalizing j with
  | nil => rfl
  | cons key keys ih =>
    rw [create, writeAt, at?_cons]
    cases hnode : j.find? key with
    | some node =>
      have hcreatable : j.creatable (key :: keys) = node.creatable keys := by
        rw [creatable, hnode]
      simp only [ih (h.find? hnode), hcreatable, Option.bind_some, Option.getD_some]
      split_ifs
      · rfl
      · rw [h.put_of_find? hnode]
    | none =>
      have hcreatable : j.creatable (key :: keys) = j.indexable := by
        rw [creatable, hnode]
      simp only [create_emptyObject, hcreatable, Option.bind_none, Option.getD_none]
      split_ifs with hindex hnone hnone
      · rfl
      · exact absurd ⟨trivial, hindex⟩ hnone
      · exact absurd hnone.2 hindex
      · rfl

theorem at?_create_of_apart (h : j.Sorted) (hpq : Apart p q) :
    (j.create p).1.at? q = j.at? q := by
  rw [create_eq h]
  split
  · exact at?_writeAt_of_apart hpq
  · rfl

/-! ## Removal -/

theorem removeAt_cons_of_ne_nil {key : String} (hp : p ≠ []) :
    j.removeAt (key :: p) =
      (j.find? key).elim (j, false) fun node =>
        (j.put key (node.removeAt p).1, (node.removeAt p).2) := by
  cases p with
  | nil => exact absurd rfl hp
  | cons next keys =>
    rw [removeAt]
    · cases j.find? key <;> rfl
    · simp

/-- **The node is erased if it is there.** -/
theorem removeAt_snd (hp : p ≠ []) : (j.removeAt p).2 = (j.at? p).isSome := by
  induction p generalizing j with
  | nil => exact absurd rfl hp
  | cons key keys ih =>
    by_cases hkeys : keys = []
    · subst hkeys
      rw [removeAt, at?_cons]
      by_cases hkey : j.contains key = true
      · obtain ⟨node, hnode⟩ := find?_of_contains hkey
        rw [if_pos hkey, hnode]
        rfl
      · rw [if_neg hkey, find?_of_not_contains hkey]
        rfl
    · rw [removeAt_cons_of_ne_nil hkeys, at?_cons]
      cases hnode : j.find? key with
      | none => rfl
      | some node => exact ih hkeys

theorem at?_removeAt_self (hp : p ≠ []) : (j.removeAt p).1.at? p = none := by
  induction p generalizing j with
  | nil => exact absurd rfl hp
  | cons key keys ih =>
    by_cases hkeys : keys = []
    · subst hkeys
      rw [removeAt, at?_cons]
      by_cases hkey : j.contains key = true
      · rw [if_pos hkey, find?_eraseKey_self]
        rfl
      · rw [if_neg hkey, find?_of_not_contains hkey]
        rfl
    · rw [removeAt_cons_of_ne_nil hkeys, at?_cons]
      cases hnode : j.find? key with
      | none =>
        change (j.find? key).bind (at? keys) = none
        rw [hnode]
        rfl
      | some node =>
        change ((j.put key (node.removeAt keys).1).find? key).bind (at? keys) = none
        rw [find?_put_self]
        exact ih hkeys

theorem at?_removeAt_of_apart (h : Apart p q) : (j.removeAt p).1.at? q = j.at? q := by
  induction p generalizing j q with
  | nil => exact absurd h not_apart_nil
  | cons key keys ih =>
    cases q with
    | nil => exact absurd h.symm not_apart_nil
    | cons l q =>
      by_cases hkeys : keys = []
      · subst hkeys
        have hne : l ≠ key := by
          rintro rfl
          exact not_apart_nil (apart_cons_iff.mp h rfl)
        rw [removeAt]
        split
        · rw [at?_cons, at?_cons, find?_eraseKey_of_ne hne]
        · rfl
      · rw [removeAt_cons_of_ne_nil hkeys]
        cases hnode : j.find? key with
        | none => rfl
        | some node =>
          change ((j.put key (node.removeAt keys).1).find? l).bind (at? q) = (j.find? l).bind (at? q)
          by_cases hkl : key = l
          · subst hkl
            rw [find?_put_self, hnode]
            exact ih (apart_cons_iff.mp h rfl)
          · rw [find?_put_of_ne (Ne.symm hkl)]

end Json

namespace Configuration

variable {c : Store} {key : String} {value : Option Document} {validate : Bool}

namespace Store

/-- The value is refused: it cannot be converted, or does not pass the check of its key. -/
def Refuses (c : Store) (key : String) (value : Option Document) (validate : Bool) : Prop :=
  value.all fun v => validate && c.validationEnabled && !(c.validateKey key v.1).isEmpty

instance : Decidable (c.Refuses key value validate) := inferInstanceAs (Decidable (_ = true))

/-- The key is missing, and every node on its path may be indexed. -/
def Creates (c : Store) (key : String) : Prop :=
  c.configData.1.at? (splitKey key) = none ∧ c.configData.1.creatable (splitKey key) = true

/-! ## What `set` does -/

theorem set_of_nil (h : splitKey key = []) :
    c.set key value validate = { returned := false, store := c } := by
  rw [set, if_pos h]

theorem set_of_create_eq_false (h : (c.configData.1.create (splitKey key)).2 = false) :
    c.set key value validate =
      { returned := false, store := { c with configData := c.configData.create (splitKey key) } } := by
  have hne : splitKey key ≠ [] := by
    intro hnil
    rw [hnil] at h
    exact absurd h (by simp [Json.create])
  rw [set, if_neg hne, if_pos h]

theorem set_of_refuses (hne : splitKey key ≠ []) (h : c.Refuses key value validate) :
    c.set key value validate =
      { returned := false, store := { c with configData := c.configData.create (splitKey key) } } := by
  by_cases hcreate : (c.configData.1.create (splitKey key)).2 = false
  · exact set_of_create_eq_false hcreate
  · rw [set, if_neg hne, if_neg hcreate]
    cases value with
    | none => rfl
    | some v =>
      have hchecked : validate ∧ c.validationEnabled ∧ c.validateKey key v.1 ≠ [] := by
        simpa [Refuses, and_assoc] using h
      exact if_pos hchecked

/-- A value that is not refused is written. -/
theorem set_of_not_refuses (hne : splitKey key ≠ [])
    (hcreate : (c.configData.1.create (splitKey key)).2 = true)
    (h : ¬ c.Refuses key value validate) :
    ∃ v, value = some v ∧
      c.set key value validate =
        { returned := true
          store :=
            { c with
              configData := (c.configData.create (splitKey key)).writeAt (splitKey key) v }
          invoked :=
            if c.monitoringEnabled then
              c.notifyCallbacks key ((c.getJsonPointer key).getD .null) v.1
            else [] } := by
  cases value with
  | none => exact absurd rfl h
  | some v =>
    have hpassed : ¬ (validate ∧ c.validationEnabled ∧ c.validateKey key v.1 ≠ []) := by
      simpa [Refuses, and_assoc] using h
    refine ⟨v, rfl, ?_⟩
    rw [set, if_neg hne, if_neg (by rw [hcreate]; exact Bool.noConfusion)]
    exact if_neg hpassed

/-- What `set` leaves, if it fails. -/
theorem set_of_not_returned (h : (c.set key value validate).returned = false) :
    (c.set key value validate).invoked = [] ∧
      ((c.set key value validate).store.configData = c.configData ∨
        c.Refuses key value validate ∧
          (c.set key value validate).store.configData = c.configData.create (splitKey key)) := by
  by_cases hne : splitKey key = []
  · rw [set_of_nil hne]
    exact ⟨rfl, .inl rfl⟩
  by_cases hrefuses : c.Refuses key value validate
  · rw [set_of_refuses hne hrefuses]
    exact ⟨rfl, .inr ⟨hrefuses, rfl⟩⟩
  by_cases hcreate : (c.configData.1.create (splitKey key)).2 = true
  · obtain ⟨v, -, hset⟩ := set_of_not_refuses hne hcreate hrefuses
    rw [hset] at h
    cases h
  · have hfalse : (c.configData.1.create (splitKey key)).2 = false := by simpa using hcreate
    rw [set_of_create_eq_false hfalse]
    refine ⟨rfl, .inl (Subtype.ext ?_)⟩
    change (c.configData.1.create (splitKey key)).1 = c.configData.1
    rw [Json.create_eq c.configData.2] at hfalse ⊢
    split_ifs at hfalse ⊢
    rfl

/-- What `set` leaves, if it succeeds. -/
theorem set_of_returned (h : (c.set key value validate).returned = true) :
    splitKey key ≠ [] ∧ ∃ v, value = some v ∧
      (c.set key value validate).store.configData =
        (c.configData.create (splitKey key)).writeAt (splitKey key) v := by
  have hne : splitKey key ≠ [] := by
    intro hnil
    rw [set_of_nil hnil] at h
    cases h
  have hcreate : (c.configData.1.create (splitKey key)).2 = true := by
    by_contra hfalse
    rw [set_of_create_eq_false (by simpa using hfalse)] at h
    cases h
  have hpassed : ¬ c.Refuses key value validate := by
    intro hrefuses
    rw [set_of_refuses hne hrefuses] at h
    cases h
  obtain ⟨v, hv, hset⟩ := set_of_not_refuses hne hcreate hpassed
  exact ⟨hne, v, hv, by rw [hset]⟩

/-- **A failing `set` leaves the tree and the callbacks alone, unless it refuses a value at a key
that it has just created.** -/
theorem set_keeps_tree_iff (c : Store) (key : String) (value : Option Document)
    (validate : Bool) :
    ((c.set key value validate).returned = false →
        (c.set key value validate).store.configData = c.configData ∧
          (c.set key value validate).invoked = []) ↔
      ¬ (c.Refuses key value validate ∧ c.Creates key) := by
  constructor
  · rintro hkeeps ⟨hrefuses, hmissing, hcreatable⟩
    have hne : splitKey key ≠ [] := by
      intro hnil
      rw [hnil] at hmissing
      exact absurd hmissing (by simp [Json.at?_nil])
    rw [set_of_refuses hne hrefuses] at hkeeps
    have htree := congrArg Subtype.val (hkeeps rfl).1
    change (c.configData.1.create (splitKey key)).1 = c.configData.1 at htree
    rw [Json.create_eq c.configData.2, if_pos ⟨hmissing, hcreatable⟩] at htree
    have hthere := Json.at?_writeAt_self (j := c.configData.1) (p := splitKey key)
      (v := Json.emptyObject)
    change c.configData.1.writeAt (splitKey key) Json.emptyObject = c.configData.1 at htree
    rw [htree, hmissing] at hthere
    exact absurd hthere (by simp)
  · intro hnot hreturned
    obtain ⟨hinvoked, htree | ⟨hrefuses, htree⟩⟩ := set_of_not_returned hreturned
    · exact ⟨htree, hinvoked⟩
    · refine ⟨htree.trans (Subtype.ext ?_), hinvoked⟩
      change (c.configData.1.create (splitKey key)).1 = c.configData.1
      rw [Json.create_eq c.configData.2]
      exact congrArg Prod.fst (if_neg fun h => hnot ⟨hrefuses, h⟩)

/-- A frequency that is no number is refused, and its key is there afterwards. -/
theorem set_leaves_created_key :
    let c : Store := { hasSchema := true }
    let response := c.set "motor.frequency" (some ⟨.string "fast", .string "fast"⟩) true
    response.returned = false ∧ c.has "motor.frequency" = false ∧
      response.store.has "motor.frequency" = true ∧
      response.store.configData ≠ c.configData := by
  have hreturned : (({ hasSchema := true } : Store).set "motor.frequency"
      (some ⟨.string "fast", .string "fast"⟩) true).returned = false := by decide +kernel
  have hbefore : ({ hasSchema := true } : Store).has "motor.frequency" = false := by decide +kernel
  have hafter : (({ hasSchema := true } : Store).set "motor.frequency"
      (some ⟨.string "fast", .string "fast"⟩) true).store.has "motor.frequency" = true := by
    decide +kernel
  refine ⟨hreturned, hbefore, hafter, fun hsame => ?_⟩
  have hhas : (({ hasSchema := true } : Store).set "motor.frequency"
      (some ⟨.string "fast", .string "fast"⟩) true).store.has "motor.frequency" =
      ({ hasSchema := true } : Store).has "motor.frequency" := by
    rw [has, has, getJsonPointer, getJsonPointer, hsame]
  rw [hbefore, hafter] at hhas
  exact absurd hhas (by simp)

/-! ## What is read afterwards -/

/-- What a write of `value` and a removal at the key do to reads. -/
structure ReadsAfter (c : Store) (key : String) (value : Option Document) (validate : Bool) :
    Prop where
  set_self : (c.set key value validate).returned = true →
    ∃ v, value = some v ∧ (c.set key value validate).store.getJsonPointer key = some v.1 ∧
      (c.set key value validate).store.has key = true
  remove_self : (c.remove key).returned = true → (c.remove key).store.has key = false
  remove_returned : (c.remove key).returned = c.has key
  set_apart (other : String) : Json.Apart (splitKey key) (splitKey other) →
    (c.set key value validate).store.getJsonPointer other = c.getJsonPointer other ∧
      (c.set key value validate).store.has other = c.has other
  remove_apart (other : String) : Json.Apart (splitKey key) (splitKey other) →
    (c.remove key).store.getJsonPointer other = c.getJsonPointer other ∧
      (c.remove key).store.has other = c.has other

theorem remove_returned (c : Store) (key : String) : (c.remove key).returned = c.has key := by
  rw [has, getJsonPointer, remove]
  by_cases hnil : splitKey key = []
  · rw [if_pos hnil, hnil]
    rfl
  · rw [if_neg hnil]
    exact Json.removeAt_snd hnil

/-- Reads depend on the tree. -/
theorem reads_congr {c d : Store} {other : String}
    (h : d.configData.1.at? (splitKey other) = c.configData.1.at? (splitKey other)) :
    d.getJsonPointer other = c.getJsonPointer other ∧ d.has other = c.has other := by
  have hpointer : d.getJsonPointer other = c.getJsonPointer other := by
    rw [getJsonPointer, getJsonPointer, h]
  exact ⟨hpointer, by rw [has, has, hpointer]⟩

theorem at?_set_of_apart {q : List String} (h : Json.Apart (splitKey key) q) :
    (c.set key value validate).store.configData.1.at? q = c.configData.1.at? q := by
  have hcreate := Json.at?_create_of_apart c.configData.2 h
  cases hreturned : (c.set key value validate).returned with
  | false =>
    obtain ⟨-, htree | ⟨-, htree⟩⟩ := set_of_not_returned hreturned
    · rw [htree]
    · rw [htree]
      exact hcreate
  | true =>
    obtain ⟨-, v, -, htree⟩ := set_of_returned hreturned
    rw [htree]
    exact (Json.at?_writeAt_of_apart h).trans hcreate

/-- **A write and a removal act at their key and nowhere apart from it.** -/
theorem readsAfter (c : Store) (key : String) (value : Option Document) (validate : Bool) :
    c.ReadsAfter key value validate where
  set_self hreturned := by
    obtain ⟨hne, v, hv, htree⟩ := set_of_returned hreturned
    have hpointer : (c.set key value validate).store.getJsonPointer key = some v.1 := by
      rw [getJsonPointer, if_neg hne, htree]
      exact Json.at?_writeAt_self
    exact ⟨v, hv, hpointer, by rw [has, hpointer]; rfl⟩
  remove_self hreturned := by
    rw [has, getJsonPointer]
    split_ifs with hnil
    · rfl
    · have herased : (c.remove key).store.configData.1.at? (splitKey key) = none :=
        Json.at?_removeAt_self hnil
      rw [herased]
      rfl
  remove_returned := remove_returned c key
  set_apart _ h := reads_congr (at?_set_of_apart h)
  remove_apart _ h := reads_congr (Json.at?_removeAt_of_apart h)

end Store

end Configuration

end AxonVex
