import AxonVex.Machinery.Members
import AxonVex.Spec.Json
import Mathlib.Data.String.Basic

/-!
# Configuration/Tree — the nodes of a document and the patches between documents

A path is a list of keys; `at?` reads the node it leads to and `writeAt` replaces it, with objects
for what is missing on the way.  A write is seen below its path (`at?_writeAt_append`) and nowhere
apart from it (`at?_writeAt_of_apart`).  `mergePatch` is the patch of RFC 7396.

The library keeps the members of an object in key order, at every depth (`Sorted`): a `Document` is
a value that does.
-/

namespace AxonVex

open Machinery

namespace Json

variable {j v w patch : Json} {k l : String} {p q : List String} {ms : List (String × Json)}

/-! ## Members -/

/-- `(*this)[key] = v`, of an object or of `null`, which becomes one. -/
def put (j : Json) (key : String) (v : Json) : Json := object (Members.insert key v j.members)

/-- `erase(key)`, of an object. -/
def eraseKey (key : String) : Json → Json
  | object ms => object (Members.erase key ms)
  | j => j

/-- `operator[](key)` throws of the other types. -/
def indexable : Json → Bool
  | null => true
  | object _ => true
  | _ => false

@[simp] theorem find?_put_self : (j.put k v).find? k = some v := Members.lookup_insert_self

theorem find?_put_of_ne (h : l ≠ k) : (j.put k v).find? l = j.find? l :=
  Members.lookup_insert_of_ne h

theorem put_put_self : (j.put k w).put k v = j.put k v :=
  congrArg object Members.insert_insert_self

theorem put_comm (h : k ≠ l) : (j.put l w).put k v = (j.put k v).put l w :=
  congrArg object (Members.insert_comm h)

@[simp] theorem members_eraseKey : (j.eraseKey k).members = Members.erase k j.members := by
  cases j <;> rfl

@[simp] theorem find?_eraseKey_self : (j.eraseKey k).find? k = none := by
  rw [find?, members_eraseKey, Members.lookup_erase_self]

theorem find?_eraseKey_of_ne (h : l ≠ k) : (j.eraseKey k).find? l = j.find? l := by
  rw [find?, members_eraseKey, Members.lookup_erase_of_ne h, find?]

/-- Only an object has members. -/
theorem eq_object_of_find? (h : j.find? k = some v) : j = object j.members := by
  cases j with
  | object ms => rfl
  | _ => exact absurd h (by simp [find?, members])

theorem indexable_of_find? (h : j.find? k = some v) : j.indexable := by
  rw [eq_object_of_find? h]
  rfl

theorem find?_of_contains (h : j.contains k = true) : ∃ v, j.find? k = some v :=
  Option.isSome_iff_exists.mp h

theorem find?_of_not_contains (h : j.contains k ≠ true) : j.find? k = none := by
  simpa [contains] using h

/-! ## Documents -/

/-- The members of every object ascend. -/
inductive Sorted : Json → Prop
  | null : Sorted null
  | boolean (b : Bool) : Sorted (boolean b)
  | integer (z : ℤ) : Sorted (integer z)
  | float (v : ℚ) : Sorted (float v)
  | string (s : String) : Sorted (string s)
  | array {xs : List Json} (h : ∀ x ∈ xs, Sorted x) : Sorted (array xs)
  | object {ms : List (String × Json)} (h : Members.Sorted ms) (hms : ∀ m ∈ ms, Sorted m.2) :
    Sorted (object ms)

theorem Sorted.sorted_members (h : j.Sorted) : Members.Sorted j.members := by
  cases h with
  | object h hms => exact h
  | _ => exact List.Pairwise.nil

theorem Sorted.of_mem (h : j.Sorted) {m : String × Json} (hm : m ∈ j.members) : m.2.Sorted := by
  cases h with
  | object h hms => exact hms m hm
  | _ => exact absurd hm List.not_mem_nil

theorem Sorted.find? (h : j.Sorted) (hv : j.find? k = some v) : v.Sorted :=
  h.of_mem (Members.mem_of_lookup hv)

theorem Sorted.getD (h : j.Sorted) : ((j.find? k).getD .null).Sorted := by
  cases hv : j.find? k with
  | none => exact .null
  | some v => exact h.find? hv

theorem Sorted.put (h : j.Sorted) (hv : v.Sorted) : (j.put k v).Sorted := by
  refine .object h.sorted_members.insert fun m hm => ?_
  rcases Members.mem_of_mem_insert hm with rfl | hm
  · exact hv
  · exact h.of_mem hm

theorem Sorted.eraseKey (h : j.Sorted) : (j.eraseKey k).Sorted := by
  cases h with
  | object h hms => exact .object h.erase fun m hm => hms m (List.mem_filter.mp hm).1
  | null => exact .null
  | boolean b => exact .boolean b
  | integer z => exact .integer z
  | float v => exact .float v
  | string s => exact .string s
  | array h => exact .array h

/-- Writing the value that is there changes nothing. -/
theorem Sorted.put_of_find? (h : j.Sorted) (hv : j.find? k = some v) : j.put k v = j := by
  have hobject := eq_object_of_find? hv
  rw [Json.put, Members.insert_of_lookup h.sorted_members hv, ← hobject]

/-! ## Paths -/

/-- The node at the end of a path. -/
def at? : List String → Json → Option Json
  | [], j => some j
  | key :: keys, j => (j.find? key).bind (at? keys)

/-- The node at the end of the path becomes `v`. -/
def writeAt : Json → List String → Json → Json
  | _, [], v => v
  | j, key :: keys, v => j.put key (((j.find? key).getD null).writeAt keys v)

/-- Neither path leads through the end of the other. -/
def Apart (p q : List String) : Prop := ¬ p <+: q ∧ ¬ q <+: p

instance : DecidableRel Apart := fun _ _ => inferInstanceAs (Decidable (_ ∧ _))

theorem Apart.symm (h : Apart p q) : Apart q p := ⟨h.2, h.1⟩

theorem not_apart_nil : ¬ Apart [] q := fun h => h.1 List.nil_prefix

theorem apart_cons_iff : Apart (k :: p) (l :: q) ↔ (k = l → Apart p q) := by
  rw [Apart, Apart, List.cons_prefix_cons, List.cons_prefix_cons]
  constructor
  · rintro ⟨hp, hq⟩ heq
    exact ⟨fun h => hp ⟨heq, h⟩, fun h => hq ⟨heq.symm, h⟩⟩
  · intro h
    exact ⟨fun hp => (h hp.1).1 hp.2, fun hq => (h hq.1.symm).2 hq.2⟩

theorem at?_nil : j.at? [] = some j := rfl

theorem at?_cons : j.at? (k :: p) = (j.find? k).bind (at? p) := rfl

/-- A missing member has nothing below. -/
theorem at?_getD (h : p ≠ []) : ((j.find? k).getD null).at? p = (j.find? k).bind (at? p) := by
  cases j.find? k with
  | some v => rfl
  | none =>
    cases p with
    | nil => exact absurd rfl h
    | cons l p => rfl

/-- **A write is what is read at its path and below.** -/
theorem at?_writeAt_append : (j.writeAt p v).at? (p ++ q) = v.at? q := by
  induction p generalizing j with
  | nil => rfl
  | cons k p ih =>
    rw [List.cons_append, writeAt, at?_cons, find?_put_self]
    exact ih

theorem at?_writeAt_self : (j.writeAt p v).at? p = some v := by
  have hbelow := at?_writeAt_append (j := j) (p := p) (v := v) (q := [])
  rwa [List.append_nil] at hbelow

/-- **A write is not seen apart from its path.** -/
theorem at?_writeAt_of_apart (h : Apart p q) : (j.writeAt p v).at? q = j.at? q := by
  induction p generalizing j q with
  | nil => exact absurd h not_apart_nil
  | cons k p ih =>
    cases q with
    | nil => exact absurd h.symm not_apart_nil
    | cons l q =>
      rw [writeAt, at?_cons, at?_cons]
      by_cases hkl : k = l
      · subst hkl
        have hpq : Apart p q := apart_cons_iff.mp h rfl
        have hq : q ≠ [] := by
          rintro rfl
          exact not_apart_nil hpq.symm
        rw [find?_put_self, Option.bind_some, ih hpq, at?_getD hq]
      · rw [find?_put_of_ne (Ne.symm hkl)]

theorem Sorted.writeAt (h : j.Sorted) (hv : v.Sorted) : (j.writeAt p v).Sorted := by
  induction p generalizing j with
  | nil => exact hv
  | cons k p ih => exact h.put (ih h.getD)

/-! ## Patches -/

mutual

/-- `merge_patch(patch)`. -/
def mergePatch : Json → Json → Json
  | target, object ms => mergeMembers (object target.members) ms
  | _, patch => patch

/-- The members of the patch, in a row. -/
def mergeMembers : Json → List (String × Json) → Json
  | target, [] => target
  | target, m :: ms => mergeMembers (mergeMember target m) ms

/-- A member `null` of the patch erases; another one patches the member of the target. -/
def mergeMember : Json → String × Json → Json
  | target, (key, patch) =>
    if patch.isNull then target.eraseKey key
    else target.put key (mergePatch ((target.find? key).getD null) patch)

end

/-- What a patch says about one member of the target. -/
def patched (old : Option Json) : Option Json → Option Json
  | none => old
  | some patch => if patch.isNull then none else some (mergePatch (old.getD null) patch)

theorem mergePatch_of_not_object (h : patch.isObject = false) : j.mergePatch patch = patch := by
  cases patch with
  | object ms => exact absurd h (by simp [isObject])
  | _ => rfl

theorem find?_mergeMember_self :
    (mergeMember j (k, patch)).find? k = patched (j.find? k) (some patch) := by
  rw [mergeMember, patched]
  split
  · exact find?_eraseKey_self
  · exact find?_put_self

theorem find?_mergeMember_of_ne {m : String × Json} (h : l ≠ m.1) :
    (mergeMember j m).find? l = j.find? l := by
  rw [mergeMember]
  split
  · exact find?_eraseKey_of_ne h
  · exact find?_put_of_ne h

theorem find?_mergeMembers_of_forall_ne (h : ∀ m ∈ ms, l ≠ m.1) :
    (mergeMembers j ms).find? l = j.find? l := by
  induction ms generalizing j with
  | nil => rfl
  | cons m ms ih =>
    obtain ⟨hm, hms⟩ := List.forall_mem_cons.mp h
    rw [mergeMembers, ih hms, find?_mergeMember_of_ne hm]

/-- **A patch in order acts on each member by itself.** -/
theorem find?_mergeMembers (h : Members.Sorted ms) :
    (mergeMembers j ms).find? l = patched (j.find? l) (ms.lookup l) := by
  induction ms generalizing j with
  | nil => rfl
  | cons m ms ih =>
    obtain ⟨hm, hms⟩ := List.pairwise_cons.mp h
    obtain ⟨k, patch⟩ := m
    rw [mergeMembers]
    by_cases hlk : l = k
    · subst hlk
      have hbehind (n : String × Json) (hn : n ∈ ms) : l ≠ n.1 := (hm n hn).ne
      rw [find?_mergeMembers_of_forall_ne hbehind, find?_mergeMember_self,
        List.lookup_cons_self]
    · rw [ih hms, find?_mergeMember_of_ne hlk, Members.lookup_cons_of_ne hlk]

theorem find?_mergePatch_object (h : Members.Sorted ms) :
    (j.mergePatch (object ms)).find? l = patched (j.find? l) (ms.lookup l) := by
  rw [mergePatch, find?_mergeMembers h]
  rfl

theorem Sorted.mergePatch (hpatch : patch.Sorted) (h : j.Sorted) : (j.mergePatch patch).Sorted := by
  induction hpatch generalizing j with
  | object hms hvs ih =>
    rename_i ms
    have hmembers (ns : List (String × Json)) (hsub : ns ⊆ ms) (t : Json) (ht : t.Sorted) :
        (mergeMembers t ns).Sorted := by
      induction ns generalizing t with
      | nil => exact ht
      | cons n ns ihns =>
        obtain ⟨hn, hsub⟩ := List.cons_subset.mp hsub
        refine ihns hsub _ ?_
        rw [mergeMember]
        split
        · exact ht.eraseKey
        · exact ht.put (ih n hn ht.getD)
    refine hmembers ms (List.Subset.refl ms) _ ?_
    exact .object h.sorted_members fun m hm => h.of_mem hm
  | null => exact .null
  | boolean b => exact .boolean b
  | integer z => exact .integer z
  | float v => exact .float v
  | string s => exact .string s
  | array hxs ih => exact .array hxs

end Json

/-- A value whose objects have their members in order. -/
abbrev Document := { j : Json // j.Sorted }

namespace Document

/-- A default-constructed `json`. -/
def null : Document := ⟨.null, .null⟩

/-- `(*this)[key] = v`. -/
def put (d : Document) (key : String) (v : Document) : Document := ⟨d.1.put key v.1, d.2.put v.2⟩

/-- The node at the path becomes `v`. -/
def writeAt (d : Document) (path : List String) (v : Document) : Document :=
  ⟨d.1.writeAt path v.1, d.2.writeAt v.2⟩

/-- `merge_patch(patch)`. -/
def mergePatch (d patch : Document) : Document := ⟨d.1.mergePatch patch.1, patch.2.mergePatch d.2⟩

end Document

end AxonVex
