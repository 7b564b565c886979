import AxonVex.Configuration.Tree

/-!
# Configuration/Merge — the recursive merge of two documents

`merged` takes an object into an object member by member, and puts every other value in the place
of what was there.  Each member is merged by itself (`find?_merged_object`), so that the merge is
idempotent (`merged_merged`), and without `null` members it is the patch of RFC 7396
(`mergePatch_eq_merged`).

`leaves` lists the writes of a merge: done in a row they are the merge (`foldl_write_leaves`), and
each is at a path of the updates.
-/

namespace AxonVex

open Machinery

namespace Json

variable {j t u v w : Json} {k l : String} {p : List String} {ms : List (String × Json)}

mutual

/-- The values of `updates` in the place of those of the target, object into object. -/
def merged : Json → Json → Json
  | object ts, object ms => mergedMembers (object ts) ms
  | _, updates => updates

/-- The members of the updates, in a row. -/
def mergedMembers : Json → List (String × Json) → Json
  | target, [] => target
  | target, m :: ms => mergedMembers (mergedMember target m) ms

/-- One member of the updates. -/
def mergedMember : Json → String × Json → Json
  | target, (key, updates) => target.put key (merged ((target.find? key).getD null) updates)

end

theorem merged_of_not_object (h : t.isObject = false) : t.merged v = v := by
  cases t with
  | object ts => exact absurd h (by simp [isObject])
  | _ => cases v <;> rfl

theorem merged_null_left : merged null v = v := merged_of_not_object rfl

theorem merged_of_value (h : v.isObject = false) : t.merged v = v := by
  cases v with
  | object ms => exact absurd h (by simp [isObject])
  | _ => cases t <;> rfl

/-! ## Member by member -/

/-- What an update says about one member of the target. -/
def updated (old : Option Json) : Option Json → Option Json
  | none => old
  | some updates => some (merged (old.getD null) updates)

theorem mergedMember_eq {m : String × Json} :
    mergedMember t m = t.put m.1 (merged ((t.find? m.1).getD null) m.2) := by
  rw [mergedMember]

theorem find?_mergedMember_self :
    (mergedMember t (k, v)).find? k = some (merged ((t.find? k).getD null) v) := by
  rw [mergedMember_eq, find?_put_self]

theorem find?_mergedMember_of_ne {m : String × Json} (h : l ≠ m.1) :
    (mergedMember t m).find? l = t.find? l := by
  rw [mergedMember_eq, find?_put_of_ne h]

theorem find?_mergedMembers_of_forall_ne (h : ∀ m ∈ ms, l ≠ m.1) :
    (mergedMembers t ms).find? l = t.find? l := by
  induction ms generalizing t with
  | nil => rfl
  | cons m ms ih =>
    obtain ⟨hm, hms⟩ := List.forall_mem_cons.mp h
    rw [mergedMembers, ih hms, find?_mergedMember_of_ne hm]

theorem find?_mergedMembers (h : Members.Sorted ms) :
    (mergedMembers t ms).find? l = updated (t.find? l) (ms.lookup l) := by
  induction ms generalizing t with
  | nil => rfl
  | cons m ms ih =>
    obtain ⟨hm, hms⟩ := List.pairwise_cons.mp h
    obtain ⟨k, v⟩ := m
    rw [mergedMembers]
    by_cases hlk : l = k
    · subst hlk
      have hbehind (n : String × Json) (hn : n ∈ ms) : l ≠ n.1 := (hm n hn).ne
      rw [find?_mergedMembers_of_forall_ne hbehind, find?_mergedMember_self,
        List.lookup_cons_self]
      rfl
    · rw [ih hms, find?_mergedMember_of_ne hlk, Members.lookup_cons_of_ne hlk]

theorem updated_none_left {updates : Option Json} : updated none updates = updates := by
  cases updates with
  | none => rfl
  | some v => exact congrArg some merged_null_left

/-- **The merge with an object acts on each member by itself.** -/
theorem find?_merged_object (h : Members.Sorted ms) :
    (t.merged (object ms)).find? l = updated (t.find? l) (ms.lookup l) := by
  cases t with
  | object ts => exact find?_mergedMembers h
  | _ => exact updated_none_left.symm

theorem isObject_put : (t.put k v).isObject = true := rfl

theorem isObject_mergedMembers (h : t.isObject = true ∨ ms ≠ []) :
    (mergedMembers t ms).isObject = true := by
  induction ms generalizing t with
  | nil => exact h.resolve_right (not_not.mpr rfl)
  | cons m ms ih => exact ih (.inl (by rw [mergedMember_eq]; exact isObject_put))

theorem isObject_merged_object : (t.merged (object ms)).isObject = true := by
  cases t with
  | object ts => exact isObject_mergedMembers (.inl rfl)
  | _ => rfl

/-! ## Order -/

theorem Sorted.mergedMembers_of (hms : ∀ m ∈ ms, ∀ t : Json, t.Sorted → (t.merged m.2).Sorted)
    (ht : t.Sorted) : (mergedMembers t ms).Sorted := by
  induction ms generalizing t with
  | nil => exact ht
  | cons m ms ih =>
    obtain ⟨hm, hms⟩ := List.forall_mem_cons.mp hms
    refine ih hms ?_
    rw [mergedMember_eq]
    exact ht.put (hm _ ht.getD)

theorem Sorted.merged (hv : v.Sorted) (ht : t.Sorted) : (t.merged v).Sorted := by
  induction hv generalizing t with
  | object hms hvs ih =>
    cases t with
    | object ts => exact mergedMembers_of (fun m hm t ht => ih m hm ht) ht
    | _ => exact .object hms hvs
  | array hxs ih =>
    rw [merged_of_value rfl]
    exact .array hxs
  | null =>
    rw [merged_of_value rfl]
    exact .null
  | boolean b =>
    rw [merged_of_value rfl]
    exact .boolean b
  | integer z =>
    rw [merged_of_value rfl]
    exact .integer z
  | float v =>
    rw [merged_of_value rfl]
    exact .float v
  | string s =>
    rw [merged_of_value rfl]
    exact .string s

/-- Objects in order are what their members are. -/
theorem Sorted.ext (ht : t.Sorted) (hu : u.Sorted) (hto : t.isObject = true)
    (huo : u.isObject = true) (h : ∀ l, t.find? l = u.find? l) : t = u := by
  cases t with
  | object ts =>
    cases u with
    | object us =>
      exact congrArg Json.object (Members.ext_of_lookup ht.sorted_members hu.sorted_members h)
    | _ => exact absurd huo (by simp [isObject])
  | _ => exact absurd hto (by simp [isObject])

/-- Without an object to merge into, the writes of the members are the updates. -/
theorem mergedMembers_eq_merged (hv : (object ms).Sorted) (ht : t.Sorted)
    (hne : ms ≠ []) : mergedMembers t ms = t.merged (object ms) := by
  have hms : Members.Sorted ms := hv.sorted_members
  refine Sorted.ext (.mergedMembers_of (fun m hm t => (hv.of_mem hm).merged) ht) (hv.merged ht)
    (isObject_mergedMembers (.inr hne)) isObject_merged_object fun l => ?_
  rw [find?_mergedMembers hms, find?_merged_object hms]

/-- **Merging again changes nothing.** -/
theorem merged_merged (hv : v.Sorted) (ht : t.Sorted) : (t.merged v).merged v = t.merged v := by
  induction hv generalizing t with
  | object hms hvs ih =>
    have hobject := Sorted.object hms hvs
    refine Sorted.ext (hobject.merged (hobject.merged ht)) (hobject.merged ht)
      isObject_merged_object isObject_merged_object fun l => ?_
    rename_i ms
    rw [find?_merged_object hms, find?_merged_object hms]
    cases hl : ms.lookup l with
    | none => rfl
    | some w => exact congrArg some (ih (l, w) (Members.mem_of_lookup hl) ht.getD)
  | _ => rw [merged_of_value rfl, merged_of_value rfl]

/-- Where the later updates have an object, the earlier ones have an object or nothing. -/
def Layered (u v : Json) : Prop :=
  ∀ p w x, u.at? p = some w → v.at? p = some x → x.isObject = true → w.isObject = true

theorem Layered.find? {x : Json} (h : Layered u v) (hw : u.find? k = some w)
    (hx : v.find? k = some x) : Layered w x := fun p w' x' hw' hx' =>
  h (k :: p) w' x' (by rw [at?_cons, hw, Option.bind_some, hw'])
    (by rw [at?_cons, hx, Option.bind_some, hx'])

theorem eq_object (h : t.isObject = true) : ∃ ms, t = object ms := by
  cases t with
  | object ms => exact ⟨ms, rfl⟩
  | _ => cases h

/-- **Updates in a row are merged updates.** -/
theorem merged_assoc (hv : v.Sorted) (hu : u.Sorted) (ht : t.Sorted) (h : Layered u v) :
    (t.merged u).merged v = t.merged (u.merged v) := by
  induction hv generalizing t u with
  | object hms hvs ih =>
    rename_i ms
    have hv := Sorted.object hms hvs
    obtain ⟨us, rfl⟩ := eq_object (h [] u (object ms) rfl rfl rfl)
    have hobject : ((object us).merged (object ms)).isObject = true := isObject_merged_object
    obtain ⟨ws, hws⟩ := eq_object hobject
    have hsorted : (object ws).Sorted := hws ▸ hv.merged hu
    have hus : Members.Sorted us := hu.sorted_members
    have hwsorted : Members.Sorted ws := hsorted.sorted_members
    rw [hws]
    refine Sorted.ext (hv.merged (hu.merged ht)) (hsorted.merged ht) isObject_merged_object
      isObject_merged_object fun l => ?_
    have hlookup : ws.lookup l = updated (us.lookup l) (ms.lookup l) := by
      have hfind := find?_merged_object (t := object us) (l := l) hms
      rwa [hws] at hfind
    rw [find?_merged_object hms, find?_merged_object hus, find?_merged_object hwsorted, hlookup]
    cases hx : ms.lookup l with
    | none => rfl
    | some x =>
      cases hw : us.lookup l with
      | none =>
        exact congrArg (fun y => some (((t.find? l).getD null).merged y)) merged_null_left.symm
      | some w =>
        exact congrArg some (ih (l, x) (Members.mem_of_lookup hx)
          (hu.of_mem (Members.mem_of_lookup hw)) ht.getD (h.find? hw hx))
  | _ => rw [merged_of_value (t := t.merged u) rfl, merged_of_value (t := u) rfl, merged_of_value rfl]

/-! ## Patches -/

/-- No member is `null`, at any depth of nested objects. -/
def NullFree (v : Json) : Prop := ∀ p, p ≠ [] → v.at? p ≠ some null

theorem NullFree.find? (h : v.NullFree) (hw : v.find? k = some w) : w.NullFree := by
  intro p _ hnull
  refine h (k :: p) (List.cons_ne_nil k p) ?_
  rw [at?_cons, hw]
  exact hnull

theorem NullFree.of_find? (h : ∀ k w, v.find? k = some w → w ≠ null ∧ w.NullFree) : v.NullFree := by
  intro p hp hnull
  cases p with
  | nil => exact hp rfl
  | cons k p =>
    obtain ⟨w, hw, hnull⟩ := Option.bind_eq_some_iff.mp hnull
    obtain ⟨hne, hfree⟩ := h k w hw
    cases p with
    | nil => exact hne (Option.some.inj hnull)
    | cons l p => exact hfree (l :: p) (List.cons_ne_nil l p) hnull

theorem nullFree_integer (z : ℤ) : (integer z).NullFree :=
  .of_find? fun _ _ h => absurd h (by simp [Json.find?, members])

theorem NullFree.isNull (h : v.NullFree) (hw : v.find? k = some w) : w.isNull = false := by
  cases w with
  | null =>
    refine absurd ?_ (h [k] (List.cons_ne_nil k []))
    rw [at?_cons, hw]
    rfl
  | _ => rfl

theorem isObject_mergeMembers (h : t.isObject = true) : (mergeMembers t ms).isObject = true := by
  induction ms generalizing t with
  | nil => exact h
  | cons m ms ih =>
    refine ih ?_
    rw [mergeMember]
    split
    · cases t with
      | object ts => rfl
      | _ => exact absurd h (by simp [isObject])
    · rfl

/-- **Without `null` members the merge is the patch.** -/
theorem mergePatch_eq_merged (hv : v.Sorted) (ht : t.Sorted) (h : v.NullFree) :
    t.mergePatch v = t.merged v := by
  induction hv generalizing t with
  | object hms hvs ih =>
    have hobject := Sorted.object hms hvs
    refine Sorted.ext (hobject.mergePatch ht) (hobject.merged ht) ?_ isObject_merged_object
      fun l => ?_
    · exact isObject_mergeMembers rfl
    · rename_i ms
      rw [find?_mergePatch_object hms, find?_merged_object hms]
      cases hl : ms.lookup l with
      | none => rfl
      | some w =>
        rw [patched, if_neg (by rw [h.isNull hl]; exact Bool.noConfusion)]
        exact congrArg some (ih (l, w) (Members.mem_of_lookup hl) ht.getD (h.find? hl))
  | _ => rw [merged_of_value rfl, mergePatch_of_not_object rfl]

/-! ## The writes of a merge -/

mutual

/-- The writes of one member of the updates, as paths with their new values. -/
def leavesMember : Json → String × Json → List (List String × Json)
  | target, (key, object ms) =>
    match target.find? key with
    | some (object ts) => (leaves (object ts) ms).map fun e => (key :: e.1, e.2)
    | _ => [([key], object ms)]
  | _, (key, updates) => [([key], updates)]

/-- The writes of the members of the updates. -/
def leaves : Json → List (String × Json) → List (List String × Json)
  | _, [] => []
  | target, m :: ms => leavesMember target m ++ leaves target ms

end

/-- One write. -/
def write (j : Json) (e : List String × Json) : Json := j.writeAt e.1 e.2

theorem leavesMember_congr {m : String × Json} (h : t.find? m.1 = u.find? m.1) :
    leavesMember t m = leavesMember u m := by
  obtain ⟨k, v⟩ := m
  cases v with
  | object ms =>
    rw [leavesMember, leavesMember, h]
  | _ => simp only [leavesMember]

theorem leaves_congr (h : ∀ m ∈ ms, t.find? m.1 = u.find? m.1) : leaves t ms = leaves u ms := by
  induction ms with
  | nil => simp only [leaves]
  | cons m ms ih =>
    obtain ⟨hm, hms⟩ := List.forall_mem_cons.mp h
    rw [leaves, leaves, leavesMember_congr hm, ih hms]

/-- Writes below one key are writes to its node. -/
theorem foldl_write_cons {es : List (List String × Json)} (h : t.find? k = some u)
    (hput : t.put k u = t) :
    (es.map fun e => (k :: e.1, e.2)).foldl write t = t.put k (es.foldl write u) := by
  induction es generalizing t u with
  | nil => exact hput.symm
  | cons e es ih =>
    have hwrite : t.write (k :: e.1, e.2) = t.put k (u.write e) := by
      rw [write, writeAt, h]
      rfl
    rw [List.map_cons, List.foldl_cons, List.foldl_cons, hwrite, ih find?_put_self put_put_self,
      put_put_self]

theorem foldl_write_leaves_of
    (hms : ∀ m ∈ ms, ∀ t : Json, t.Sorted →
      (leavesMember t m).foldl write t = mergedMember t m ∧ (mergedMember t m).Sorted)
    (h : Members.Sorted ms) (ht : t.Sorted) :
    (leaves t ms).foldl write t = mergedMembers t ms := by
  induction ms generalizing t with
  | nil => rw [leaves, List.foldl_nil, mergedMembers]
  | cons m ms ih =>
    obtain ⟨hm, hms⟩ := List.forall_mem_cons.mp hms
    obtain ⟨hlt, hsorted⟩ := List.pairwise_cons.mp h
    have hsame : leaves t ms = leaves (mergedMember t m) ms :=
      leaves_congr fun n hn => (find?_mergedMember_of_ne (hlt n hn).ne').symm
    rw [leaves, List.foldl_append, (hm t ht).1, hsame, ih hms hsorted (hm t ht).2, mergedMembers]

theorem foldl_write_leavesMember (hv : v.Sorted) (ht : t.Sorted) :
    (leavesMember t (k, v)).foldl write t = mergedMember t (k, v) := by
  induction hv generalizing t k with
  | object hms hvs ih =>
    rename_i ms
    rw [leavesMember, mergedMember]
    split
    next ts hts =>
      have hput : t.put k (object ts) = t := ht.put_of_find? hts
      rw [foldl_write_cons hts hput, hts]
      refine congrArg (t.put k) (foldl_write_leaves_of (fun m hm t ht => ⟨ih m hm ht, ?_⟩) hms
        (ht.find? hts))
      rw [mergedMember_eq]
      exact ht.put ((hvs m hm).merged ht.getD)
    next hnone =>
      have hvalue : ((t.find? k).getD null).isObject = false := by
        cases hk : t.find? k with
        | none => rfl
        | some u =>
          cases u with
          | object ts => exact absurd hk (hnone ts)
          | _ => rfl
      rw [merged_of_not_object hvalue]
      rfl
  | _ =>
    rw [mergedMember, merged_of_value rfl]
    simp only [leavesMember]
    rfl

/-- **The writes of a merge, in a row, are the merge.** -/
theorem foldl_write_leaves (hv : (object ms).Sorted) (ht : t.Sorted) :
    (leaves t ms).foldl write t = mergedMembers t ms := by
  refine foldl_write_leaves_of (fun m hm t ht => ⟨?_, ?_⟩) hv.sorted_members ht
  · exact foldl_write_leavesMember (hv.of_mem hm) ht
  · rw [mergedMember_eq]
    exact ht.put ((hv.of_mem hm).merged ht.getD)

theorem mem_leaves {e : List String × Json} : e ∈ leaves t ms ↔ ∃ m ∈ ms, e ∈ leavesMember t m := by
  induction ms with
  | nil => simp [leaves]
  | cons m ms ih => simp [leaves, ih]

theorem head_of_mem_leavesMember {e : List String × Json} {m : String × Json}
    (h : e ∈ leavesMember t m) : ∃ q, e.1 = m.1 :: q := by
  obtain ⟨k, v⟩ := m
  cases v with
  | object ms =>
    rw [leavesMember] at h
    split at h
    · obtain ⟨f, -, rfl⟩ := List.mem_map.mp h
      exact ⟨f.1, rfl⟩
    · obtain rfl := List.mem_singleton.mp h
      exact ⟨[], rfl⟩
  | _ =>
    simp only [leavesMember, List.mem_singleton] at h
    subst h
    exact ⟨[], rfl⟩

/-- **A write of a merge is a node of the updates.** -/
theorem at?_of_mem_leavesMember {e : List String × Json} (hv : v.Sorted)
    (h : e ∈ leavesMember t (k, v)) : ∃ q, e.1 = k :: q ∧ v.at? q = some e.2 := by
  induction hv generalizing t k e with
  | object hms hvs ih =>
    rw [leavesMember] at h
    split at h
    · obtain ⟨f, hf, rfl⟩ := List.mem_map.mp h
      obtain ⟨m, hm, hfm⟩ := mem_leaves.mp hf
      obtain ⟨q, hq, hat⟩ := ih m hm hfm
      refine ⟨f.1, rfl, ?_⟩
      have hfind : (object _).find? m.1 = some m.2 := Members.lookup_of_mem hms hm
      rw [hq, at?_cons, hfind]
      exact hat
    · obtain rfl := List.mem_singleton.mp h
      exact ⟨[], rfl, rfl⟩
  | _ =>
    simp only [leavesMember, List.mem_singleton] at h
    subst h
    exact ⟨[], rfl, rfl⟩

theorem at?_of_mem_leaves {e : List String × Json} (hv : (object ms).Sorted)
    (h : e ∈ leaves t ms) : e.1 ≠ [] ∧ (object ms).at? e.1 = some e.2 := by
  obtain ⟨m, hm, he⟩ := mem_leaves.mp h
  obtain ⟨q, hq, hat⟩ := at?_of_mem_leavesMember (hv.of_mem hm) he
  have hfind : (object ms).find? m.1 = some m.2 := Members.lookup_of_mem hv.sorted_members hm
  rw [hq, at?_cons, hfind]
  exact ⟨List.cons_ne_nil m.1 q, hat⟩

end Json

end AxonVex
