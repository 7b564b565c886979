import AxonVex.Configuration.Access
import AxonVex.Configuration.Environment
import AxonVex.Configuration.Patterns
import AxonVex.Machinery.Machine
import Mathlib.Data.List.Nodup

/-!
# Configuration/Keys — the keys that are listed, and the nodes they find

    node ──path of member names──▸ joined with dots ──splitKey──▸ path ──▸ node

`getKeys` joins the member names on the way to a node and `getJsonPointer` splits the key again.  A
member name that is empty or has a dot in it does not come back from there, so the keys find their
nodes exactly if no nested object has such a name (`Store.keysAgree_iff`).  `set` and `remove` make
no such name; it comes in with a document or a variable (`Store.plainKeys_of_reachable`).
-/

namespace AxonVex

open Machinery

namespace Json

variable {j v w patch : Json} {k : String} {p : List String} {ms : List (String × Json)}
  {e : List String × Json}

/-! ## The nodes below an object -/

mutual

/-- The node of a member and the nodes below it, each with the path that leads there. -/
def nodesMember : String × Json → List (List String × Json)
  | (key, .object ms) => ([key], .object ms) :: (nodes ms).map fun e => (key :: e.1, e.2)
  | (key, v) => [([key], v)]

/-- The nodes below an object, in iteration order. -/
def nodes : List (String × Json) → List (List String × Json)
  | [] => []
  | m :: ms => nodesMember m ++ nodes ms

end

theorem nodesMember_eq :
    nodesMember (k, v) = ([k], v) :: (nodes v.members).map fun e => (k :: e.1, e.2) := by
  cases v <;> simp [nodesMember, nodes, members]

theorem mem_nodes : e ∈ nodes ms ↔ ∃ m ∈ ms, e ∈ nodesMember m := by
  induction ms with
  | nil => simp [nodes]
  | cons m ms ih => rw [nodes, List.mem_append, ih, List.exists_mem_cons_iff]

theorem ne_nil_of_mem_nodesMember {m : String × Json} (h : e ∈ nodesMember m) : e.1 ≠ [] := by
  obtain ⟨k, v⟩ := m
  rw [nodesMember_eq, List.mem_cons, List.mem_map] at h
  rcases h with rfl | ⟨f, -, rfl⟩
  · exact List.cons_ne_nil _ _
  · exact List.cons_ne_nil _ _

theorem ne_nil_of_mem_nodes (h : e ∈ nodes ms) : e.1 ≠ [] := by
  obtain ⟨m, -, he⟩ := mem_nodes.mp h
  exact ne_nil_of_mem_nodesMember he

theorem mem_nodes_cons (hv : v.Sorted) :
    (k :: p, w) ∈ nodes v.members ↔
      ∃ u, v.find? k = some u ∧ (p = [] ∧ w = u ∨ (p, w) ∈ nodes u.members) := by
  rw [mem_nodes]
  constructor
  · rintro ⟨⟨l, u⟩, hm, he⟩
    rw [nodesMember_eq, List.mem_cons, List.mem_map] at he
    have hu : v.find? l = some u := Members.lookup_of_mem hv.sorted_members hm
    rcases he with he | ⟨f, hf, he⟩
    · obtain ⟨hpath, rfl⟩ := Prod.mk.inj he
      obtain ⟨rfl, rfl⟩ := List.cons.inj hpath
      exact ⟨w, hu, .inl ⟨rfl, rfl⟩⟩
    · obtain ⟨hpath, rfl⟩ := Prod.mk.inj he
      obtain ⟨rfl, rfl⟩ := List.cons.inj hpath
      exact ⟨u, hu, .inr hf⟩
  · rintro ⟨u, hu, hpath⟩
    refine ⟨(k, u), Members.mem_of_lookup hu, ?_⟩
    rw [nodesMember_eq, List.mem_cons, List.mem_map]
    rcases hpath with ⟨rfl, rfl⟩ | hw
    · exact .inl rfl
    · exact .inr ⟨(p, w), hw, rfl⟩

/-- **The nodes below an object are what the paths lead to.** -/
theorem mem_nodes_iff (hv : v.Sorted) :
    (p, w) ∈ nodes v.members ↔ p ≠ [] ∧ v.at? p = some w := by
  induction p generalizing v with
  | nil => exact ⟨fun h => absurd rfl (ne_nil_of_mem_nodes h), fun h => absurd rfl h.1⟩
  | cons k p ih =>
    rw [mem_nodes_cons hv, at?_cons, Option.bind_eq_some_iff]
    refine ⟨fun ⟨u, hu, hw⟩ => ⟨List.cons_ne_nil k p, u, hu, ?_⟩, fun ⟨_, u, hu, hw⟩ => ⟨u, hu, ?_⟩⟩
    · rcases hw with ⟨rfl, rfl⟩ | hw
      · rfl
      · exact ((ih (hv.find? hu)).mp hw).2
    · cases p with
      | nil => exact .inl ⟨rfl, (Option.some.inj hw).symm⟩
      | cons l p => exact .inr ((ih (hv.find? hu)).mpr ⟨List.cons_ne_nil l p, hw⟩)

theorem head_of_mem_map_nodesMember {m : String × Json}
    (h : p ∈ (nodesMember m).map Prod.fst) : ∃ q, p = m.1 :: q := by
  obtain ⟨k, v⟩ := m
  obtain ⟨e, he, rfl⟩ := List.mem_map.mp h
  rw [nodesMember_eq, List.mem_cons, List.mem_map] at he
  rcases he with rfl | ⟨f, -, rfl⟩
  · exact ⟨[], rfl⟩
  · exact ⟨f.1, rfl⟩

/-- **No path leads to two nodes.** -/
theorem nodup_nodes (hv : v.Sorted) : ((nodes v.members).map Prod.fst).Nodup := by
  induction hv with
  | object hms hvs ih =>
    rename_i ms
    have hmember (m : String × Json) (hm : m ∈ ms) : ((nodesMember m).map Prod.fst).Nodup := by
      obtain ⟨k, u⟩ := m
      have hpaths : (nodesMember (k, u)).map Prod.fst =
          [k] :: ((nodes u.members).map Prod.fst).map (k :: ·) := by
        rw [nodesMember_eq, List.map_cons, List.map_map, List.map_map]
        rfl
      have hinj : Function.Injective (k :: · : List String → List String) :=
        fun _ _ h => (List.cons.inj h).2
      rw [hpaths, List.nodup_cons]
      refine ⟨fun h => ?_, (ih _ hm).map hinj⟩
      obtain ⟨q, hq, hnil⟩ := List.mem_map.mp h
      obtain ⟨e, he, rfl⟩ := List.mem_map.mp hq
      exact ne_nil_of_mem_nodes he (List.cons.inj hnil).2
    change ((nodes ms).map Prod.fst).Nodup
    clear ih hvs
    induction ms with
    | nil => simp [nodes]
    | cons m ms ihms =>
      obtain ⟨hlt, hsorted⟩ := List.pairwise_cons.mp hms
      obtain ⟨hm, hmember⟩ := List.forall_mem_cons.mp hmember
      rw [nodes, List.map_append]
      refine List.Nodup.append hm (ihms hsorted hmember) fun q hq hq' => ?_
      obtain ⟨e, he, rfl⟩ := List.mem_map.mp hq'
      obtain ⟨n, hn, he⟩ := mem_nodes.mp he
      obtain ⟨r, hr⟩ := head_of_mem_map_nodesMember hq
      obtain ⟨s, hs⟩ := head_of_mem_map_nodesMember (List.mem_map_of_mem he)
      exact (hlt n hn).ne (List.cons.inj (hr.symm.trans hs)).1
  | _ => simp [nodes, members]

end Json

namespace Configuration

/-! ## Names without dots -/

variable {v w t patch : Json} {k key : String} {p : List String} {ms : List (String × Json)}
  {c : Store}

theorem PlainKeys.find? (h : PlainKeys v) (hw : v.find? k = some w) :
    (k ≠ "" ∧ '.' ∉ k.toList) ∧ PlainKeys w := by
  have hat : (v.at? [k]).isSome := by
    rw [Json.at?_cons, hw]
    rfl
  refine ⟨h [k] hat k List.mem_cons_self, fun p hp l hl => ?_⟩
  refine h (k :: p) ?_ l (List.mem_cons_of_mem k hl)
  rw [Json.at?_cons, hw]
  exact hp

theorem PlainKeys.of_find?
    (h : ∀ k w, v.find? k = some w → (k ≠ "" ∧ '.' ∉ k.toList) ∧ PlainKeys w) : PlainKeys v := by
  intro p hp l hl
  cases p with
  | nil => exact absurd hl List.not_mem_nil
  | cons k p =>
    rw [Json.at?_cons] at hp
    obtain ⟨w, hw⟩ := Option.isSome_iff_exists.mp hp
    obtain ⟨u, hu, hw⟩ := Option.bind_eq_some_iff.mp hw
    obtain ⟨hk, hplain⟩ := h k u hu
    rcases List.mem_cons.mp hl with rfl | hl
    · exact hk
    · exact hplain p (by rw [hw]; rfl) l hl

/-- A value without members has no keys. -/
theorem plainKeys_of_members (h : v.members = []) : PlainKeys v :=
  .of_find? fun k w hw => absurd hw (by simp [Json.find?, h])

theorem PlainKeys.getD (h : PlainKeys v) : PlainKeys ((v.find? k).getD .null) := by
  cases hw : v.find? k with
  | none => exact plainKeys_of_members rfl
  | some w => exact (h.find? hw).2

theorem PlainKeys.put (h : PlainKeys v) (hk : k ≠ "" ∧ '.' ∉ k.toList) (hw : PlainKeys w) :
    PlainKeys (v.put k w) := by
  refine .of_find? fun l u hu => ?_
  by_cases hl : l = k
  · subst hl
    rw [Json.find?_put_self] at hu
    exact ⟨hk, Option.some.inj hu ▸ hw⟩
  · rw [Json.find?_put_of_ne hl] at hu
    exact h.find? hu

theorem PlainKeys.eraseKey (h : PlainKeys v) : PlainKeys (v.eraseKey k) := by
  refine .of_find? fun l u hu => ?_
  by_cases hl : l = k
  · subst hl
    rw [Json.find?_eraseKey_self] at hu
    cases hu
  · rw [Json.find?_eraseKey_of_ne hl] at hu
    exact h.find? hu

theorem PlainKeys.writeAt (h : PlainKeys v) (hp : ∀ k ∈ p, k ≠ "" ∧ '.' ∉ k.toList)
    (hw : PlainKeys w) : PlainKeys (v.writeAt p w) := by
  induction p generalizing v with
  | nil => exact hw
  | cons k p ih =>
    obtain ⟨hk, hp⟩ := List.forall_mem_cons.mp hp
    exact h.put hk (ih h.getD hp)

theorem PlainKeys.create (h : PlainKeys v) (hv : v.Sorted)
    (hp : ∀ k ∈ p, k ≠ "" ∧ '.' ∉ k.toList) : PlainKeys (v.create p).1 := by
  rw [Json.create_eq hv]
  split
  · exact h.writeAt hp (plainKeys_of_members rfl)
  · exact h

theorem PlainKeys.removeAt (h : PlainKeys v) : PlainKeys (v.removeAt p).1 := by
  induction p generalizing v with
  | nil => exact h
  | cons k p ih =>
    by_cases hp : p = []
    · subst hp
      rw [Json.removeAt]
      split
      · exact h.eraseKey
      · exact h
    · rw [Json.removeAt_cons_of_ne_nil hp]
      cases hw : v.find? k with
      | none => exact h
      | some w =>
        obtain ⟨hk, hplain⟩ := h.find? hw
        exact h.put hk (ih hplain)

theorem PlainKeys.mergePatch (hpatch : patch.Sorted) (h : PlainKeys patch) (ht : PlainKeys t) :
    PlainKeys (t.mergePatch patch) := by
  induction hpatch generalizing t with
  | object hms hvs ih =>
    refine .of_find? fun k w hw => ?_
    rw [Json.find?_mergePatch_object hms] at hw
    cases hsub : List.lookup k _ with
    | none =>
      rw [hsub] at hw
      exact ht.find? hw
    | some sub =>
      rw [hsub, Json.patched] at hw
      split at hw
      · cases hw
      · obtain ⟨hk, hplain⟩ := h.find? hsub
        refine ⟨hk, Option.some.inj hw ▸ ?_⟩
        exact ih (k, sub) (Members.mem_of_lookup hsub) hplain ht.getD
  | _ => exact plainKeys_of_members rfl

theorem PlainKeys.merged (hv : v.Sorted) (h : PlainKeys v) (ht : PlainKeys t) :
    PlainKeys (t.merged v) := by
  induction hv generalizing t with
  | object hms hvs ih =>
    refine .of_find? fun k w hw => ?_
    rw [Json.find?_merged_object hms] at hw
    cases hsub : List.lookup k _ with
    | none =>
      rw [hsub] at hw
      exact ht.find? hw
    | some sub =>
      rw [hsub] at hw
      obtain ⟨hk, hplain⟩ := h.find? hsub
      refine ⟨hk, Option.some.inj hw ▸ ?_⟩
      exact ih (k, sub) (Members.mem_of_lookup hsub) hplain ht.getD
  | _ =>
    rw [Json.merged_of_value rfl]
    exact plainKeys_of_members rfl

/-! ## Listing and counting -/

/-- The key that a path is listed as. -/
def dotted (p : List String) : String := p.foldl fullKey ""

mutual

theorem traverseMember_star : ∀ (above : String) (m : String × Json),
    traverseMember "*" above m = (Json.nodesMember m).map fun e => e.1.foldl fullKey above
  | above, (key, .object ms) => by
    rw [traverseMember, Json.nodesMember, traverse_star, List.map_cons, List.map_map]
    rfl
  | above, (key, .null) => by simp [traverseMember, Json.nodesMember, matchesPattern_star]
  | above, (key, .boolean b) => by simp [traverseMember, Json.nodesMember, matchesPattern_star]
  | above, (key, .integer z) => by simp [traverseMember, Json.nodesMember, matchesPattern_star]
  | above, (key, .float q) => by simp [traverseMember, Json.nodesMember, matchesPattern_star]
  | above, (key, .string s) => by simp [traverseMember, Json.nodesMember, matchesPattern_star]
  | above, (key, .array xs) => by simp [traverseMember, Json.nodesMember, matchesPattern_star]

/-- **The traversal names every node below an object.** -/
theorem traverse_star : ∀ (above : String) (ms : List (String × Json)),
    traverse "*" above ms = (Json.nodes ms).map fun e => e.1.foldl fullKey above
  | above, [] => by rw [traverse, Json.nodes, List.map_nil]
  | above, m :: ms => by
    rw [traverse, Json.nodes, traverseMember_star, traverse_star, List.map_append]

end

mutual

/-- A member and the members below it. -/
def countMember : String × Json → ℕ
  | (_, .object ms) => 1 + countMembers ms
  | _ => 1

/-- The members at any depth of nested objects. -/
def countMembers : List (String × Json) → ℕ
  | [] => 0
  | m :: ms => countMember m + countMembers ms

end

mutual

theorem countMember_eq : ∀ m : String × Json, countMember m = (Json.nodesMember m).length
  | (key, .object ms) => by
    rw [countMember, Json.nodesMember, countMembers_eq, List.length_cons, List.length_map,
      Nat.add_comm]
  | (key, .null) => by simp [countMember, Json.nodesMember]
  | (key, .boolean b) => by simp [countMember, Json.nodesMember]
  | (key, .integer z) => by simp [countMember, Json.nodesMember]
  | (key, .float q) => by simp [countMember, Json.nodesMember]
  | (key, .string s) => by simp [countMember, Json.nodesMember]
  | (key, .array xs) => by simp [countMember, Json.nodesMember]

theorem countMembers_eq : ∀ ms : List (String × Json), countMembers ms = (Json.nodes ms).length
  | [] => by rw [countMembers, Json.nodes, List.length_nil]
  | m :: ms => by
    rw [countMembers, Json.nodes, countMember_eq, countMembers_eq, List.length_append]

end

namespace Store

/-- `getKeyCount()`; the elements of an array are counted as the members of an object are, and a
primitive value is iterated over once. -/
def getKeyCount (c : Store) : ℕ :=
  match c.configData.1 with
  | .object ms => countMembers ms
  | .array xs => countMembers (xs.map fun x => ("", x))
  | .null => 0
  | _ => 1

/-- The node that `getJsonPointer(key)` points to, told from the others by its path. -/
def getAddress (c : Store) (key : String) : Option (List String) :=
  (c.getJsonPointer key).map fun _ => splitKey key

/-- The list has the key of every path of the nested objects once, and each key of it finds the node
it was listed for. -/
structure ListsKeys (c : Store) (keys : List String) : Prop where
  listed : ∀ key ∈ keys, ∃ p, p ≠ [] ∧ (c.configData.1.at? p).isSome ∧ key = dotted p
  once (p : List String) : p ≠ [] → (c.configData.1.at? p).isSome → keys.count (dotted p) = 1
  has : ∀ key ∈ keys, c.has key = true
  found (p : List String) (node : Json) : p ≠ [] → c.configData.1.at? p = some node →
    c.getAddress (dotted p) = some p ∧ c.getJsonPointer (dotted p) = some node
  keyCount : c.getKeyCount = keys.length

/-- `getKeys("*")` agrees with the lookups. -/
def KeysAgree (c : Store) : Prop := ∃ keys, c.getKeys "*" = some keys ∧ c.ListsKeys keys

/-- The keys of an object, and their number. -/
theorem getKeys_star (h : c.configData.1.isObject = true) :
    c.getKeys "*" = some ((Json.nodes c.configData.1.members).map fun e => dotted e.1) ∧
      c.getKeyCount = (Json.nodes c.configData.1.members).length := by
  obtain ⟨ms, hms⟩ : ∃ ms, c.configData.1 = .object ms := by
    cases hv : c.configData.1 with
    | object ms => exact ⟨ms, rfl⟩
    | _ => exact absurd (hv ▸ h) (by simp [Json.isObject])
  rw [getKeys, getKeyCount, hms]
  exact ⟨congrArg some (traverse_star "" ms), countMembers_eq ms⟩

/-- A key that is split into parts other than its path does not find the node of the path. -/
theorem ListsKeys.splitKey_dotted {keys : List String} (h : c.ListsKeys keys) (hp : p ≠ [])
    (hat : (c.configData.1.at? p).isSome) : splitKey (dotted p) = p := by
  obtain ⟨node, hnode⟩ := Option.isSome_iff_exists.mp hat
  obtain ⟨-, -, hpath⟩ := Option.map_eq_some_iff.mp (h.found p node hp hnode).1
  exact hpath

end Store

theorem not_mem_of_mem_splitOn {text : List Char} : ∀ part ∈ text.splitOn '.', '.' ∉ part := by
  induction text with
  | nil => simp
  | cons x text ih =>
    rw [List.splitOn_cons_eq_if_modifyHead]
    split
    · simpa using ih
    next hx =>
      obtain ⟨part, parts, hsplit⟩ := List.exists_cons_of_ne_nil (List.splitOn_ne_nil '.' text)
      have hne : '.' ≠ x := fun heq => hx (by rw [← heq]; rfl)
      simpa [hsplit, hne] using ih

/-- The parts of a split key have no dots, and are not empty. -/
theorem plain_of_mem_splitKey (h : k ∈ splitKey key) : k ≠ "" ∧ '.' ∉ k.toList := by
  obtain ⟨part, hpart, rfl⟩ := List.mem_map.mp h
  obtain ⟨hpart, hne⟩ := List.mem_filter.mp hpart
  refine ⟨?_, by rw [String.toList_ofList]; exact not_mem_of_mem_splitOn part hpart⟩
  rintro hempty
  have hnil := congrArg String.toList hempty
  rw [String.toList_ofList] at hnil
  rw [hnil] at hne
  exact absurd hne (by simp)

theorem dotted_injOn {q : List String} (hp : p ≠ []) (hq : q ≠ [])
    (hplain : ∀ k ∈ p, k ≠ "" ∧ '.' ∉ k.toList) (hplain' : ∀ k ∈ q, k ≠ "" ∧ '.' ∉ k.toList)
    (h : dotted p = dotted q) : p = q := by
  rw [← splitKey_foldl_fullKey hp hplain, ← splitKey_foldl_fullKey hq hplain']
  exact congrArg splitKey h

namespace Store

/-- **The keys agree with the lookups exactly if no name is empty or has a dot.** -/
theorem keysAgree_iff (h : c.configData.1.isObject = true) :
    c.KeysAgree ↔ PlainKeys c.configData.1 := by
  obtain ⟨hkeys, hcount⟩ := getKeys_star h
  constructor
  · rintro ⟨keys, -, hlists⟩ p hat k hk
    have hp : p ≠ [] := List.ne_nil_of_mem hk
    exact plain_of_mem_splitKey ((hlists.splitKey_dotted hp hat).symm ▸ hk)
  · intro hplain
    have hnode {e : List String × Json} (he : e ∈ Json.nodes c.configData.1.members) :
        e.1 ≠ [] ∧ c.configData.1.at? e.1 = some e.2 := (Json.mem_nodes_iff c.configData.2).mp he
    have hpointer (p : List String) (hp : p ≠ []) (node : Json)
        (hat : c.configData.1.at? p = some node) :
        splitKey (dotted p) = p ∧ c.getJsonPointer (dotted p) = some node := by
      have hsplit : splitKey (dotted p) = p :=
        splitKey_foldl_fullKey hp (hplain p (by rw [hat]; rfl))
      exact ⟨hsplit, by rw [getJsonPointer, hsplit, if_neg hp, hat]⟩
    refine ⟨_, hkeys, ?_, fun p hp hat => ?_, ?_, fun p node hp hat => ?_, ?_⟩
    · intro key hkey
      obtain ⟨e, he, rfl⟩ := List.mem_map.mp hkey
      exact ⟨e.1, (hnode he).1, by rw [(hnode he).2]; rfl, rfl⟩
    · obtain ⟨node, hat'⟩ := Option.isSome_iff_exists.mp hat
      have hmem : (p, node) ∈ Json.nodes c.configData.1.members :=
        (Json.mem_nodes_iff c.configData.2).mpr ⟨hp, hat'⟩
      refine List.count_eq_one_of_mem ?_ (List.mem_map.mpr ⟨_, hmem, rfl⟩)
      have hpaths : (Json.nodes c.configData.1.members).map (fun e => dotted e.1) =
          ((Json.nodes c.configData.1.members).map Prod.fst).map dotted := by
        rw [List.map_map]
        rfl
      rw [hpaths]
      refine (Json.nodup_nodes c.configData.2).map_on fun q hq r hr heq => ?_
      obtain ⟨e, he, rfl⟩ := List.mem_map.mp hq
      obtain ⟨f, hf, rfl⟩ := List.mem_map.mp hr
      exact dotted_injOn (hnode he).1 (hnode hf).1 (hplain e.1 (by rw [(hnode he).2]; rfl))
        (hplain f.1 (by rw [(hnode hf).2]; rfl)) heq
    · intro key hkey
      obtain ⟨e, he, rfl⟩ := List.mem_map.mp hkey
      rw [has, (hpointer e.1 (hnode he).1 e.2 (hnode he).2).2]
      rfl
    · obtain ⟨hsplit, hget⟩ := hpointer p hp node hat
      exact ⟨by rw [getAddress, hget, hsplit]; rfl, hget⟩
    · rw [hcount, List.length_map]

end Store

/-! ## The names that come in -/

/-- A variable whose key has no empty part, but for the last, makes no empty name. -/
theorem PlainKeys.setNested {j : Json} (h : PlainKeys t) (hv : PlainKeys v)
    (hp : ∀ k ∈ p, '.' ∉ k.toList) (hparts : "" ∉ p.dropLast)
    (hj : Json.setNested p v t = some j) : PlainKeys j := by
  induction p generalizing t j with
  | nil => exact Option.some.inj hj ▸ hv
  | cons part parts ih =>
    by_cases hpart : part :: parts = [""]
    · rw [hpart, Json.setNested] at hj
      exact Option.some.inj hj ▸ h
    · obtain ⟨-, node, hnode, rfl⟩ := (Json.setNested_cons_eq_some hpart).mp hj
      obtain ⟨hdot, hp⟩ := List.forall_mem_cons.mp hp
      by_cases hparts' : parts = []
      · subst hparts'
        have hne : part ≠ "" := fun heq => hpart (by rw [heq])
        exact h.put ⟨hne, hdot⟩ (ih h.getD hp (by simp) hnode)
      · rw [List.dropLast_cons_of_ne_nil hparts', List.mem_cons, not_or] at hparts
        exact h.put ⟨Ne.symm hparts.1, hdot⟩ (ih h.getD hp hparts.2 hnode)

/-- A call that changes the configuration; `load` is `loadFromFile` and `loadFromString`, with the
document that was read. -/
inductive Call
  | load (jsonData : Document) (mergeWithExisting : Bool)
  | loadFromEnvironment (environ : List String) (envPrefix : String) (mergeWithExisting : Bool)
  | set (key : String) (value : Option Document) (validate : Bool)
  | applyUpdates (updates : Document) (validate : Bool)
  | remove (key : String)

variable {parse : String → Option Document} {environ : List String} {envPrefix : String}

/-- The call brings in no name that is empty or has a dot. -/
def Call.Plain (parse : String → Option Document) : Call → Prop
  | load jsonData _ => PlainKeys jsonData.1
  | loadFromEnvironment environ envPrefix _ => ∀ v ∈ matching parse environ envPrefix,
      "" ∉ v.path.dropLast ∧ PlainKeys v.value.1
  | set _ value _ => ∀ v, value = some v → PlainKeys v.1
  | applyUpdates updates _ => PlainKeys updates.1
  | remove _ => True

namespace Store

/-- What a call leaves behind. -/
def call (parse : String → Option Document) (c : Store) : Call → Store
  | .load jsonData merge => (c.loadFromJson jsonData merge).store
  | .loadFromEnvironment environ envPrefix merge =>
    (c.loadFromEnvironment parse environ envPrefix merge).store
  | .set key value validate => (c.set key value validate).store
  | .applyUpdates updates validate => (c.applyUpdates updates validate).store
  | .remove key => (c.remove key).store

/-- A configuration that begins empty, and the calls on it. -/
def calls (parse : String → Option Document) : Machine Store Call where
  init c := c.configData = .null
  step c call := some (c.call parse call)

theorem plainKeys_envConfig {j : Json} (h : (Call.loadFromEnvironment environ envPrefix true).Plain parse)
    (hj : envConfig parse environ envPrefix = some j) : PlainKeys j := by
  have hentries (es : List (List String × Json))
      (hes : ∀ e ∈ es, e ∈ entries parse environ envPrefix) (t : Json) (ht : PlainKeys t)
      (hj : es.foldlM Json.enter t = some j) : PlainKeys j := by
    induction es generalizing t with
    | nil => exact Option.some.inj hj ▸ ht
    | cons e es ih =>
      obtain ⟨he, hrest⟩ := List.forall_mem_cons.mp hes
      rw [List.foldlM_cons] at hj
      obtain ⟨node, hnode, hnext⟩ := Option.bind_eq_some_iff.mp hj
      obtain ⟨v, hv, rfl⟩ := List.mem_map.mp he
      obtain ⟨hparts, hvalue⟩ := h v hv
      refine ih hrest node (ht.setNested hvalue (fun k hk => ?_) hparts hnode) hnext
      obtain ⟨part, hpart, rfl⟩ := List.mem_map.mp hk
      rw [String.toList_ofList]
      exact not_mem_of_mem_splitOn part hpart
  exact hentries _ (fun _ => id) .null (plainKeys_of_members rfl) hj

theorem plainKeys_loadFromJson {jsonData : Document} {merge : Bool} (h : PlainKeys c.configData.1)
    (hdata : PlainKeys jsonData.1) :
    PlainKeys (c.loadFromJson jsonData merge).store.configData.1 := by
  rw [loadFromJson_eq]
  cases merge with
  | true => exact hdata.mergePatch jsonData.2 h
  | false => exact hdata

/-- **Only names that come in with a call are there.** -/
theorem plainKeys_call {a : Call} (h : PlainKeys c.configData.1) (ha : a.Plain parse) :
    PlainKeys (c.call parse a).configData.1 := by
  cases a with
  | load jsonData merge => exact plainKeys_loadFromJson h ha
  | loadFromEnvironment environ envPrefix merge =>
    change PlainKeys (c.loadFromEnvironment parse environ envPrefix merge).store.configData.1
    cases hconfig : envConfig parse environ envPrefix with
    | none =>
      rw [loadFromEnvironment_of_none hconfig]
      exact h
    | some j =>
      have hj : PlainKeys j := plainKeys_envConfig ha hconfig
      rw [loadFromEnvironment_of_some hconfig, ← loadFromJson_eq]
      exact plainKeys_loadFromJson h hj
  | set key value validate =>
    change PlainKeys (c.set key value validate).store.configData.1
    have hcreate : PlainKeys (c.configData.create (splitKey key)).1 :=
      h.create c.configData.2 fun k hk => plain_of_mem_splitKey hk
    cases hreturned : (c.set key value validate).returned with
    | false =>
      obtain ⟨-, htree | ⟨-, htree⟩⟩ := set_of_not_returned hreturned
      · rw [htree]
        exact h
      · rw [htree]
        exact hcreate
    | true =>
      obtain ⟨-, v, hv, htree⟩ := set_of_returned hreturned
      rw [htree]
      exact hcreate.writeAt (fun k hk => plain_of_mem_splitKey hk) (ha v hv)
  | applyUpdates updates validate =>
    change PlainKeys (c.applyUpdates updates validate).store.configData.1
    rcases c.merge_cases updates with ⟨-, -, hmerge⟩ | ⟨-, hmerge⟩ | ⟨-, hmerge⟩
    · rw [applyUpdates_of_merged validate hmerge]
      exact PlainKeys.merged updates.2 ha h
    · rw [applyUpdates_of_nothing validate hmerge]
      exact h
    · rw [applyUpdates_of_threw validate hmerge]
      exact h
  | remove key => exact h.removeAt

theorem plainKeys_of_reachable (h : (calls parse).ReachableUnder (fun _ a => a.Plain parse) c) :
    PlainKeys c.configData.1 := by
  refine h.invariant (I := fun c => PlainKeys c.configData.1) ⟨fun s hs => ?_, fun s a t hI ha hst => ?_⟩
  · rw [hs]
    exact plainKeys_of_members rfl
  · exact Option.some.inj hst ▸ plainKeys_call hI ha

/-- **The listed keys and the lookups agree exactly where no name is empty or has a dot**, and so
they do throughout a run that brings no such name in. -/
theorem keysAgree (parse : String → Option Document) :
    (∀ c : Store, c.configData.1.isObject = true →
      (c.KeysAgree ↔ PlainKeys c.configData.1)) ∧
    ∀ c, (calls parse).ReachableUnder (fun _ a => a.Plain parse) c →
      c.configData.1.isObject = true → c.KeysAgree :=
  ⟨fun _ h => keysAgree_iff h, fun _ hc h => (keysAgree_iff h).mpr (plainKeys_of_reachable hc)⟩

/-- A configuration that has loaded `{"motor.rate": 5}`. -/
def dottedRate : Store := { configData := Document.null.put "motor.rate" ⟨.integer 5, .integer 5⟩ }

/-- A name with a dot is listed, and not found. -/
theorem listed_key_not_found :
    (calls fun _ => none).Reachable dottedRate ∧ dottedRate.configData.1.isObject = true ∧
      dottedRate.getKeys "*" = some ["motor.rate"] ∧ dottedRate.has "motor.rate" = false ∧
      ¬ dottedRate.KeysAgree := by
  have hreach : (calls fun _ => none).Reachable dottedRate := by
    have hinit : (calls fun _ => none).init {} := rfl
    refine .step (.load dottedRate.configData false) (.init hinit) trivial ?_
    exact congrArg some (congrArg Response.store (loadFromJson_eq {} dottedRate.configData false))
  have hkeys : dottedRate.getKeys "*" = some ["motor.rate"] := by decide +kernel
  have hhas : dottedRate.has "motor.rate" = false := by decide +kernel
  refine ⟨hreach, rfl, hkeys, hhas, fun ⟨keys, hstar, hlists⟩ => ?_⟩
  obtain rfl : ["motor.rate"] = keys := Option.some.inj (hkeys.symm.trans hstar)
  exact absurd (hlists.has "motor.rate" List.mem_cons_self) (by rw [hhas]; exact Bool.noConfusion)

end Store

end Configuration

end AxonVex
