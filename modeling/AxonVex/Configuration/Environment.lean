import AxonVex.Configuration.Updates

/-!
# Configuration/Environment — a document built from environment variables

    environ ──matching──▸ keys with values ──setNested──▸ envConfig ──merge_patch──▸ configuration

Each matching variable walks the parts of its key and writes its value at the last one; an empty
last part writes nothing and leaves `null` at the node before it, and without a write the document
is `null` itself.  The patch erases what is below such a node (`Json.at?_mergePatch_of_erases`), and
spares every other path that no variable is on (`Json.at?_mergePatch_of_spares`).
-/

namespace AxonVex

open Machinery

namespace Json

variable {j t v patch root : Json} {k x : String} {p q w : List String}
  {es : List (List String × Json)}

/-- `setNested(root, dotted_key, value)`, on the parts of the key; `operator[]` throws at an array
and at a primitive value, and a last part that is empty is not reached. -/
def setNested : List String → Json → Json → Option Json
  | [], value, _ => some value
  | [""], _, root => some root
  | part :: parts, value, root =>
    if root.indexable then
      (setNested parts value ((root.find? part).getD null)).map (root.put part)
    else none

/-- The entry of a variable. -/
def enter (root : Json) (e : List String × Json) : Option Json := setNested e.1 e.2 root

theorem setNested_cons {part : String} {parts : List String} (h : part :: parts ≠ [""]) :
    setNested (part :: parts) v root =
      if root.indexable then
        (setNested parts v ((root.find? part).getD null)).map (root.put part)
      else none := by
  rw [setNested]
  rintro rfl rfl
  exact h rfl

/-- What a step along the first part has done. -/
theorem setNested_cons_eq_some {part : String} {parts : List String} (h : part :: parts ≠ [""]) :
    setNested (part :: parts) v root = some j ↔
      root.indexable ∧ ∃ node, setNested parts v ((root.find? part).getD null) = some node ∧
        j = root.put part node := by
  rw [setNested_cons h]
  cases root.indexable with
  | true => simp [eq_comm]
  | false => simp

theorem Sorted.setNested (h : root.Sorted) (hv : v.Sorted) (hj : setNested p v root = some j) :
    j.Sorted := by
  induction p generalizing root j with
  | nil => exact Option.some.inj hj ▸ hv
  | cons part parts ih =>
    by_cases hpart : part :: parts = [""]
    · rw [hpart, Json.setNested] at hj
      exact Option.some.inj hj ▸ h
    · obtain ⟨-, node, hnode, rfl⟩ := (setNested_cons_eq_some hpart).mp hj
      exact h.put (ih h.getD hnode)

theorem Sorted.foldlM_enter (h : root.Sorted) (hes : ∀ e ∈ es, e.2.Sorted)
    (hj : es.foldlM enter root = some j) : j.Sorted := by
  induction es generalizing root with
  | nil => exact Option.some.inj hj ▸ h
  | cons e es ih =>
    obtain ⟨he, hes⟩ := List.forall_mem_cons.mp hes
    rw [List.foldlM_cons] at hj
    obtain ⟨node, hnode, hj⟩ := Option.bind_eq_some_iff.mp hj
    exact ih (h.setNested he hnode) hes hj

/-! ## Patches along a path -/

/-- The patch does not reach the path. -/
def Spares : Json → List String → Prop
  | _, [] => False
  | patch, key :: keys =>
    patch.isObject = true ∧ ∀ sub, patch.find? key = some sub → sub.Spares keys

/-- The patch has `null` above the path. -/
def Erases : Json → List String → Prop
  | _, [] => False
  | patch, key :: keys => patch = null ∨ ∃ sub, patch.find? key = some sub ∧ sub.Erases keys

theorem at?_mergePatch_of_spares (hpatch : patch.Sorted) (h : patch.Spares q) :
    (t.mergePatch patch).at? q = t.at? q := by
  induction q generalizing t patch with
  | nil => exact h.elim
  | cons key keys ih =>
    obtain ⟨hobject, hspares⟩ := h
    cases patch with
    | object ms =>
      have hms : Members.Sorted ms := hpatch.sorted_members
      rw [at?_cons, find?_mergePatch_object hms, at?_cons]
      cases hsub : ms.lookup key with
      | none => rfl
      | some sub =>
        have hkeys : sub.Spares keys := hspares sub hsub
        have hne : keys ≠ [] := by
          rintro rfl
          exact hkeys
        have hnull : sub.isNull = false := by
          cases sub with
          | null =>
            cases keys with
            | nil => exact hkeys.elim
            | cons l keys => exact absurd hkeys.1 (by simp [isObject])
          | _ => rfl
        rw [patched, hnull, if_neg Bool.false_ne_true, Option.bind_some,
          ih (hpatch.find? hsub) hkeys, at?_getD hne]
    | _ => exact absurd hobject (by simp [isObject])

theorem at?_mergePatch_of_erases (hpatch : patch.Sorted) (h : patch.Erases q) :
    (t.mergePatch patch).at? q = none := by
  induction q generalizing t patch with
  | nil => exact h.elim
  | cons key keys ih =>
    rcases h with rfl | ⟨sub, hsub, herases⟩
    · rfl
    · obtain ⟨ms, rfl⟩ : ∃ ms, patch = object ms := ⟨_, eq_object_of_find? hsub⟩
      have hlookup : ms.lookup key = some sub := hsub
      have hms : Members.Sorted ms := hpatch.sorted_members
      rw [at?_cons, find?_mergePatch_object hms, hlookup, patched]
      split
      · rfl
      · exact ih (hpatch.find? hsub) herases

/-! ## Entries below a member -/

/-- What an entry does below the member `x`. -/
def tailOf (x : String) (e : List String × Json) : Option (List String × Json) :=
  match e.1 with
  | [] => none
  | [""] => none
  | part :: parts => if part = x then some (parts, e.2) else none

/-- What the entries do below the member `x`. -/
def tails (x : String) (es : List (List String × Json)) : List (List String × Json) :=
  es.filterMap (tailOf x)

theorem tailOf_eq_some {e f : List String × Json} :
    tailOf x e = some f ↔ e.1 = x :: f.1 ∧ e.1 ≠ [""] ∧ e.2 = f.2 := by
  obtain ⟨p, v⟩ := e
  obtain ⟨q, w⟩ := f
  unfold tailOf
  split
  next h => simp_all
  next h => simp_all
  next part parts hne h =>
    obtain rfl : p = part :: parts := h
    by_cases hx : part = x
    · have hpart : x = "" → parts ≠ [] := fun hempty => hne (hx.trans hempty)
      simpa [hx] using fun (_ : parts = q) (_ : v = w) => hpart
    · simp [hx]

/-- **The entries build each member by themselves.** -/
theorem find?_foldlM_enter (hes : ∀ e ∈ es, e.1 ≠ []) (h : es.foldlM enter root = some j) :
    ∃ node, (tails x es).foldlM enter ((root.find? x).getD null) = some node ∧
      j.find? x = if tails x es = [] then root.find? x else some node := by
  induction es generalizing root with
  | nil =>
    obtain rfl : root = j := Option.some.inj h
    exact ⟨_, rfl, rfl⟩
  | cons e es ih =>
    obtain ⟨he, hes⟩ := List.forall_mem_cons.mp hes
    rw [List.foldlM_cons] at h
    obtain ⟨next, hnext, h⟩ := Option.bind_eq_some_iff.mp h
    obtain ⟨node, hnode, hj⟩ := ih hes h
    rw [enter] at hnext
    cases hpath : e.1 with
    | nil => exact absurd hpath he
    | cons part parts =>
      rw [hpath] at hnext
      by_cases hpart : part :: parts = [""]
      · -- nothing is written
        rw [hpart, setNested] at hnext
        obtain ⟨⟩ := hnext
        have hskip : tails x (e :: es) = tails x es := by
          refine List.filterMap_cons_none (Option.eq_none_iff_forall_ne_some.mpr fun f hf => ?_)
          exact (tailOf_eq_some.mp hf).2.1 (hpath.trans hpart)
        rw [hskip]
        exact ⟨node, hnode, hj⟩
      · obtain ⟨-, child, hchild, rfl⟩ := (setNested_cons_eq_some hpart).mp hnext
        by_cases hx : part = x
        · subst hx
          rw [find?_put_self] at hnode hj
          have htail : tails part (e :: es) = (parts, e.2) :: tails part es :=
            List.filterMap_cons_some
              (tailOf_eq_some.mpr ⟨hpath, by rw [hpath]; exact hpart, rfl⟩)
          rw [htail]
          refine ⟨node, ?_, ?_⟩
          · rw [List.foldlM_cons, enter, hchild]
            exact hnode
          · rw [if_neg (List.cons_ne_nil _ _), hj]
            split
            next hnil =>
              rw [hnil] at hnode
              exact hnode
            · rfl
        · rw [find?_put_of_ne (Ne.symm hx)] at hnode hj
          have hskip : tails x (e :: es) = tails x es := by
            refine List.filterMap_cons_none (Option.eq_none_iff_forall_ne_some.mpr fun f hf => ?_)
            obtain ⟨heq, -, -⟩ := tailOf_eq_some.mp hf
            rw [hpath] at heq
            exact hx (List.cons.inj heq).1
          rw [hskip]
          exact ⟨node, hnode, hj⟩

theorem isObject_foldlM_enter (hes : ∀ e ∈ es, e.1 ≠ []) (hroot : root.isObject = true)
    (h : es.foldlM enter root = some j) : j.isObject = true := by
  induction es generalizing root with
  | nil => exact Option.some.inj h ▸ hroot
  | cons e es ih =>
    obtain ⟨he, hes⟩ := List.forall_mem_cons.mp hes
    rw [List.foldlM_cons] at h
    obtain ⟨next, hnext, h⟩ := Option.bind_eq_some_iff.mp h
    refine ih hes ?_ h
    rw [enter] at hnext
    cases hpath : e.1 with
    | nil => exact absurd hpath he
    | cons part parts =>
      rw [hpath] at hnext
      by_cases hpart : part :: parts = [""]
      · rw [hpart, setNested] at hnext
        exact Option.some.inj hnext ▸ hroot
      · obtain ⟨-, child, -, rfl⟩ := (setNested_cons_eq_some hpart).mp hnext
        rfl

/-- The entries make an object, unless none of them has a part. -/
theorem foldlM_enter_cases (hes : ∀ e ∈ es, e.1 ≠ []) (h : es.foldlM enter root = some j) :
    (∀ e ∈ es, e.1 = [""]) ∧ j = root ∨ (∃ e ∈ es, e.1 ≠ [""]) ∧ j.isObject = true := by
  induction es generalizing root with
  | nil => exact .inl ⟨fun _ he => absurd he List.not_mem_nil, (Option.some.inj h).symm⟩
  | cons e es ih =>
    obtain ⟨he, hes⟩ := List.forall_mem_cons.mp hes
    rw [List.foldlM_cons] at h
    obtain ⟨next, hnext, h⟩ := Option.bind_eq_some_iff.mp h
    rw [enter] at hnext
    cases hpath : e.1 with
    | nil => exact absurd hpath he
    | cons part parts =>
      rw [hpath] at hnext
      by_cases hpart : part :: parts = [""]
      · rw [hpart, setNested] at hnext
        obtain ⟨⟩ := hnext
        rcases ih hes h with ⟨hall, hj⟩ | ⟨⟨f, hf, hne⟩, hj⟩
        · exact .inl ⟨List.forall_mem_cons.mpr ⟨hpath.trans hpart, hall⟩, hj⟩
        · exact .inr ⟨⟨f, List.mem_cons_of_mem e hf, hne⟩, hj⟩
      · obtain ⟨-, child, -, rfl⟩ := (setNested_cons_eq_some hpart).mp hnext
        exact .inr ⟨⟨e, List.mem_cons_self, hpath ▸ hpart⟩, isObject_foldlM_enter hes rfl h⟩

/-! ## Paths that no entry is on -/

/-- No path leads to the other one, or through its end. -/
def Untouched (paths : List (List String)) (q : List String) : Prop := ∀ p ∈ paths, Apart p q

/-- The node at the end of `w` is left `null`: a path ends there with an empty part, or it is the
root, and no other path leads on. -/
def NullPoint (paths : List (List String)) (w : List String) : Prop :=
  (w = [] ∨ w ++ [""] ∈ paths) ∧ ∀ p ∈ paths, ¬ Apart p w → p = w ++ [""]

/-- There is such a node above the path. -/
def Nulled (paths : List (List String)) (q : List String) : Prop :=
  ∃ w, w <+: q ∧ NullPoint paths w

theorem mem_map_tails : p ∈ (tails x es).map Prod.fst ↔
    x :: p ∈ es.map Prod.fst ∧ x :: p ≠ [""] := by
  constructor
  · intro hp
    obtain ⟨f, hf, rfl⟩ := List.mem_map.mp hp
    obtain ⟨e, he, hef⟩ := List.mem_filterMap.mp hf
    obtain ⟨hpath, hne, -⟩ := tailOf_eq_some.mp hef
    exact ⟨List.mem_map.mpr ⟨e, he, hpath⟩, hpath ▸ hne⟩
  · rintro ⟨hp, hne⟩
    obtain ⟨e, he, hpath⟩ := List.mem_map.mp hp
    exact List.mem_map.mpr ⟨(p, e.2), List.mem_filterMap.mpr
      ⟨e, he, tailOf_eq_some.mpr ⟨hpath, hpath ▸ hne, rfl⟩⟩, rfl⟩

/-- Paths apart from one with the first part `x` are not the empty part alone, if that is `x`. -/
theorem Untouched.ne_of_head {paths : List (List String)} (h : Untouched paths (x :: q))
    (hp : x :: p ∈ paths) : x :: p ≠ [""] := by
  intro heq
  refine (h _ hp).1 ?_
  rw [heq, ← (List.cons.inj heq).1]
  exact List.cons_prefix_cons.mpr ⟨rfl, List.nil_prefix⟩

theorem Untouched.tails (h : Untouched (es.map Prod.fst) (x :: q)) :
    Untouched ((tails x es).map Prod.fst) q :=
  fun p hp => apart_cons_iff.mp (h (x :: p) (mem_map_tails.mp hp).1) rfl

/-- **A path is under a null node of the whole, or of what is done below its first part.** -/
theorem nulled_cons_iff (h : Untouched (es.map Prod.fst) (x :: q)) :
    Nulled (es.map Prod.fst) (x :: q) ↔
      (∀ e ∈ es, e.1 = [""]) ∨
        tails x es ≠ [] ∧ Nulled ((tails x es).map Prod.fst) q := by
  constructor
  · rintro ⟨w, hw, hplace, hothers⟩
    cases w with
    | nil =>
      exact .inl fun e he => hothers e.1 (List.mem_map_of_mem he) fun hapart =>
        not_apart_nil hapart.symm
    | cons y w =>
      obtain ⟨rfl, hprefix⟩ := List.cons_prefix_cons.mp hw
      have hmem : w ++ [""] ∈ (tails y es).map Prod.fst := by
        refine mem_map_tails.mpr ⟨hplace.resolve_left (List.cons_ne_nil y w), ?_⟩
        simp
      have hne : tails y es ≠ [] := by
        intro hnil
        rw [hnil] at hmem
        exact absurd hmem List.not_mem_nil
      refine .inr ⟨hne, w, hprefix, .inr hmem, fun p hp hcomparable => ?_⟩
      have hwhole := hothers (y :: p) (mem_map_tails.mp hp).1 fun hapart =>
        hcomparable (apart_cons_iff.mp hapart rfl)
      exact (List.cons.inj hwhole).2
  · rintro (hall | ⟨hne, w, hw, hplace, hothers⟩)
    · refine ⟨[], List.nil_prefix, .inl rfl, fun p hp _ => ?_⟩
      obtain ⟨e, he, rfl⟩ := List.mem_map.mp hp
      exact hall e he
    · have hmem : w ++ [""] ∈ (tails x es).map Prod.fst := by
        rcases hplace with rfl | hmem
        · obtain ⟨f, hf⟩ := List.exists_mem_of_ne_nil _ hne
          have hpath : f.1 ∈ (tails x es).map Prod.fst := List.mem_map_of_mem hf
          rw [hothers f.1 hpath fun hapart => not_apart_nil hapart.symm] at hpath
          exact hpath
        · exact hmem
      refine ⟨x :: w, List.cons_prefix_cons.mpr ⟨rfl, hw⟩, .inr (mem_map_tails.mp hmem).1,
        fun p hp hcomparable => ?_⟩
      cases p with
      | nil => exact absurd (h [] hp) not_apart_nil
      | cons y p =>
        by_cases hyx : y = x
        · subst hyx
          have htail : p ∈ (tails y es).map Prod.fst :=
            mem_map_tails.mpr ⟨hp, h.ne_of_head hp⟩
          rw [hothers p htail fun hapart => hcomparable (apart_cons_iff.mpr fun _ => hapart)]
          rfl
        · exact absurd (apart_cons_iff.mpr fun heq => absurd heq hyx) hcomparable

/-- **The entries leave an untouched path alone, or `null` above it.** -/
theorem erases_or_spares (hq : q ≠ []) (h : Untouched (es.map Prod.fst) q)
    (hj : es.foldlM enter null = some j) :
    (Nulled (es.map Prod.fst) q → j.Erases q) ∧ (¬ Nulled (es.map Prod.fst) q → j.Spares q) := by
  induction q generalizing es j with
  | nil => exact absurd rfl hq
  | cons x q ih =>
    have hes (e : List String × Json) (he : e ∈ es) : e.1 ≠ [] := by
      intro hnil
      exact not_apart_nil (hnil ▸ h e.1 (List.mem_map_of_mem he))
    rw [nulled_cons_iff h]
    rcases foldlM_enter_cases hes hj with ⟨hall, rfl⟩ | ⟨⟨e, he, hne⟩, hobject⟩
    · exact ⟨fun _ => .inl rfl, fun hnot => absurd (.inl hall) hnot⟩
    · have hsome : ¬ ∀ e ∈ es, e.1 = [""] := fun hall => hne (hall e he)
      obtain ⟨node, hnode, hfind⟩ := find?_foldlM_enter (x := x) hes hj
      by_cases htails : tails x es = []
      · rw [if_pos htails] at hfind
        refine ⟨fun hnulled => ?_, fun _ => ⟨hobject, fun sub hsub => ?_⟩⟩
        · rcases hnulled with hall | ⟨hne, -⟩
          · exact absurd hall hsome
          · exact absurd htails hne
        · rw [hfind] at hsub
          exact absurd hsub (by simp [find?, members])
      · rw [if_neg htails] at hfind
        have hq' : q ≠ [] := by
          rintro rfl
          obtain ⟨f, hf⟩ := List.exists_mem_of_ne_nil _ htails
          exact not_apart_nil (h.tails f.1 (List.mem_map_of_mem hf)).symm
        obtain ⟨herases, hspares⟩ := ih hq' h.tails hnode
        constructor
        · rintro (hall | ⟨-, hnulled⟩)
          · exact absurd hall hsome
          · exact .inr ⟨node, hfind, herases hnulled⟩
        · intro hnot
          refine ⟨hobject, fun sub hsub => ?_⟩
          obtain rfl := Option.some.inj (hfind.symm.trans hsub)
          exact hspares fun hnulled => hnot (.inr ⟨htails, hnulled⟩)

end Json

namespace Configuration

/-! ## Loading -/

/-- A matching variable: its dotted key behind the prefix, and its value. -/
structure EnvVar where
  key : String
  value : Document

namespace EnvVar

/-- The parts of the key, empty ones included. -/
def path (v : EnvVar) : List String := (v.key.toList.splitOn '.').map String.ofList

/-- What the variable writes. -/
def entry (v : EnvVar) : List String × Json := (v.path, v.value.1)

theorem path_ne_nil (v : EnvVar) : v.path ≠ [] := by
  rw [path, Ne, List.map_eq_nil_iff]
  exact List.splitOn_ne_nil '.' v.key.toList

end EnvVar

/-- `tolower(c)`, with a dot for an underscore. -/
def keyChar (c : Char) : Char := if c.toLower = '_' then '.' else c.toLower

/-- The variable of an entry `NAME=value` of `environ`, if its name has the prefix; a value that is
no JSON is a string. -/
def readVar (parse : String → Option Document) (envPrefix env : String) : Option EnvVar :=
  if '=' ∈ env.toList then
    let key := env.toList.takeWhile (· ≠ '=')
    let value := String.ofList ((env.toList.dropWhile (· ≠ '=')).drop 1)
    if key.take envPrefix.toList.length = envPrefix.toList then
      some
        { key := String.ofList ((key.drop envPrefix.toList.length).map keyChar)
          value := (parse value).getD ⟨.string value, .string value⟩ }
    else none
  else none

/-- The matching variables, in the order of `environ`. -/
def matching (parse : String → Option Document) (environ : List String) (envPrefix : String) :
    List EnvVar :=
  environ.filterMap (readVar parse envPrefix)

/-- What they write. -/
def entries (parse : String → Option Document) (environ : List String) (envPrefix : String) :
    List (List String × Json) :=
  (matching parse environ envPrefix).map EnvVar.entry

/-- `env_config`, built by the variables one after the other. -/
def envConfig (parse : String → Option Document) (environ : List String) (envPrefix : String) :
    Option Json :=
  (entries parse environ envPrefix).foldlM Json.enter .null

variable {parse : String → Option Document} {environ : List String} {envPrefix : String}
  {c : Store} {j : Json} {merge : Bool}

theorem sorted_envConfig (h : envConfig parse environ envPrefix = some j) : j.Sorted := by
  refine Json.Sorted.null.foldlM_enter (fun e he => ?_) h
  obtain ⟨v, -, rfl⟩ := List.mem_map.mp he
  exact v.value.2

namespace Store

/-- `loadFromEnvironment(prefix, merge_with_existing)`, where the process has these variables. -/
def loadFromEnvironment (parse : String → Option Document) (c : Store) (environ : List String)
    (envPrefix : String) (mergeWithExisting : Bool) : Response :=
  match h : envConfig parse environ envPrefix with
  | none => { returned := false, store := c }
  | some config => c.loadFromJson ⟨config, sorted_envConfig h⟩ mergeWithExisting

theorem loadFromJson_eq (c : Store) (data : Document) (merge : Bool) :
    c.loadFromJson data merge =
      { returned := true
        store := { c with configData := if merge then c.configData.mergePatch data else data } } :=
  if_neg fun h => h.2 validateInternal_eq_nil

theorem loadFromEnvironment_of_none (h : envConfig parse environ envPrefix = none) :
    c.loadFromEnvironment parse environ envPrefix merge = { returned := false, store := c } := by
  unfold loadFromEnvironment
  split
  · rfl
  next config hconfig =>
    rw [h] at hconfig
    exact absurd hconfig (by simp)

theorem loadFromEnvironment_of_some (h : envConfig parse environ envPrefix = some j) :
    c.loadFromEnvironment parse environ envPrefix merge =
      { returned := true
        store :=
          { c with
            configData :=
              if merge then c.configData.mergePatch ⟨j, sorted_envConfig h⟩
              else ⟨j, sorted_envConfig h⟩ } } := by
  unfold loadFromEnvironment
  split
  next hnone =>
    rw [h] at hnone
    exact absurd hnone (by simp)
  next config hconfig =>
    obtain rfl := Option.some.inj (hconfig.symm.trans h)
    exact c.loadFromJson_eq _ merge

/-- The document that a successful call has loaded. -/
theorem exists_envConfig
    (h : (c.loadFromEnvironment parse environ envPrefix merge).returned = true) :
    ∃ config, envConfig parse environ envPrefix = some config := by
  cases hconfig : envConfig parse environ envPrefix with
  | none =>
    rw [loadFromEnvironment_of_none hconfig] at h
    exact absurd h Bool.noConfusion
  | some config => exact ⟨config, rfl⟩

/-! ## What a merge with the environment leaves alone -/

/-- The paths of the matching variables. -/
def paths (parse : String → Option Document) (environ : List String) (envPrefix : String) :
    List (List String) :=
  (entries parse environ envPrefix).map Prod.fst

/-- Every key that is not on the path of a variable reads as before; without a variable that is
the whole tree. -/
def KeepsOthers (paths : List (List String)) (before after : Json) : Prop :=
  ∀ q, Json.Untouched paths q → after.at? q = before.at? q

/-- There is a variable, or nothing to lose, and no other key is below a node that the variables
leave `null`. -/
def NothingBelow (paths : List (List String)) (tree : Json) : Prop :=
  (paths = [] → tree = .null) ∧
    ∀ w, Json.NullPoint paths w → ∀ q, q ≠ [] → w <+: q → Json.Untouched paths q →
      tree.at? q = none

/-- **A merge with the environment keeps the other keys if and only if none is below a node that
the variables leave `null`.** -/
theorem keepsOthers_iff
    (h : (c.loadFromEnvironment parse environ envPrefix true).returned = true) :
    KeepsOthers (paths parse environ envPrefix) c.configData.1
        (c.loadFromEnvironment parse environ envPrefix true).store.configData.1 ↔
      NothingBelow (paths parse environ envPrefix) c.configData.1 := by
  obtain ⟨config, hconfig⟩ := exists_envConfig h
  have hsorted := sorted_envConfig hconfig
  have hafter : (c.loadFromEnvironment parse environ envPrefix true).store.configData.1 =
      c.configData.1.mergePatch config := by
    rw [loadFromEnvironment_of_some hconfig]
    rfl
  have hempty (hnil : paths parse environ envPrefix = []) : config = .null := by
    rw [envConfig, List.map_eq_nil_iff.mp hnil] at hconfig
    exact (Option.some.inj hconfig).symm
  rw [hafter]
  constructor
  · intro hkeeps
    refine ⟨fun hnil => ?_, fun w hnull q hq hw huntouched => ?_⟩
    · have hroot := hkeeps [] (hnil ▸ fun _ hp => absurd hp List.not_mem_nil)
      rw [hempty hnil] at hroot
      exact (Option.some.inj hroot).symm
    · have herases := (Json.erases_or_spares hq huntouched hconfig).1 ⟨w, hw, hnull⟩
      rw [← hkeeps q huntouched, Json.at?_mergePatch_of_erases hsorted herases]
  · rintro ⟨hnone, hbelow⟩ q huntouched
    by_cases hq : q = []
    · have hnil : paths parse environ envPrefix = [] :=
        List.eq_nil_iff_forall_not_mem.mpr fun p hp =>
          Json.not_apart_nil (hq ▸ huntouched p hp).symm
      rw [hempty hnil, hnone hnil]
      rfl
    · obtain ⟨herases, hspares⟩ := Json.erases_or_spares hq huntouched hconfig
      by_cases hnulled : Json.Nulled (paths parse environ envPrefix) q
      · obtain ⟨w, hw, hnull⟩ := hnulled
        rw [hbelow w hnull q hq hw huntouched,
          Json.at?_mergePatch_of_erases hsorted (herases ⟨w, hw, hnull⟩)]
      · exact Json.at?_mergePatch_of_spares hsorted (hspares hnulled)

/-- A JSON parser for texts of one digit. -/
def parseDigit (text : String) : Option Document :=
  match text.toList with
  | [c] => if c.isDigit then some ⟨.integer (c.toNat - 48), .integer _⟩ else none
  | _ => none

/-- A rate, that a variable leaves alone. -/
theorem keepsOthers_rate :
    KeepsOthers (paths parseDigit ["AXONVEX_SPEED=7"] "AXONVEX_")
        (Document.null.put "rate" ⟨.integer 5, .integer 5⟩).1
        (({ configData := Document.null.put "rate" ⟨.integer 5, .integer 5⟩ } : Store
          ).loadFromEnvironment parseDigit ["AXONVEX_SPEED=7"] "AXONVEX_" true).store.configData.1 ↔
      NothingBelow (paths parseDigit ["AXONVEX_SPEED=7"] "AXONVEX_")
        (Document.null.put "rate" ⟨.integer 5, .integer 5⟩).1 :=
  keepsOthers_iff (c := { configData := Document.null.put "rate" ⟨.integer 5, .integer 5⟩ })
    (by decide +kernel)

/-- Without a matching variable the configuration is lost, and an underscore at the end of a name
takes with it what is below. -/
theorem loadFromEnvironment_erases :
    let tree := Document.null.put "rate" ⟨.integer 5, .integer 5⟩
    let rate : Store := { configData := tree }
    let motor : Store := { configData := Document.null.put "motor" tree }
    let unset := rate.loadFromEnvironment parseDigit ["PATH=/bin"] "AXONVEX_" true
    let trailing := motor.loadFromEnvironment parseDigit ["AXONVEX_MOTOR_=1"] "AXONVEX_" true
    (unset.returned = true ∧ paths parseDigit ["PATH=/bin"] "AXONVEX_" = [] ∧
      rate.has "rate" = true ∧ unset.store.has "rate" = false) ∧
    (trailing.returned = true ∧
      paths parseDigit ["AXONVEX_MOTOR_=1"] "AXONVEX_" = [["motor", ""]] ∧
      motor.has "motor.rate" = true ∧ trailing.store.has "motor.rate" = false) := by
  intro tree rate motor unset trailing
  exact ⟨by decide +kernel, by decide +kernel⟩

end Store

end Configuration

end AxonVex
