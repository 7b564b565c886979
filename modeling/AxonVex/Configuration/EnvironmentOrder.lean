import AxonVex.Configuration.Environment
import AxonVex.Machinery.Commuting

/-!
# Configuration/EnvironmentOrder — when the order of the environment does not matter

A variable that writes a value absorbs one whose key leads to it or through it when the value
already holds what the other would write there (`Json.Absorbs`).  Variables that absorb each other
commute (`Json.commuting_enter`), so that every order of the environment loads one document, and
each value can be read at its key.

Otherwise two orders differ: the deepest keys first, no variable runs into the value of another one
(`Json.isSome_foldlM_of_deepest_first`), and the last two of an order that succeeds would have to
absorb each other.
-/

namespace AxonVex

open Machinery

namespace Json

variable {j s t u v w patch : Json} {k : String} {p q rest : List String}
  {e f : List String × Json} {es : List (List String × Json)} {n : ℕ}

/-! ## Writes -/

/-- A path without an empty part at its end: the value is written. -/
def Stores (p : List String) : Prop := p.getLast? ≠ some ""

theorem stores_nil : Stores [] := by simp [Stores]

theorem stores_cons_iff (h : k :: p ≠ [""]) : Stores (k :: p) ↔ Stores p := by
  cases p with
  | nil =>
    have hk : k ≠ "" := fun heq => h (by rw [heq])
    simp [Stores, hk]
  | cons l p => simp [Stores]

theorem indexable_put : (j.put k v).indexable = true := rfl

theorem setNested_empty : setNested [""] v = some := funext fun s => by rw [setNested]

theorem not_stores_empty : ¬ Stores [""] := by simp [Stores]

theorem isSome_setNested_cons (h : k :: p ≠ [""]) :
    (setNested (k :: p) v s).isSome ↔
      s.indexable ∧ (setNested p v ((s.find? k).getD null)).isSome := by
  rw [setNested_cons h]
  cases s.indexable with
  | true => simp
  | false => simp

/-- A write is read at its path. -/
theorem at?_setNested (hp : Stores p) (h : setNested p v s = some t) : t.at? p = some v := by
  induction p generalizing s t with
  | nil => exact h.symm
  | cons k p ih =>
    have hk : k :: p ≠ [""] := fun heq => not_stores_empty (heq ▸ hp)
    obtain ⟨-, node, hnode, rfl⟩ := (setNested_cons_eq_some hk).mp h
    rw [at?_cons, find?_put_self]
    exact ih ((stores_cons_iff hk).mp hp) hnode

/-- A write through a node is a write to it. -/
theorem at?_setNested_append (hp : Stores p) (hu : s.at? p = some u)
    (h : setNested (p ++ rest) v s = some t) :
    ∃ node, setNested rest v u = some node ∧ t.at? p = some node := by
  induction p generalizing s t with
  | nil =>
    obtain ⟨⟩ := hu
    exact ⟨t, h, rfl⟩
  | cons k p ih =>
    have hk : k :: p ≠ [""] := fun heq => not_stores_empty (heq ▸ hp)
    have hwhole : k :: (p ++ rest) ≠ [""] := by
      intro heq
      obtain ⟨rfl, hnil⟩ := List.cons.inj heq
      exact hk (by rw [(List.append_eq_nil_iff.mp hnil).1])
    obtain ⟨-, node, hnode, rfl⟩ := (setNested_cons_eq_some hwhole).mp h
    obtain ⟨child, hchild, hu⟩ := Option.bind_eq_some_iff.mp hu
    rw [hchild] at hnode
    obtain ⟨below, hbelow, hat⟩ := ih ((stores_cons_iff hk).mp hp) hu hnode
    exact ⟨below, hbelow, by rw [at?_cons, find?_put_self]; exact hat⟩

theorem isSome_setNested_null : (setNested p v null).isSome := by
  induction p with
  | nil => rfl
  | cons k p ih =>
    by_cases hk : k :: p = [""]
    · rw [hk]
      rfl
    · exact (isSome_setNested_cons hk).mpr ⟨rfl, ih⟩

/-! ## Absorption -/

/-- The value of the first entry already holds what the second would write to it. -/
def Absorbs (e f : List String × Json) : Prop :=
  Stores e.1 → ∀ rest, f.1 = e.1 ++ rest → setNested rest f.2 e.2 = some e.2

/-- Each of the two absorbs the other. -/
def Compatible (e f : List String × Json) : Prop := Absorbs e f ∧ Absorbs f e

theorem Absorbs.of_cons (hk : k :: p ≠ [""]) (h : Absorbs (k :: p, v) (k :: q, w)) :
    Absorbs (p, v) (q, w) := by
  intro hp rest hq
  refine h ((stores_cons_iff hk).mpr hp) rest ?_
  change k :: q = k :: p ++ rest
  rw [show q = p ++ rest from hq, List.cons_append]

theorem Absorbs.of_nil (h : Absorbs ([], v) (q, w)) : setNested q w v = some v :=
  h stores_nil q rfl

/-- What a write absorbs still succeeds after it. -/
theorem isSome_setNested_of_absorbs (h : Absorbs (q, w) (p, v)) (hp : (setNested p v s).isSome)
    (hq : setNested q w s = some t) : (setNested p v t).isSome := by
  induction p generalizing q s t with
  | nil => rfl
  | cons k p ih =>
    by_cases hk : k :: p = [""]
    · rw [hk]
      rfl
    cases q with
    | nil =>
      obtain rfl : w = t := Option.some.inj hq
      rw [h.of_nil]
      rfl
    | cons l q =>
      by_cases hl : l :: q = [""]
      · rw [hl] at hq
        obtain rfl : s = t := Option.some.inj hq
        exact hp
      obtain ⟨-, hchild⟩ := (isSome_setNested_cons hk).mp hp
      obtain ⟨-, node, hnode, rfl⟩ := (setNested_cons_eq_some hl).mp hq
      refine (isSome_setNested_cons hk).mpr ⟨rfl, ?_⟩
      by_cases hkl : k = l
      · subst hkl
        rw [find?_put_self]
        exact ih (h.of_cons hl) hchild hnode
      · rw [find?_put_of_ne hkl]
        exact hchild

/-- **Writes that absorb each other commute.** -/
theorem setNested_comm (hpq : Absorbs (p, v) (q, w)) (hqp : Absorbs (q, w) (p, v))
    (hp : (setNested p v s).isSome) (hq : (setNested q w s).isSome) :
    (setNested p v s).bind (setNested q w) = (setNested q w s).bind (setNested p v) := by
  induction p generalizing q s with
  | nil =>
    obtain ⟨t, ht⟩ := Option.isSome_iff_exists.mp hq
    rw [ht]
    exact hpq.of_nil
  | cons k p ih =>
    by_cases hk : k :: p = [""]
    · rw [hk, setNested_empty, Option.bind_fun_some, Option.bind_some]
    cases q with
    | nil =>
      obtain ⟨t, ht⟩ := Option.isSome_iff_exists.mp hp
      rw [ht]
      exact hqp.of_nil.symm
    | cons l q =>
      by_cases hl : l :: q = [""]
      · rw [hl, setNested_empty, Option.bind_fun_some, Option.bind_some]
      obtain ⟨hindex, hpchild⟩ := (isSome_setNested_cons hk).mp hp
      obtain ⟨-, hqchild⟩ := (isSome_setNested_cons hl).mp hq
      obtain ⟨a, ha⟩ := Option.isSome_iff_exists.mp hpchild
      obtain ⟨b, hb⟩ := Option.isSome_iff_exists.mp hqchild
      have hleft : setNested (k :: p) v s = some (s.put k a) :=
        (setNested_cons_eq_some hk).mpr ⟨hindex, a, ha, rfl⟩
      have hright : setNested (l :: q) w s = some (s.put l b) :=
        (setNested_cons_eq_some hl).mpr ⟨hindex, b, hb, rfl⟩
      rw [hleft, hright, Option.bind_some, Option.bind_some, setNested_cons hk,
        setNested_cons hl, if_pos indexable_put, if_pos indexable_put]
      by_cases hkl : k = l
      · subst hkl
        have hchildren := ih (hpq.of_cons hk) (hqp.of_cons hl) hpchild hqchild
        rw [ha, hb, Option.bind_some, Option.bind_some] at hchildren
        rw [find?_put_self, find?_put_self, Option.getD_some, Option.getD_some, hchildren]
        refine congrArg (Option.map · (setNested p v b)) (funext fun node => ?_)
        rw [put_put_self, put_put_self]
      · rw [find?_put_of_ne (Ne.symm hkl), find?_put_of_ne hkl, ha, hb, Option.map_some,
          Option.map_some, put_comm hkl]

theorem commuting_enter : Commuting enter Compatible where
  symm h := ⟨h.2, h.1⟩
  keeps h hfit ht := isSome_setNested_of_absorbs h.2 hfit ht
  comm h ha hb := setNested_comm h.1 h.2 ha hb

/-- **Compatible entries in any order make one document.** -/
theorem foldlM_enter_perm {fs : List (List String × Json)} (hp : es.Perm fs)
    (h : es.Pairwise Compatible) : es.foldlM enter null = fs.foldlM enter null :=
  commuting_enter.foldlM_perm hp h fun _ _ => isSome_setNested_null

/-- **Each of them can be read in it.** -/
theorem at?_of_compatible (h : es.Pairwise Compatible) (hj : es.foldlM enter null = some j)
    (he : e ∈ es) (hstores : Stores e.1) : j.at? e.1 = some e.2 := by
  obtain ⟨as, bs, rfl⟩ := List.append_of_mem he
  have hlast : (as ++ e :: bs).Perm (as ++ bs ++ [e]) :=
    List.perm_middle.trans (List.perm_append_singleton e (as ++ bs)).symm
  rw [foldlM_enter_perm hlast h, List.foldlM_append] at hj
  obtain ⟨before, -, hj⟩ := Option.bind_eq_some_iff.mp hj
  rw [List.foldlM_cons] at hj
  obtain ⟨last, henter, hj⟩ := Option.bind_eq_some_iff.mp hj
  obtain rfl : last = j := Option.some.inj hj
  exact at?_setNested hstores henter

/-! ## Deepest first -/

/-- Every node above depth `n` may be indexed. -/
def Open : ℕ → Json → Prop
  | 0, _ => True
  | n + 1, j => j.indexable = true ∧ ∀ k child, j.find? k = some child → child.Open n

theorem open_null : null.Open n := by
  cases n with
  | zero => trivial
  | succ n => exact ⟨rfl, fun k child h => absurd h (by simp [find?, members])⟩

theorem Open.child (h : j.Open (n + 1)) : ((j.find? k).getD null).Open n := by
  cases hk : j.find? k with
  | none => exact open_null
  | some child => exact h.2 k child hk

theorem Open.of_le {m : ℕ} (h : j.Open n) (hm : m ≤ n) : j.Open m := by
  induction m generalizing j n with
  | zero => trivial
  | succ m ih =>
    cases n with
    | zero => exact absurd hm (Nat.not_succ_le_zero m)
    | succ n =>
      exact ⟨h.1, fun k child hchild => ih (h.2 k child hchild) (Nat.le_of_succ_le_succ hm)⟩

/-- An entry of the depth of the nodes succeeds, and keeps those above open. -/
theorem Open.setNested (h : s.Open p.length) :
    ∃ t, setNested p v s = some t ∧ t.Open p.length := by
  induction p generalizing s with
  | nil => exact ⟨v, rfl, trivial⟩
  | cons k p ih =>
    by_cases hk : k :: p = [""]
    · rw [hk] at h ⊢
      exact ⟨s, congrFun setNested_empty s, h⟩
    · obtain ⟨child, hchild, hopen⟩ := ih (Open.child (k := k) h)
      refine ⟨s.put k child, (setNested_cons_eq_some hk).mpr ⟨h.1, child, hchild, rfl⟩, rfl,
        fun l node hnode => ?_⟩
      by_cases hl : l = k
      · subst hl
        rw [find?_put_self] at hnode
        exact Option.some.inj hnode ▸ hopen
      · rw [find?_put_of_ne hl] at hnode
        exact h.2 l node hnode

/-- **The deepest first, all entries succeed.** -/
theorem isSome_foldlM_of_deepest_first
    (h : es.Pairwise fun e f => f.1.length ≤ e.1.length) (hs : ∀ e ∈ es, s.Open e.1.length) :
    (es.foldlM enter s).isSome := by
  induction es generalizing s with
  | nil => rfl
  | cons e es ih =>
    obtain ⟨hle, hes⟩ := List.pairwise_cons.mp h
    obtain ⟨t, ht, hopen⟩ := Open.setNested (v := e.2) (hs e List.mem_cons_self)
    have henter : s.enter e = some t := ht
    rw [List.foldlM_cons, henter]
    exact ih hes fun f hf => hopen.of_le (hle f hf)

/-! ## Two orders -/

/-- **Two entries that come last in either order absorb each other**, if both orders make one
document. -/
theorem absorbs_of_orders (hef : (es ++ [e, f]).foldlM enter s = some j)
    (hfe : (es ++ [f, e]).foldlM enter s = some j) : Absorbs e f := by
  intro hstores rest hrest
  rw [List.foldlM_append] at hef hfe
  obtain ⟨t, ht, hef⟩ := Option.bind_eq_some_iff.mp hef
  obtain ⟨t', ht', hfe⟩ := Option.bind_eq_some_iff.mp hfe
  obtain rfl : t = t' := Option.some.inj (ht.symm.trans ht')
  have hrow (a b : List String × Json) : [a, b].foldlM enter t = (t.enter a).bind (enter · b) := by
    rw [List.foldlM_cons]
    exact congrArg _ (funext fun u => by
      rw [List.foldlM_cons]
      exact Option.bind_fun_some _)
  rw [hrow] at hef hfe
  obtain ⟨a, ha, hef⟩ := Option.bind_eq_some_iff.mp hef
  obtain ⟨b, -, hfe⟩ := Option.bind_eq_some_iff.mp hfe
  have hlast : j.at? e.1 = some e.2 := at?_setNested hstores hfe
  have hfirst : a.at? e.1 = some e.2 := at?_setNested hstores ha
  rw [enter, hrest] at hef
  obtain ⟨node, hnode, hat⟩ := at?_setNested_append hstores hfirst hef
  rw [hnode, ← hat, hlast]

/-! ## Reads through a patch -/

/-- **A patch acts on each node that it has a value for.** -/
theorem at?_mergePatch (hpatch : patch.Sorted) (hp : p ≠ []) (h : patch.at? p = some v) :
    (t.mergePatch patch).at? p = patched (t.at? p) (some v) := by
  induction p generalizing t patch with
  | nil => exact absurd rfl hp
  | cons k p ih =>
    obtain ⟨sub, hsub, hbelow⟩ := Option.bind_eq_some_iff.mp h
    obtain ⟨ms, rfl⟩ : ∃ ms, patch = object ms := ⟨_, eq_object_of_find? hsub⟩
    have hms : Members.Sorted ms := hpatch.sorted_members
    have hlookup : ms.lookup k = some sub := hsub
    rw [at?_cons, at?_cons, find?_mergePatch_object hms, hlookup]
    by_cases hnil : p = []
    · subst hnil
      obtain rfl : sub = v := Option.some.inj hbelow
      have hself (o : Option Json) : o.bind (at? []) = o := Option.bind_fun_some o
      rw [hself, hself]
    · have hnull : sub.isNull = false := by
        cases sub with
        | null =>
          cases p with
          | nil => exact absurd rfl hnil
          | cons l p => exact absurd hbelow (by simp [at?_cons, find?, members])
        | _ => rfl
      rw [patched, hnull, if_neg Bool.false_ne_true, Option.bind_some,
        ih (hpatch.find? hsub) hnil hbelow, at?_getD hnil]

end Json

namespace Configuration

variable {parse : String → Option Document} {environ environ' : List String} {envPrefix : String}
  {c : Store} {merge : Bool} {j : Json}

/-- What one entry of `environ` writes. -/
def readEntry (parse : String → Option Document) (envPrefix env : String) :
    Option (List String × Json) :=
  (readVar parse envPrefix env).map EnvVar.entry

theorem entries_eq_filterMap :
    entries parse environ envPrefix = environ.filterMap (readEntry parse envPrefix) :=
  List.map_filterMap

theorem entries_perm (h : environ.Perm environ') :
    (entries parse environ envPrefix).Perm (entries parse environ' envPrefix) :=
  (h.filterMap _).map _

/-- Without an empty part, a key is read by its whole path. -/
theorem EnvVar.splitKey_key {v : EnvVar} (h : "" ∉ v.path) : splitKey v.key = v.path := by
  have hparts : (v.key.toList.splitOn '.').filter (fun part => !part.isEmpty) =
      v.key.toList.splitOn '.' := by
    refine List.filter_eq_self.mpr fun part hpart => ?_
    cases part with
    | nil => exact absurd (List.mem_map.mpr ⟨[], hpart, rfl⟩) h
    | cons c part => rfl
  rw [splitKey, hparts, EnvVar.path]

theorem EnvVar.stores {v : EnvVar} (h : "" ∉ v.path) : Json.Stores v.path :=
  fun hlast => h (List.mem_of_getLast? hlast)

namespace Store

/-- The result does not depend on the order of the variables. -/
def OrderFree (parse : String → Option Document) (environ : List String) (envPrefix : String) :
    Prop :=
  ∀ (c : Store) (merge : Bool) (environ' : List String), environ'.Perm environ →
    c.loadFromEnvironment parse environ' envPrefix merge =
      c.loadFromEnvironment parse environ envPrefix merge

/-- A successful call leaves the value of every variable without an empty part at its key; a merge
patches what was there. -/
def Retrievable (parse : String → Option Document) (environ : List String) (envPrefix : String) :
    Prop :=
  ∀ (c : Store) (merge : Bool),
    (c.loadFromEnvironment parse environ envPrefix merge).returned = true →
      ∀ v ∈ matching parse environ envPrefix, "" ∉ v.path →
        (c.loadFromEnvironment parse environ envPrefix merge).store.getJsonPointer v.key =
          some (if merge then ((c.getJsonPointer v.key).getD .null).mergePatch v.value.1
            else v.value.1)

theorem loadFromEnvironment_congr
    (h : envConfig parse environ' envPrefix = envConfig parse environ envPrefix) :
    c.loadFromEnvironment parse environ' envPrefix merge =
      c.loadFromEnvironment parse environ envPrefix merge := by
  cases hconfig : envConfig parse environ envPrefix with
  | none => rw [loadFromEnvironment_of_none hconfig, loadFromEnvironment_of_none (h.trans hconfig)]
  | some j => rw [loadFromEnvironment_of_some hconfig, loadFromEnvironment_of_some (h.trans hconfig)]

/-- Only the document that is loaded can depend on the order. -/
theorem OrderFree.envConfig_eq (h : OrderFree parse environ envPrefix)
    (hp : environ'.Perm environ) :
    envConfig parse environ' envPrefix = envConfig parse environ envPrefix := by
  have hload := h {} false environ' hp
  cases hconfig : envConfig parse environ envPrefix with
  | none =>
    cases hconfig' : envConfig parse environ' envPrefix with
    | none => rfl
    | some j =>
      rw [loadFromEnvironment_of_none hconfig, loadFromEnvironment_of_some hconfig'] at hload
      exact absurd (congrArg Response.returned hload) Bool.noConfusion
  | some j =>
    cases hconfig' : envConfig parse environ' envPrefix with
    | none =>
      rw [loadFromEnvironment_of_some hconfig, loadFromEnvironment_of_none hconfig'] at hload
      exact absurd (congrArg Response.returned hload) Bool.noConfusion
    | some j' =>
      rw [loadFromEnvironment_of_some hconfig, loadFromEnvironment_of_some hconfig'] at hload
      exact congrArg some (congrArg (fun r : Response => r.store.configData.1) hload)

/-- The depth of the key of an entry of `environ`. -/
def depth (parse : String → Option Document) (envPrefix env : String) : ℕ :=
  (readEntry parse envPrefix env).elim 0 fun e => e.1.length

/-- Some order of the environment loads a document. -/
theorem exists_perm_envConfig (parse : String → Option Document) (environ : List String)
    (envPrefix : String) :
    ∃ environ', environ'.Perm environ ∧ (envConfig parse environ' envPrefix).isSome := by
  let deeper (a b : String) : Bool := decide (depth parse envPrefix b ≤ depth parse envPrefix a)
  have hsorted : (environ.mergeSort deeper).Pairwise fun a b => deeper a b :=
    List.pairwise_mergeSort (fun a b c hab hbc => by
      simp only [deeper, decide_eq_true_eq] at hab hbc ⊢
      exact hbc.trans hab) (fun a b => by
      simp only [deeper, Bool.or_eq_true, decide_eq_true_eq]
      exact Nat.le_total _ _) environ
  refine ⟨environ.mergeSort deeper, List.mergeSort_perm environ deeper, ?_⟩
  have hentries : (entries parse (environ.mergeSort deeper) envPrefix).Pairwise
      fun e f => f.1.length ≤ e.1.length := by
    rw [entries_eq_filterMap, List.pairwise_filterMap]
    refine hsorted.imp fun {a b} hab e he f hf => ?_
    simpa [deeper, depth, he, hf] using hab
  exact Json.isSome_foldlM_of_deepest_first hentries fun _ _ => Json.open_null

/-- **Entries of an environment whose order does not matter are compatible.** -/
theorem OrderFree.pairwise_compatible (h : OrderFree parse environ envPrefix)
    (hj : envConfig parse environ envPrefix = some j) :
    (entries parse environ envPrefix).Pairwise Json.Compatible := by
  rw [entries_eq_filterMap]
  refine List.pairwise_iff_forall_sublist.mpr fun {e f} hsub => ?_
  obtain ⟨pair, hpair, hread⟩ := List.sublist_filterMap_iff.mp hsub
  obtain ⟨others, hothers⟩ := hpair.exists_perm_append
  have hrow (last : List String) (hlast : last.Perm pair) :
      (others.filterMap (readEntry parse envPrefix) ++
        last.filterMap (readEntry parse envPrefix)).foldlM Json.enter .null = some j := by
    have hperm : (others ++ last).Perm environ :=
      ((hlast.append_left others).trans List.perm_append_comm).trans hothers.symm
    have hconfig := (h.envConfig_eq hperm).trans hj
    rw [envConfig, entries_eq_filterMap, List.filterMap_append] at hconfig
    exact hconfig
  have hforth := hrow pair (.refl pair)
  have hback := hrow pair.reverse (List.reverse_perm pair)
  rw [← hread] at hforth
  rw [List.filterMap_reverse, ← hread] at hback
  exact ⟨Json.absorbs_of_orders hforth hback, Json.absorbs_of_orders hback hforth⟩

theorem mem_entries {v : EnvVar} (hv : v ∈ matching parse environ envPrefix) :
    v.entry ∈ entries parse environ envPrefix := List.mem_map_of_mem hv

/-- The pointer to a key without an empty part. -/
theorem getJsonPointer_key {v : EnvVar} (h : "" ∉ v.path) :
    c.getJsonPointer v.key = c.configData.1.at? v.path := by
  rw [getJsonPointer, EnvVar.splitKey_key h, if_neg v.path_ne_nil]

/-- **The order of the environment does not matter, and every value can be read, if and only if
the variables are compatible and none of them is `null`.** -/
theorem orderFree_and_retrievable_iff (parse : String → Option Document) (environ : List String)
    (envPrefix : String) :
    OrderFree parse environ envPrefix ∧ Retrievable parse environ envPrefix ↔
      (entries parse environ envPrefix).Pairwise Json.Compatible ∧
        ∀ v ∈ matching parse environ envPrefix, "" ∉ v.path → v.value.1 ≠ .null := by
  constructor
  · rintro ⟨hfree, hread⟩
    obtain ⟨environ', hperm, hsome⟩ := exists_perm_envConfig parse environ envPrefix
    rw [hfree.envConfig_eq hperm] at hsome
    obtain ⟨j, hj⟩ := Option.isSome_iff_exists.mp hsome
    have hcompatible := hfree.pairwise_compatible hj
    refine ⟨hcompatible, fun v hv hfull hnull => ?_⟩
    -- a merge erases the node that the variable has written
    have hat : j.at? v.path = some .null :=
      (Json.at?_of_compatible hcompatible hj (mem_entries hv) (EnvVar.stores hfull)).trans
        (congrArg some hnull)
    have hload : ({} : Store).loadFromEnvironment parse environ envPrefix true = _ :=
      loadFromEnvironment_of_some hj
    have hpointer := hread {} true (by rw [hload]) v hv hfull
    rw [getJsonPointer_key hfull, hload] at hpointer
    have herased := Json.at?_mergePatch (t := .null) (sorted_envConfig hj) v.path_ne_nil hat
    exact absurd (herased.symm.trans hpointer) (by simp [Json.patched, Json.isNull])
  · rintro ⟨hcompatible, hvalues⟩
    refine ⟨fun c merge environ' hperm => loadFromEnvironment_congr ?_,
      fun c merge hreturned v hv hfull => ?_⟩
    · exact (Json.foldlM_enter_perm (entries_perm hperm.symm) hcompatible).symm
    · obtain ⟨j, hj⟩ := exists_envConfig hreturned
      have hat : j.at? v.path = some v.value.1 :=
        Json.at?_of_compatible hcompatible hj (mem_entries hv) (EnvVar.stores hfull)
      rw [getJsonPointer_key hfull, getJsonPointer_key hfull, loadFromEnvironment_of_some hj]
      cases merge with
      | false => exact hat
      | true =>
        have hnull : v.value.1.isNull = false := by
          cases hvalue : v.value.1 with
          | null => exact absurd hvalue (hvalues v hv hfull)
          | _ => rfl
        have hpatched := Json.at?_mergePatch (t := c.configData.1) (sorted_envConfig hj)
          v.path_ne_nil hat
        rw [Json.patched, hnull, if_neg Bool.false_ne_true] at hpatched
        exact hpatched

/-- A key through the value of another one is refused, or lost. -/
theorem loadFromEnvironment_order :
    let c : Store := {}
    let outer := "AXONVEX_A=1"
    let inner := "AXONVEX_A_B=2"
    (c.loadFromEnvironment parseDigit [outer, inner] "AXONVEX_" true).returned = false ∧
      (c.loadFromEnvironment parseDigit [inner, outer] "AXONVEX_" true).returned = true ∧
      (c.loadFromEnvironment parseDigit [inner, outer] "AXONVEX_" true).store.has "a.b" = false := by
  intro c outer inner
  exact ⟨by decide +kernel, by decide +kernel, by decide +kernel⟩

end Store

end Configuration

end AxonVex
