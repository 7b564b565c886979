import Mathlib.Data.List.AList

/-!
# Machinery/Table — finite maps with filtering

Mathlib's `AList` is an association list whose keys are pairwise distinct.  A **table** is an
`AList` with one value type.  Added here are the operations a program's maps have and `AList` does
not: the list of values, filtering on values, updating the value under one key, and searching for
a value — each with its `lookup` lemma.
-/

namespace Machinery

/-- A finite map from `K` to `V`. -/
abbrev Table (K V : Type*) := AList fun _ : K => V

end Machinery

namespace AList

open Machinery

variable {K V W : Type*} {t : Table K V} {k l : K} {v w : V}

/-! ## Values -/

/-- The values of a table, in entry order. -/
def values (t : Table K V) : List V := t.entries.map Sigma.snd

@[simp] theorem values_empty : values (∅ : Table K V) = [] := rfl

/-- The table without the entries whose value fails `p`. -/
def filterValues (t : Table K V) (p : V → Bool) : Table K V :=
  ⟨t.entries.filter fun e => p e.2, t.nodupKeys.sublist List.filter_sublist⟩

variable [DecidableEq K]

theorem mem_values : v ∈ values t ↔ ∃ k, t.lookup k = some v := by
  simp only [values, List.mem_map]
  constructor
  · rintro ⟨⟨k, v⟩, he, rfl⟩
    exact ⟨k, mem_lookup_iff.mpr he⟩
  · rintro ⟨k, hk⟩
    exact ⟨⟨k, v⟩, mem_lookup_iff.mp hk, rfl⟩

theorem mem_of_lookup (h : t.lookup k = some v) : k ∈ t := by
  rw [← lookup_isSome, h]
  rfl

theorem lookup_filterValues (p : V → Bool) :
    (filterValues t p).lookup k = some v ↔ t.lookup k = some v ∧ p v = true := by
  have mem_iff (s : Table K V) : s.lookup k = some v ↔ (⟨k, v⟩ : Sigma _) ∈ s.entries :=
    mem_lookup_iff
  rw [mem_iff, mem_iff, filterValues, List.mem_filter]

theorem erase_of_notMem (h : k ∉ t) : t.erase k = t :=
  ext (List.kerase_of_notMem_keys fun hk => h (mem_keys.mpr hk))

/-- An insertion under a free key, taken back. -/
theorem erase_insert_of_lookup (h : t.lookup k = none) : (t.insert k v).erase k = t := by
  have hk : k ∉ t := lookup_eq_none.mp h
  refine ext ?_
  change (insert k v t).entries.kerase k = t.entries
  rw [entries_insert_of_notMem hk]
  exact List.kerase_cons_eq (β := fun _ : K => V) (s := ⟨k, v⟩) rfl

theorem lookup_erase_eq_some : (t.erase k).lookup l = some v ↔ l ≠ k ∧ t.lookup l = some v := by
  by_cases hkl : l = k
  · subst hkl
    simp
  · simp [hkl, lookup_erase_ne hkl]

theorem lookup_insert_eq_some :
    (t.insert k w).lookup l = some v ↔ l = k ∧ w = v ∨ l ≠ k ∧ t.lookup l = some v := by
  by_cases hkl : l = k
  · subst hkl
    simp
  · simp [hkl, lookup_insert_ne hkl]

/-! ## Updating values in place -/

omit [DecidableEq K] in
theorem keys_map_value (f : K → V → W) (es : List (Sigma fun _ : K => V)) :
    (es.map fun e => (⟨e.1, f e.1 e.2⟩ : Sigma fun _ : K => W)).keys = es.keys := by
  simp [List.keys, List.map_map, Function.comp_def]

/-- The table with `f` applied to every value. -/
def mapValues (t : Table K V) (f : K → V → W) : Table K W :=
  ⟨t.entries.map fun e => ⟨e.1, f e.1 e.2⟩, by
    rw [List.NodupKeys, keys_map_value]
    exact t.nodupKeys⟩

theorem lookup_mapValues (t : Table K V) (f : K → V → W) (k : K) :
    (mapValues t f).lookup k = (t.lookup k).map (f k) := by
  obtain ⟨es, nd⟩ := t
  simp only [mapValues, lookup]
  induction es with
  | nil => rfl
  | cons e es ih =>
    obtain ⟨l, v⟩ := e
    by_cases hkl : k = l
    · subst hkl
      simp
    · refine (List.dlookup_cons_ne _ (⟨l, f l v⟩ : Sigma fun _ : K => W) hkl).trans ?_
      rw [List.dlookup_cons_ne _ (⟨l, v⟩ : Sigma fun _ : K => V) hkl]
      exact ih (List.nodupKeys_cons.mp nd).2

omit [DecidableEq K] in
/-- Two functions, one after the other. -/
theorem mapValues_mapValues {X : Type*} (t : Table K V) (f : K → V → W) (g : K → W → X) :
    (t.mapValues f).mapValues g = t.mapValues fun k v => g k (f k v) :=
  AList.ext (List.map_map ..)

theorem kerase_map (f : K → V → W) (k : K) (es : List (Sigma fun _ : K => V)) :
    (es.map fun e => (⟨e.1, f e.1 e.2⟩ : Sigma fun _ : K => W)).kerase k =
      (es.kerase k).map fun e => ⟨e.1, f e.1 e.2⟩ := by
  induction es with
  | nil => rfl
  | cons e es ih =>
    have hkey : (⟨e.1, f e.1 e.2⟩ : Sigma fun _ : K => W).1 = e.1 := rfl
    rw [List.map_cons]
    by_cases hk : k = e.1
    · rw [List.kerase_cons_eq hk, List.kerase_cons_eq (hk.trans hkey.symm)]
    · rw [List.kerase_cons_ne hk, List.kerase_cons_ne fun h => hk (h.trans hkey), ih, List.map_cons]

theorem mapValues_erase (t : Table K V) (f : K → V → W) (k : K) :
    (t.erase k).mapValues f = (t.mapValues f).erase k :=
  AList.ext (kerase_map f k t.entries).symm

theorem mapValues_insert (t : Table K V) (f : K → V → W) (k : K) (v : V) :
    (t.insert k v).mapValues f = (t.mapValues f).insert k (f k v) :=
  AList.ext (congrArg (List.cons (⟨k, f k v⟩ : Sigma fun _ : K => W)) (kerase_map f k t.entries).symm)

theorem mem_mapValues (t : Table K V) (f : K → V → W) (k : K) : k ∈ t.mapValues f ↔ k ∈ t := by
  rw [← lookup_isSome, ← lookup_isSome, lookup_mapValues, Option.isSome_map]

/-- The table with `f` applied to the value under `k`, if there is one. -/
def modify (t : Table K V) (k : K) (f : V → V) : Table K V :=
  mapValues t fun l v => if l = k then f v else v

@[simp] theorem lookup_modify_self (t : Table K V) (k : K) (f : V → V) :
    (modify t k f).lookup k = (t.lookup k).map f := by
  simp [modify, lookup_mapValues]

theorem lookup_modify_ne (h : l ≠ k) (t : Table K V) (f : V → V) :
    (modify t k f).lookup l = t.lookup l := by
  simp [modify, lookup_mapValues, h]

/-- What is changed and then taken out is taken out. -/
theorem erase_modify (t : Table K V) (k : K) (f : V → V) : (modify t k f).erase k = t.erase k := by
  rw [modify, ← mapValues_erase]
  refine AList.ext ?_
  have hsame : ∀ e ∈ (t.erase k).entries,
      (⟨e.1, if e.1 = k then f e.2 else e.2⟩ : Sigma fun _ : K => V) = e := by
    intro e he
    have hne : e.1 ≠ k := by
      rintro rfl
      exact (mem_erase.mp (mem_of_lookup (mem_lookup_iff.mpr he))).1 rfl
    rw [if_neg hne]
  exact (List.map_congr_left hsame).trans (List.map_id _)

/-- An update that `g` does not see. -/
theorem map_lookup_modify (f : V → V) (g : V → W) (hg : ∀ v, g (f v) = g v) (t : Table K V)
    (k l : K) : ((modify t k f).lookup l).map g = (t.lookup l).map g := by
  by_cases hkl : l = k
  · subst hkl
    rw [lookup_modify_self, Option.map_map]
    exact congrArg (fun h => Option.map h _) (funext hg)
  · rw [lookup_modify_ne hkl]

@[simp] theorem keys_modify (t : Table K V) (k : K) (f : V → V) : (modify t k f).keys = t.keys :=
  keys_map_value (fun l v => if l = k then f v else v) t.entries

@[simp] theorem mem_modify (t : Table K V) (k l : K) (f : V → V) : l ∈ modify t k f ↔ l ∈ t := by
  rw [← lookup_isSome, ← lookup_isSome, modify, lookup_mapValues, Option.isSome_map]

end AList
