import Mathlib.Data.List.Basic
import Mathlib.Order.Lattice

/-!
# Machinery/Members — maps as lists of members in key order

A map that iterates in the order of its keys is the list of its members.  `insert` puts a member at
its place and replaces one of the same key; `erase` removes a key.  Both are read through
`List.lookup`, insertions at different keys commute (`insert_comm`), and two lists in order that
answer every lookup alike are equal (`ext_of_lookup`).
-/

namespace Machinery

namespace Members

variable {K V : Type*} [LinearOrder K] [BEq K] [LawfulBEq K] {k l : K} {v w : V}
  {ms ns : List (K × V)}

/-- `map[k] = v`. -/
def insert (k : K) (v : V) : List (K × V) → List (K × V)
  | [] => [(k, v)]
  | m :: ms =>
    if k == m.1 then (k, v) :: ms
    else if k < m.1 then (k, v) :: m :: ms
    else m :: insert k v ms

omit [LinearOrder K] [LawfulBEq K] in
/-- `map.erase(k)`. -/
def erase (k : K) (ms : List (K × V)) : List (K × V) := ms.filter fun m => !(k == m.1)

/-- The keys ascend. -/
def Sorted (ms : List (K × V)) : Prop := ms.Pairwise fun m n => m.1 < n.1

/-! ## Lookups -/

omit [LinearOrder K] in
theorem lookup_cons_of_ne (h : l ≠ k) : ((k, v) :: ms).lookup l = ms.lookup l := by
  rw [List.lookup_cons, beq_false_of_ne h]

@[simp] theorem lookup_insert_self : (insert k v ms).lookup k = some v := by
  induction ms with
  | nil => simp [insert]
  | cons m ms ih =>
    rw [insert]
    split_ifs with heq hlt
    · exact List.lookup_cons_self
    · exact List.lookup_cons_self
    · have hne : k ≠ m.1 := by simpa using heq
      rw [lookup_cons_of_ne hne, ih]

theorem lookup_insert_of_ne (h : l ≠ k) : (insert k v ms).lookup l = ms.lookup l := by
  induction ms with
  | nil => exact lookup_cons_of_ne h
  | cons m ms ih =>
    rw [insert]
    split_ifs with heq hlt
    · obtain rfl : k = m.1 := by simpa using heq
      rw [lookup_cons_of_ne h, lookup_cons_of_ne h]
    · exact lookup_cons_of_ne h
    · rw [List.lookup_cons, List.lookup_cons, ih]

omit [LinearOrder K] in
@[simp] theorem lookup_erase_self : (erase k ms).lookup k = none := by
  rw [List.lookup_eq_none_iff]
  intro m hm
  simpa [erase] using (List.mem_filter.mp hm).2

omit [LinearOrder K] in
theorem lookup_erase_of_ne (h : l ≠ k) : (erase k ms).lookup l = ms.lookup l := by
  induction ms with
  | nil => rfl
  | cons m ms ih =>
    rw [erase, List.filter_cons]
    split
    · rw [List.lookup_cons, List.lookup_cons, ← ih]
      rfl
    next hm =>
      obtain rfl : k = m.1 := by simpa using hm
      rw [lookup_cons_of_ne h]
      exact ih

/-! ## Insertions in a row -/

theorem insert_insert_self : insert k v (insert k w ms) = insert k v ms := by
  induction ms with
  | nil => simp [insert]
  | cons m ms ih =>
    rw [insert, insert]
    split_ifs with heq hlt
    · simp [insert]
    · simp [insert]
    · rw [insert, if_neg heq, if_neg hlt, ih]

/-- At the keys `k < l`, the first place for `k` is not behind the first place for `l`. -/
theorem insert_comm_of_lt (h : k < l) :
    insert k v (insert l w ms) = insert l w (insert k v ms) := by
  have hkl : (k == l) = false := beq_false_of_ne h.ne
  have hlk : (l == k) = false := beq_false_of_ne h.ne'
  induction ms with
  | nil => simp [insert, hkl, hlk, h, h.not_gt]
  | cons m ms ih =>
    by_cases hk : k = m.1
    · -- `m` goes, and `l` has its place behind
      subst hk
      simp [insert, hlk, h.not_gt]
    · by_cases hklt : k < m.1
      · by_cases hl : l = m.1
        · subst hl
          simp [insert, hkl, hlk, h, h.not_gt]
        · by_cases hllt : l < m.1
          · simp [insert, hk, hl, hkl, hlk, h, h.not_gt, hklt, hllt]
          · simp [insert, hk, hl, hlk, h.not_gt, hklt, hllt]
      · have hml : m.1 < l := lt_of_lt_of_le (lt_of_le_of_ne (not_lt.mp hklt) (Ne.symm hk)) h.le
        simp [insert, hk, hklt, hml.ne', hml.not_gt, ih]

/-- **Insertions at different keys commute.** -/
theorem insert_comm (h : k ≠ l) : insert k v (insert l w ms) = insert l w (insert k v ms) := by
  rcases lt_or_gt_of_ne h with hlt | hlt
  · exact insert_comm_of_lt hlt
  · exact (insert_comm_of_lt hlt).symm

/-! ## Order -/

omit [LawfulBEq K] in
theorem mem_of_mem_insert {m : K × V} (h : m ∈ insert k v ms) : m = (k, v) ∨ m ∈ ms := by
  induction ms with
  | nil => exact .inl (List.mem_singleton.mp h)
  | cons n ns ih =>
    rw [insert] at h
    split_ifs at h
    · exact (List.mem_cons.mp h).imp_right (List.mem_cons_of_mem _)
    · exact List.mem_cons.mp h
    · rcases List.mem_cons.mp h with rfl | h
      · exact .inr List.mem_cons_self
      · exact (ih h).imp_right (List.mem_cons_of_mem _)

theorem Sorted.insert (h : Sorted ms) : Sorted (Members.insert k v ms) := by
  induction ms with
  | nil => exact List.pairwise_singleton _ _
  | cons m ms ih =>
    obtain ⟨hm, hms⟩ := List.pairwise_cons.mp h
    rw [Members.insert]
    split_ifs with heq hlt
    · obtain rfl : k = m.1 := by simpa using heq
      exact List.pairwise_cons.mpr ⟨hm, hms⟩
    · refine List.pairwise_cons.mpr ⟨fun n hn => ?_, h⟩
      rcases List.mem_cons.mp hn with rfl | hn
      · exact hlt
      · exact hlt.trans (hm n hn)
    · refine List.pairwise_cons.mpr ⟨fun n hn => ?_, ih hms⟩
      rcases mem_of_mem_insert hn with rfl | hn
      · have hne : k ≠ m.1 := by simpa using heq
        exact lt_of_le_of_ne (not_lt.mp hlt) hne.symm
      · exact hm n hn

omit [LawfulBEq K] in
theorem Sorted.erase (h : Sorted ms) : Sorted (Members.erase k ms) :=
  h.sublist List.filter_sublist

/-- A key before the first one is not there. -/
theorem lookup_eq_none_of_lt (h : Sorted ((k, v) :: ms)) (hl : l < k) :
    ((k, v) :: ms).lookup l = none := by
  rw [List.lookup_eq_none_iff]
  intro m hm
  rcases List.mem_cons.mp hm with rfl | hm
  · simpa using hl.ne
  · have hkm : k < m.1 := (List.pairwise_cons.mp h).1 m hm
    simpa using (hl.trans hkm).ne

omit [LinearOrder K] in
theorem mem_of_lookup (h : ms.lookup k = some v) : (k, v) ∈ ms := by
  obtain ⟨before, after, rfl, -⟩ := List.lookup_eq_some_iff.mp h
  exact List.mem_append_right _ List.mem_cons_self

theorem lookup_of_mem (h : Sorted ms) (hm : (k, v) ∈ ms) : ms.lookup k = some v := by
  induction ms with
  | nil => exact absurd hm List.not_mem_nil
  | cons m ms ih =>
    obtain ⟨hlt, hms⟩ := List.pairwise_cons.mp h
    rcases List.mem_cons.mp hm with rfl | hm
    · exact List.lookup_cons_self
    · rw [lookup_cons_of_ne (hlt _ hm).ne', ih hms hm]

/-- Writing what is there changes nothing. -/
theorem insert_of_lookup (h : Sorted ms) (hk : ms.lookup k = some v) : insert k v ms = ms := by
  induction ms with
  | nil => cases hk
  | cons m ms ih =>
    obtain ⟨-, hms⟩ := List.pairwise_cons.mp h
    rw [insert]
    split_ifs with heq hlt
    · obtain rfl : k = m.1 := by simpa using heq
      rw [List.lookup_cons_self] at hk
      rw [← Option.some.inj hk]
    · exact absurd (hk.symm.trans (lookup_eq_none_of_lt h hlt)) (by simp)
    · have hne : k ≠ m.1 := by simpa using heq
      rw [lookup_cons_of_ne hne] at hk
      rw [ih hms hk]

/-- **Maps in order are what they answer.** -/
theorem ext_of_lookup (hms : Sorted ms) (hns : Sorted ns)
    (h : ∀ k, ms.lookup k = ns.lookup k) : ms = ns := by
  induction ms generalizing ns with
  | nil =>
    cases ns with
    | nil => rfl
    | cons n ns =>
      have hn := h n.1
      rw [List.lookup_cons_self] at hn
      exact absurd hn (by simp)
  | cons m ms ih =>
    cases ns with
    | nil =>
      have hm := h m.1
      rw [List.lookup_cons_self] at hm
      exact absurd hm (by simp)
    | cons n ns =>
      obtain ⟨k, v⟩ := m
      obtain ⟨l, w⟩ := n
      have hkl : k = l := by
        rcases lt_trichotomy k l with hlt | heq | hlt
        · have hk := h k
          rw [List.lookup_cons_self, lookup_eq_none_of_lt hns hlt] at hk
          cases hk
        · exact heq
        · have hl := h l
          rw [List.lookup_cons_self, lookup_eq_none_of_lt hms hlt] at hl
          exact absurd hl (by simp)
      subst hkl
      have hvw : v = w := by
        have hk := h k
        rw [List.lookup_cons_self, List.lookup_cons_self] at hk
        exact Option.some.inj hk
      have hrest : ms = ns := by
        refine ih (List.pairwise_cons.mp hms).2 (List.pairwise_cons.mp hns).2 fun j => ?_
        by_cases hj : j = k
        · have hnone {ts : List (K × V)} {u : V} (hts : Sorted ((k, u) :: ts)) :
              ts.lookup k = none := by
            rw [List.lookup_eq_none_iff]
            intro t ht
            have hlt : k < t.1 := (List.pairwise_cons.mp hts).1 t ht
            simpa using hlt.ne
          rw [hj, hnone hms, hnone hns]
        · have hj' := h j
          rwa [lookup_cons_of_ne hj, lookup_cons_of_ne hj] at hj'
      rw [hvw, hrest]

end Members

end Machinery
