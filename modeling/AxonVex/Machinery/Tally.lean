import AxonVex.Machinery.Table
import Mathlib.Algebra.BigOperators.Group.List.Basic
import Mathlib.Algebra.GroupWithZero.Nat

/-!
# Machinery/Tally — a table of counts

A **tally** keeps for each key how often it is in a list, and has no entry for a key that is not in it.
Counting one key up or down follows the list (`Tallies.countUp`, `Tallies.countDown`), and the sum of
the counts is its length.
-/

namespace Machinery

variable {K : Type*} [DecidableEq K]

/-- One more of the key. -/
def countUp (t : Table K ℕ) (k : K) : Table K ℕ := t.insert k ((t.lookup k).getD 0 + 1)

/-- One less of the key; its entry goes with the last one. -/
def countDown (t : Table K ℕ) (k : K) : Table K ℕ :=
  match t.lookup k with
  | none => t
  | some n => if n - 1 = 0 then t.erase k else t.insert k (n - 1)

omit [DecidableEq K] in
/-- The sum of the counts. -/
def total (t : Table K ℕ) : ℕ := t.values.sum

/-- The entry of a key is in the sum. -/
theorem total_erase (t : Table K ℕ) (k : K) :
    total (t.erase k) + (t.lookup k).getD 0 = total t := by
  obtain ⟨es, nd⟩ := t
  change ((es.kerase k).map Sigma.snd).sum + (es.dlookup k).getD 0 = (es.map Sigma.snd).sum
  induction es with
  | nil => rfl
  | cons e es ih =>
    obtain ⟨l, n⟩ := e
    by_cases hkl : k = l
    · subst hkl
      have hrest : (⟨k, n⟩ :: es : List (Sigma fun _ : K => ℕ)).kerase k = es := List.kerase_cons_eq rfl
      rw [hrest, List.dlookup_cons_eq, List.map_cons, List.sum_cons]
      exact Nat.add_comm _ _
    · have hrest := ih (List.nodupKeys_cons.mp nd).2
      have hkept : (⟨l, n⟩ :: es : List (Sigma fun _ : K => ℕ)).kerase k = ⟨l, n⟩ :: es.kerase k :=
        List.kerase_cons_ne hkl
      rw [hkept, List.dlookup_cons_ne es _ hkl, List.map_cons, List.map_cons,
        List.sum_cons, List.sum_cons]
      omega

/-- A new entry takes the place of the old one. -/
theorem total_insert (t : Table K ℕ) (k : K) (n : ℕ) :
    total (t.insert k n) + (t.lookup k).getD 0 = total t + n := by
  have hinsert : total (t.insert k n) = n + total (t.erase k) := by
    rw [total, AList.values, AList.entries_insert, List.map_cons, List.sum_cons]
    rfl
  have herase := total_erase t k
  omega

/-- **The table counts the list.** -/
structure Tallies (t : Table K ℕ) (l : List K) : Prop where
  lookup : ∀ k, t.lookup k = if l.count k = 0 then none else some (l.count k)
  total : total t = l.length

variable {t : Table K ℕ} {l : List K} {k : K}

theorem Tallies.empty : Tallies (∅ : Table K ℕ) [] :=
  ⟨fun k => by rw [AList.lookup_empty, List.count_nil, if_pos rfl], rfl⟩

/-- The count of a key. -/
theorem Tallies.getD (h : Tallies t l) (k : K) : (t.lookup k).getD 0 = l.count k := by
  rw [h.lookup]
  split
  next hzero => rw [hzero]; rfl
  · rfl

theorem Tallies.lookup_eq_none (h : Tallies t l) : t.lookup k = none ↔ k ∉ l := by
  rw [h.lookup, ← List.count_eq_zero]
  split
  next hzero => exact iff_of_true rfl hzero
  next hzero => exact iff_of_false (by simp) hzero

/-- **The list grows.** -/
theorem Tallies.countUp (h : Tallies t l) (k : K) : Tallies (countUp t k) (k :: l) := by
  have hcount := h.getD k
  constructor
  · intro k'
    rw [Machinery.countUp, hcount]
    by_cases hk : k' = k
    · subst hk
      rw [AList.lookup_insert, List.count_cons_self, if_neg (Nat.succ_ne_zero _)]
    · rw [AList.lookup_insert_ne hk, List.count_cons_of_ne (Ne.symm hk), h.lookup]
  · have hinsert := total_insert t k ((t.lookup k).getD 0 + 1)
    rw [Machinery.countUp, List.length_cons, ← h.total]
    omega

/-- **The list shrinks.** -/
theorem Tallies.countDown (h : Tallies t l) (hk : k ∈ l) : Tallies (countDown t k) (l.erase k) := by
  have hpos : 0 < l.count k := List.count_pos_iff.mpr hk
  have hsome : t.lookup k = some (l.count k) := by
    rw [h.lookup, if_neg (Nat.pos_iff_ne_zero.mp hpos)]
  have hlength : (l.erase k).length + 1 = l.length := by
    rw [List.length_erase_of_mem hk]
    have := List.length_pos_of_mem hk
    omega
  have hother {k' : K} (hk' : k' ≠ k) : (l.erase k).count k' = l.count k' :=
    List.count_erase_of_ne hk'
  have hself : (l.erase k).count k = l.count k - 1 := List.count_erase_self
  unfold Machinery.countDown
  rw [hsome]
  dsimp only
  split
  next hlast =>
    constructor
    · intro k'
      by_cases hk' : k' = k
      · subst hk'
        rw [AList.lookup_erase, hself, if_pos hlast]
      · rw [AList.lookup_erase_ne hk', hother hk', h.lookup]
    · have herase := total_erase t k
      rw [hsome, Option.getD_some, h.total] at herase
      omega
  next hmore =>
    constructor
    · intro k'
      by_cases hk' : k' = k
      · subst hk'
        rw [AList.lookup_insert, hself, if_neg hmore]
      · rw [AList.lookup_insert_ne hk', hother hk', h.lookup]
    · have hinsert := total_insert t k (l.count k - 1)
      rw [hsome, Option.getD_some, h.total] at hinsert
      omega

end Machinery
