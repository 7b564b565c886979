import Mathlib.Algebra.BigOperators.Group.List.Basic
import Mathlib.Algebra.Group.Basic
import Mathlib.Data.List.DropRight
import Mathlib.Data.List.Rotate
import Mathlib.Data.Nat.ModEq
import Mathlib.Tactic.Abel

/-!
# Machinery/SlidingWindow — the last entries of a sequence, in a ring of slots

    xs = x₀ x₁ … x₍ₙ₋₁₎      slot of xⱼ:  j % w      next slot:  n % w

A ring of `w` slots into which a sequence is written holds its last `w` entries (`Holds.push`), and
the next slot then holds the entry that leaves the window (`Holds.oldest`); read from there and
round, the slots are the window (`Holds.rotate`).  A sum over the window
changes by the entry that comes and the one that leaves (`sum_rtake_of_lt`, `sum_rtake_of_le`).
-/

namespace Machinery

namespace SlidingWindow

variable {α : Type*} {w : ℕ} {xs slots : List α}

/-- The `w` slots hold the last `w` entries of `xs`, each where its index puts it. -/
structure Holds (w : ℕ) (xs slots : List α) : Prop where
  length : slots.length = w
  entry : ∀ j, j < xs.length → xs.length ≤ j + w → slots[j % w]? = xs[j]?

theorem Holds.nil (h : slots.length = w) : Holds w [] slots where
  length := h
  entry _ hj := absurd hj (Nat.not_lt_zero _)

/-- Two entries of one window have different slots. -/
theorem mod_ne_of_lt {i j : ℕ} (hij : i < j) (hj : j < i + w) : i % w ≠ j % w := by
  intro heq
  have hdvd : w ∣ j - i := (Nat.modEq_iff_dvd' hij.le).mp heq
  have hle : w ≤ j - i := Nat.le_of_dvd (by omega) hdvd
  omega

/-- **The next entry goes to the next slot.** -/
theorem Holds.push (h : Holds w xs slots) (hw : 0 < w) (x : α) :
    Holds w (xs ++ [x]) (slots.set (xs.length % w) x) := by
  have hslot : xs.length % w < slots.length := h.length.symm ▸ Nat.mod_lt _ hw
  refine ⟨(List.length_set ..).trans h.length, fun j hj hlast => ?_⟩
  rw [List.length_append, List.length_singleton] at hj hlast
  rcases Nat.lt_succ_iff_lt_or_eq.mp hj with hlt | rfl
  · have hne : xs.length % w ≠ j % w := (mod_ne_of_lt hlt (by omega)).symm
    rw [List.getElem?_set_ne hne, List.getElem?_append_left hlt]
    exact h.entry j hlt (by omega)
  · rw [List.getElem?_set_self hslot, List.getElem?_concat_length]

/-- **The next slot holds what leaves the window.** -/
theorem Holds.oldest (h : Holds w xs slots) (hw : 0 < w) (hle : w ≤ xs.length) :
    slots[xs.length % w]? = xs[xs.length - w]? := by
  have hmod : xs.length % w = (xs.length - w) % w := Nat.mod_eq_sub_mod hle
  rw [hmod]
  exact h.entry _ (by omega) (by omega)

theorem length_rtake (xs : List α) (w : ℕ) : (xs.rtake w).length = min xs.length w := by
  rw [List.rtake, List.length_drop]
  omega

theorem rtake_of_length_le (h : xs.length ≤ w) : xs.rtake w = xs := by
  rw [List.rtake, Nat.sub_eq_zero_of_le h, List.drop_zero]

/-- No more than there is. -/
theorem rtake_min_length (xs : List α) (w : ℕ) : xs.rtake (min xs.length w) = xs.rtake w := by
  rw [List.rtake, List.rtake]
  exact congrArg (List.drop · xs) (by omega)

/-- **A window of the window** and the next entry is the next window. -/
theorem rtake_rtake_concat (xs : List α) (w : ℕ) (x : α) :
    (xs.rtake w ++ [x]).rtake w = (xs ++ [x]).rtake w := by
  cases w with
  | zero => rw [List.rtake_zero, List.rtake_zero]
  | succ k =>
    have hinner : (xs.rtake (k + 1)).rtake k = xs.rtake k := by
      have hlength := length_rtake xs (k + 1)
      rw [List.rtake, hlength, List.rtake, List.rtake, List.drop_drop]
      exact congrArg (List.drop · xs) (by omega)
    rw [List.rtake_concat_succ, List.rtake_concat_succ, hinner]

/-- A sequence that just fills the slots, written in order. -/
theorem Holds.of_length_eq (h : xs.length = w) : Holds w xs xs where
  length := h
  entry j hj _ := by rw [Nat.mod_eq_of_lt (h ▸ hj)]

/-- **From the next slot on, and round**: the last entries in their order. -/
theorem Holds.rotate (h : Holds w xs slots) (hle : w ≤ xs.length) :
    slots.rotate (xs.length % w) = xs.rtake w := by
  have hlength : (slots.rotate (xs.length % w)).length = (xs.rtake w).length := by
    rw [List.length_rotate, h.length, length_rtake, min_eq_right hle]
  refine List.ext_getElem? fun i => ?_
  by_cases hi : i < w
  · have hentry := h.entry (xs.length - w + i) (by omega) (by omega)
    have hslot : (i + xs.length % w) % w = (xs.length - w + i) % w := by
      have hround : i + xs.length = xs.length - w + i + w := by omega
      rw [Nat.add_mod_mod, hround, Nat.add_mod_right]
    rw [List.getElem?_rotate (h.length.symm ▸ hi), h.length, hslot, hentry, List.rtake,
      List.getElem?_drop]
  · rw [List.getElem?_eq_none (by rw [List.length_rotate, h.length]; omega),
      List.getElem?_eq_none (by rw [← hlength, List.length_rotate, h.length]; omega)]

/-! ## The sum over the window -/

variable [AddCommGroup α]

/-- The window is not full yet: nothing leaves it. -/
theorem sum_rtake_of_lt (hlt : xs.length < w) (x : α) :
    ((xs ++ [x]).rtake w).sum = (xs.rtake w).sum + x := by
  have hnext : (xs ++ [x]).length ≤ w := by
    rw [List.length_append, List.length_singleton]
    exact hlt
  rw [rtake_of_length_le hnext, rtake_of_length_le hlt.le, List.sum_append, List.sum_singleton]

/-- The window is full: its oldest entry leaves it. -/
theorem sum_rtake_of_le (hw : 0 < w) (hle : w ≤ xs.length) {oldest : α}
    (hold : xs[xs.length - w]? = some oldest) (x : α) :
    ((xs ++ [x]).rtake w).sum = (xs.rtake w).sum + (x - oldest) := by
  obtain ⟨k, rfl⟩ := Nat.exists_eq_succ_of_ne_zero hw.ne'
  obtain ⟨hlt, hentry⟩ := List.getElem?_eq_some_iff.mp hold
  have hcons : xs.rtake (k + 1) = oldest :: xs.rtake k := by
    have hnext : xs.length - (k + 1) + 1 = xs.length - k := by omega
    rw [List.rtake, List.drop_eq_getElem_cons hlt, hentry, hnext, List.rtake]
  rw [List.rtake_concat_succ, hcons, List.sum_append, List.sum_singleton, List.sum_cons]
  abel

end SlidingWindow

end Machinery
