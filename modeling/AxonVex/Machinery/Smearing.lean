import Mathlib.Algebra.Group.Nat.Defs
import Mathlib.Data.Nat.Size
import Mathlib.Order.Monotone.Basic
import Mathlib.Order.MinMax

/-!
# Machinery/Smearing — rounding up to a power of two, by bits

    v              0 0 1 0 1 0 0
    v | v >> 1     0 0 1 1 1 1 0
    … | … >> 2     0 0 1 1 1 1 1        2 ^ size v - 1

A shift by no more than what is smeared already doubles it at most (`Smeared.step`); a number smeared
over its whole size is all ones below its highest bit (`Smeared.eq_of_lt`).  One more is the least
power of two above it, `roundUp` (`roundUp_le_iff`).  Rounding is monotone and keeps powers of two,
so that it may be done before or after clamping between two of them (`roundUp_clamp`).
-/

namespace Machinery

/-- Every bit of `v` has spread over the `n` places from its own downwards. -/
def Smeared (n v w : ℕ) : Prop :=
  ∀ i, w.testBit i = true ↔ ∃ j, j < n ∧ v.testBit (j + i) = true

variable {n k v w : ℕ}

theorem Smeared.refl (v : ℕ) : Smeared 1 v v := by
  intro i
  constructor
  · intro h
    exact ⟨0, Nat.one_pos, by rwa [Nat.zero_add]⟩
  · rintro ⟨j, hj, h⟩
    obtain rfl : j = 0 := by omega
    rwa [Nat.zero_add] at h

/-- **A shift by no more than what is smeared** leaves no gap. -/
theorem Smeared.step (h : Smeared n v w) (hk : k ≤ n) : Smeared (n + k) v (w ||| (w >>> k)) := by
  intro i
  rw [Nat.testBit_or, Nat.testBit_shiftRight, Bool.or_eq_true, h, h]
  constructor
  · rintro (⟨j, hj, hbit⟩ | ⟨j, hj, hbit⟩)
    · exact ⟨j, by omega, hbit⟩
    · exact ⟨j + k, by omega, by rwa [Nat.add_assoc]⟩
  · rintro ⟨j, hj, hbit⟩
    by_cases hlow : j < n
    · exact .inl ⟨j, hlow, hbit⟩
    · have hsplit : j + i = (j - k) + (k + i) := by omega
      exact .inr ⟨j - k, by omega, by rwa [hsplit] at hbit⟩

/-- **Smeared over its whole size**: all ones up to the highest bit. -/
theorem Smeared.eq_of_lt (h : Smeared n v w) (hv : v < 2 ^ n) : w = 2 ^ v.size - 1 := by
  refine Nat.eq_of_testBit_eq fun i => ?_
  rw [Nat.testBit_two_pow_sub_one, Bool.eq_iff_iff, h, decide_eq_true_iff, Nat.lt_size]
  constructor
  · rintro ⟨j, -, hbit⟩
    have hpow : 2 ^ i ≤ 2 ^ (j + i) := Nat.pow_le_pow_right (by omega) (by omega)
    exact hpow.trans (Nat.ge_two_pow_of_testBit hbit)
  · intro hle
    obtain ⟨m, hm, hbit⟩ := Nat.exists_ge_and_testBit_of_ge_two_pow hle
    have hmn : 2 ^ m < 2 ^ n := (Nat.ge_two_pow_of_testBit hbit).trans_lt hv
    have hlt : m < n := (Nat.pow_lt_pow_iff_right (by omega)).mp hmn
    exact ⟨m - i, by omega, by rwa [Nat.sub_add_cancel hm]⟩

/-- A smearing shift of a word. -/
theorem Smeared.word {n v m : ℕ} {w k : UInt64} (h : Smeared n v w.toNat) (hk : k.toNat % 64 = m)
    (hm : m ≤ n) : Smeared (n + m) v (w ||| (w >>> k)).toNat := by
  rw [UInt64.toNat_or, UInt64.toNat_shiftRight, hk]
  exact h.step hm

/-- A smearing shift in two parts. -/
theorem Smeared.word_twice {n v : ℕ} {w : UInt64} (h : Smeared n v w.toNat) (hn : 32 ≤ n) :
    Smeared (n + 32) v (w ||| ((w >>> 16) >>> 16)).toNat := by
  have hshift : ((w >>> 16) >>> 16).toNat = w.toNat >>> 32 := by
    rw [UInt64.toNat_shiftRight, UInt64.toNat_shiftRight, ← Nat.shiftRight_add]
    rfl
  rw [UInt64.toNat_or, hshift]
  exact h.step hn

/-! ## The least power of two -/

/-- The least power of two that is not below `n`. -/
def roundUp (n : ℕ) : ℕ := 2 ^ (n - 1).size

theorem roundUp_le_iff : roundUp n ≤ 2 ^ k ↔ n ≤ 2 ^ k := by
  have hpos : 0 < 2 ^ k := Nat.two_pow_pos k
  rw [roundUp, Nat.pow_le_pow_iff_right (by omega), Nat.size_le]
  omega

theorem le_roundUp (n : ℕ) : n ≤ roundUp n := roundUp_le_iff.mp le_rfl

theorem roundUp_two_pow (k : ℕ) : roundUp (2 ^ k) = 2 ^ k :=
  le_antisymm (roundUp_le_iff.mpr le_rfl) (le_roundUp _)

theorem roundUp_mono : Monotone roundUp := by
  intro m n hmn
  exact roundUp_le_iff.mpr (hmn.trans (le_roundUp n))

/-- **Rounding and clamping** commute, between two powers of two. -/
theorem roundUp_clamp (lo hi n : ℕ) :
    roundUp (max (2 ^ lo) (min (2 ^ hi) n)) = max (2 ^ lo) (min (2 ^ hi) (roundUp n)) := by
  rw [roundUp_mono.map_max, roundUp_mono.map_min, roundUp_two_pow, roundUp_two_pow]

end Machinery
