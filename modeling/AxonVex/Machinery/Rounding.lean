import Mathlib.Algebra.Group.Nat.Defs
import Mathlib.Order.Nat

/-!
# Machinery/Rounding — the nearest number with a mantissa of so many bits

`nearestMultiple unit n` is the multiple of `unit` nearest to `n`, a tie to the even one; for
`nearestMantissa bits n` the unit is the last place of `n`, with a mantissa of `bits` bits.  Both are
monotone, and leave what is on their grid.
-/

namespace Machinery

/-- The multiple of `unit` nearest to `n`, a tie to the even one. -/
def nearestMultiple (unit n : ℕ) : ℕ :=
  let quotient := n / unit
  let rest := n % unit
  let rounded :=
    if unit < 2 * rest ∨ 2 * rest = unit ∧ quotient % 2 = 1 then quotient + 1 else quotient
  rounded * unit

/-- The number nearest to `n` with a mantissa of `bits` bits. -/
def nearestMantissa (bits n : ℕ) : ℕ := nearestMultiple (2 ^ (n.log2 + 1 - bits)) n

variable {unit m n bits : ℕ}

/-- What is on the grid stays. -/
theorem nearestMultiple_of_dvd (hunit : 0 < unit) (h : unit ∣ n) : nearestMultiple unit n = n := by
  obtain ⟨k, rfl⟩ := h
  have hrest : ¬ (unit < 2 * 0 ∨ 2 * 0 = unit ∧ k % 2 = 1) := by omega
  rw [nearestMultiple, Nat.mul_mod_right, Nat.mul_div_cancel_left k hunit]
  simp only [hrest, if_false]
  exact Nat.mul_comm k unit

/-- **Rounding to a grid is monotone.** -/
theorem nearestMultiple_mono (h : m ≤ n) :
    nearestMultiple unit m ≤ nearestMultiple unit n := by
  have hquotient : m / unit ≤ n / unit := Nat.div_le_div_right h
  refine Nat.mul_le_mul_right unit ?_
  rcases Nat.lt_or_eq_of_le hquotient with hlt | heq
  · -- the larger quotient is at least what the smaller one is rounded to
    split_ifs <;> omega
  · have hrest : m % unit ≤ n % unit := by
      have hm := Nat.div_add_mod m unit
      have hn := Nat.div_add_mod n unit
      rw [heq] at hm
      omega
    rw [heq]
    split_ifs <;> omega

/-- The rounded number lies within the powers of two around `n`. -/
theorem nearestMantissa_le (bits n : ℕ) :
    nearestMantissa bits n ≤ 2 ^ (n.log2 + 1) := by
  have hdvd : 2 ^ (n.log2 + 1 - bits) ∣ 2 ^ (n.log2 + 1) := Nat.pow_dvd_pow 2 (Nat.sub_le ..)
  calc nearestMantissa bits n
      ≤ nearestMultiple (2 ^ (n.log2 + 1 - bits)) (2 ^ (n.log2 + 1)) :=
        nearestMultiple_mono Nat.lt_log2_self.le
    _ = 2 ^ (n.log2 + 1) := nearestMultiple_of_dvd (Nat.two_pow_pos _) hdvd

theorem le_nearestMantissa (hbits : 0 < bits) (hn : n ≠ 0) :
    2 ^ n.log2 ≤ nearestMantissa bits n := by
  have hdvd : 2 ^ (n.log2 + 1 - bits) ∣ 2 ^ n.log2 := Nat.pow_dvd_pow 2 (by omega)
  calc 2 ^ n.log2
      = nearestMultiple (2 ^ (n.log2 + 1 - bits)) (2 ^ n.log2) :=
        (nearestMultiple_of_dvd (Nat.two_pow_pos _) hdvd).symm
    _ ≤ nearestMantissa bits n := nearestMultiple_mono (Nat.log2_self_le hn)

/-- A number of at most `bits` bits stays, and so does the next one. -/
theorem nearestMantissa_of_le (hbits : 0 < bits) (h : n ≤ 2 ^ bits) : nearestMantissa bits n = n := by
  have hdvd : 2 ^ (n.log2 + 1 - bits) ∣ n := by
    rcases Nat.lt_or_eq_of_le h with hlt | rfl
    · rcases Nat.eq_zero_or_pos n with rfl | hpos
      · exact Nat.dvd_zero _
      · have hlog : n.log2 < bits := (Nat.log2_lt hpos.ne').mpr hlt
        have hunit : n.log2 + 1 - bits = 0 := by omega
        rw [hunit]
        exact Nat.one_dvd n
    · rw [Nat.log2_two_pow]
      exact Nat.pow_dvd_pow 2 (by omega)
  exact nearestMultiple_of_dvd (Nat.two_pow_pos _) hdvd

/-- **Rounding to a mantissa is monotone**: the last place changes at powers of two only, which are
on both grids. -/
theorem nearestMantissa_mono (hbits : 0 < bits) (h : m ≤ n) :
    nearestMantissa bits m ≤ nearestMantissa bits n := by
  rcases Nat.eq_zero_or_pos n with rfl | hpos
  · rw [Nat.le_zero.mp h]
  · have hlog : m.log2 ≤ n.log2 := by
      have hm : m < 2 ^ (n.log2 + 1) := h.trans_lt Nat.lt_log2_self
      rcases Nat.eq_zero_or_pos m with rfl | hmpos
      · exact Nat.zero_le _
      · exact Nat.lt_succ_iff.mp ((Nat.log2_lt hmpos.ne').mpr hm)
    rcases Nat.lt_or_eq_of_le hlog with hlt | heq
    · calc nearestMantissa bits m
          ≤ 2 ^ (m.log2 + 1) := nearestMantissa_le bits m
        _ ≤ 2 ^ n.log2 := Nat.pow_le_pow_right Nat.two_pos hlt
        _ ≤ nearestMantissa bits n := le_nearestMantissa hbits hpos.ne'
    · rw [nearestMantissa, nearestMantissa, heq]
      exact nearestMultiple_mono h

end Machinery
