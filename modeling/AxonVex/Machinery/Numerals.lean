import Mathlib.Data.List.Induction
import Mathlib.Data.Nat.Basic
import Mathlib.Tactic.Ring

/-!
# Machinery/Numerals — numerals of a fixed width

    fixed (k + 1) v = fixed k (v / b) ++ [digit (v % b)]

A number is written with `k` digits of a base, the most significant first, and a numeral is read
from left to right.  Reading a written number gives it back up to `b ^ k` (`valueFrom_fixed`), and
writing what was read gives the numeral back (`fixed_of_value`).
-/

namespace Machinery

/-- The digits of a base, and how they are written and read. -/
structure Digits (b : ℕ) (α : Type*) where
  write : ℕ → α
  read : α → Option ℕ
  read_write : ∀ n < b, read (write n) = some n
  write_read : ∀ c n, read c = some n → n < b ∧ write n = c

namespace Digits

variable {b : ℕ} {α : Type*} (D : Digits b α)

/-- The numeral of `v` with this many digits. -/
def fixed : ℕ → ℕ → List α
  | 0, _ => []
  | width + 1, v => fixed width (v / b) ++ [D.write (v % b)]

/-- What a numeral reads behind the number `m`; `none` where a letter is no digit. -/
def valueFrom (m : ℕ) : List α → Option ℕ
  | [] => some m
  | c :: cs => (D.read c).bind fun n => valueFrom (b * m + n) cs

@[simp] theorem fixed_zero (v : ℕ) : D.fixed 0 v = [] := rfl

theorem fixed_succ (width v : ℕ) :
    D.fixed (width + 1) v = D.fixed width (v / b) ++ [D.write (v % b)] := rfl

@[simp] theorem length_fixed (width v : ℕ) : (D.fixed width v).length = width := by
  induction width generalizing v with
  | zero => rfl
  | succ width ih => rw [fixed_succ, List.length_append, ih, List.length_singleton]

/-- The digits of a numeral, the leading ones and the rest. -/
theorem fixed_add (j k v : ℕ) : D.fixed (j + k) v = D.fixed j (v / b ^ k) ++ D.fixed k v := by
  induction k generalizing v with
  | zero => rw [Nat.pow_zero, Nat.div_one, fixed_zero, List.append_nil, Nat.add_zero]
  | succ k ih =>
    rw [← Nat.add_assoc, fixed_succ, ih, fixed_succ, Nat.div_div_eq_div_mul, ← Nat.pow_succ',
      List.append_assoc]

/-- Only the number up to `b ^ k` is written. -/
theorem fixed_mod (k v : ℕ) : D.fixed k (v % b ^ k) = D.fixed k v := by
  induction k generalizing v with
  | zero => rfl
  | succ k ih =>
    have hdiv : v % b ^ (k + 1) / b = v / b % b ^ k := by
      rw [Nat.pow_succ', Nat.mod_mul_right_div_self]
    have hmod : v % b ^ (k + 1) % b = v % b := Nat.mod_mod_of_dvd v (Dvd.intro_left (b ^ k) rfl)
    rw [fixed_succ, fixed_succ, hdiv, hmod, ih]

theorem valueFrom_append (m : ℕ) (cs ds : List α) :
    D.valueFrom m (cs ++ ds) = (D.valueFrom m cs).bind fun n => D.valueFrom n ds := by
  induction cs generalizing m with
  | nil => rfl
  | cons c cs ih =>
    rw [List.cons_append, valueFrom, valueFrom, Option.bind_assoc]
    exact congrArg _ (funext fun n => ih (b * m + n))

/-- A numeral is read if each of its letters is a digit. -/
theorem valueFrom_isSome_iff {m : ℕ} {cs : List α} :
    (D.valueFrom m cs).isSome = true ↔ ∀ c ∈ cs, (D.read c).isSome = true := by
  induction cs generalizing m with
  | nil => exact ⟨fun _ c hc => absurd hc List.not_mem_nil, fun _ => rfl⟩
  | cons c cs ih =>
    rw [List.forall_mem_cons, valueFrom]
    cases D.read c with
    | none => exact ⟨fun h => absurd h Bool.false_ne_true, fun h => absurd h.1 Bool.false_ne_true⟩
    | some n =>
      rw [Option.bind_some, ih]
      exact ⟨fun h => ⟨rfl, h⟩, fun h => h.2⟩

/-- **A written number is read back**, up to the width. -/
theorem valueFrom_fixed (hb : 0 < b) (m k v : ℕ) :
    D.valueFrom m (D.fixed k v) = some (b ^ k * m + v % b ^ k) := by
  induction k generalizing v with
  | zero => rw [fixed_zero, valueFrom, Nat.pow_zero, Nat.one_mul, Nat.mod_one, Nat.add_zero]
  | succ k ih =>
    have hdigit : D.read (D.write (v % b)) = some (v % b) := D.read_write _ (Nat.mod_lt v hb)
    have hmod : v % b ^ (k + 1) = v % b + b * (v / b % b ^ k) := by
      rw [Nat.pow_succ', Nat.mod_mul]
    rw [fixed_succ, valueFrom_append, ih, Option.bind_some, valueFrom, hdigit, Option.bind_some,
      valueFrom, hmod, Nat.pow_succ]
    congr 1
    ring

/-- **A numeral that was read is written back.** -/
theorem fixed_of_value {cs : List α} {n : ℕ} (h : D.valueFrom 0 cs = some n) :
    D.fixed cs.length n = cs := by
  induction cs using List.reverseRecOn generalizing n with
  | nil => rfl
  | append_singleton cs c ih =>
    rw [valueFrom_append] at h
    obtain ⟨m, hm, hc⟩ := Option.bind_eq_some_iff.mp h
    obtain ⟨d, hd, hn⟩ := Option.bind_eq_some_iff.mp hc
    obtain ⟨hlt, hwrite⟩ := D.write_read c d hd
    obtain rfl : b * m + d = n := Option.some.inj hn
    have hb : 0 < b := by omega
    have hdiv : (b * m + d) / b = m := by
      rw [Nat.mul_add_div hb, Nat.div_eq_of_lt hlt, Nat.add_zero]
    have hmod : (b * m + d) % b = d := by rw [Nat.mul_add_mod, Nat.mod_eq_of_lt hlt]
    rw [List.length_append, List.length_singleton, fixed_succ, hdiv, hmod, ih hm, hwrite]

/-- The letters of a written number are digits. -/
theorem read_of_mem_fixed (hb : 0 < b) {k v : ℕ} {c : α} (hc : c ∈ D.fixed k v) :
    (D.read c).isSome = true := by
  have hsome : (D.valueFrom 0 (D.fixed k v)).isSome = true := by
    rw [valueFrom_fixed D hb]
    rfl
  exact D.valueFrom_isSome_iff.mp hsome c hc

end Digits

end Machinery
