import Mathlib.Data.List.Nodup
import Mathlib.Logic.Function.Basic

/-!
# Machinery/LinkedBlocks — a list of numbered blocks, linked by the number of the next one

`Linked null next i blocks` says that the numbers met from `i` on, up to `null`, are `blocks`.
-/

namespace Machinery

/-- From `i` on, `blocks` are linked one to the next, and the last one to `null`. -/
def Linked (null : ℕ) (next : ℕ → ℕ) : ℕ → List ℕ → Prop
  | i, [] => i = null
  | i, b :: blocks => i = b ∧ b ≠ null ∧ Linked null next (next b) blocks

variable {null i b : ℕ} {next next' : ℕ → ℕ} {blocks : List ℕ}

/-- Where the list does not begin with `null`, its first block can be taken off. -/
theorem Linked.pop (h : Linked null next i blocks) (hi : i ≠ null) :
    ∃ rest, blocks = i :: rest ∧ Linked null next (next i) rest := by
  cases blocks with
  | nil => exact absurd h hi
  | cons b blocks =>
    obtain ⟨rfl, -, hrest⟩ := h
    exact ⟨blocks, rfl, hrest⟩

/-- A block that is linked to the first one comes before it. -/
theorem Linked.push (h : Linked null next (next b) blocks) (hb : b ≠ null) :
    Linked null next b (b :: blocks) :=
  ⟨rfl, hb, h⟩

/-- Links of other blocks do not matter. -/
theorem Linked.congr (h : Linked null next i blocks) (hsame : ∀ b ∈ blocks, next' b = next b) :
    Linked null next' i blocks := by
  induction blocks generalizing i with
  | nil => exact h
  | cons b blocks ih =>
    obtain ⟨rfl, hb, hrest⟩ := h
    refine ⟨rfl, hb, ?_⟩
    rw [hsame _ (List.mem_cons_self ..)]
    exact ih hrest fun b hmem => hsame b (List.mem_cons_of_mem _ hmem)

/-- A run of blocks, each linked to the one behind it. -/
theorem linked_range' {start count : ℕ} (hlink : ∀ k < count, next (start + k) =
    if k + 1 < count then start + k + 1 else null) (hnull : start + count ≤ null)
    (hcount : 0 < count) : Linked null next start (List.range' start count) := by
  induction count generalizing start with
  | zero => exact absurd hcount (Nat.lt_irrefl 0)
  | succ count ih =>
    refine ⟨rfl, by omega, ?_⟩
    have hfirst : next start = if 1 < count + 1 then start + 1 else null := by
      have hfirst := hlink 0 hcount
      rwa [Nat.add_zero, Nat.zero_add] at hfirst
    rw [hfirst]
    by_cases hmore : 0 < count
    · rw [if_pos (by omega)]
      refine ih (fun k hk => ?_) (by omega) hmore
      rw [Nat.add_assoc, Nat.add_comm 1 k, hlink (k + 1) (by omega)]
      split_ifs <;> omega
    · obtain rfl : count = 0 := by omega
      rfl

end Machinery
