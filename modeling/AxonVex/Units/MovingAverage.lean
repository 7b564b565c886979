import AxonVex.Core.Ports
import AxonVex.Machinery.Machine
import AxonVex.Machinery.SlidingWindow
import Mathlib.Algebra.Order.Field.Rat
import Mathlib.Tactic.NormNum

/-!
# Units/MovingAverage — the mean of the last inputs

    samples_[head_] ← value;  head_ ← (head_ + 1) % window_;  out_ ← runningSum_ / filled_

`MovingAverage` keeps the inputs in a ring of `window_` slots, and the sum of those that are in it,
which it corrects by the input that comes and the one that is overwritten.  Over exact numbers the
sum is always that of the window, wherever the unit is reset (`output_is_mean`).
-/

namespace AxonVex

open Machinery

/-- `builtin::MovingAverage`, over exact numbers. -/
structure MovingAverage where
  window_ : ℕ
  samples_ : List ℚ
  head_ : ℕ := 0
  /-- samples written so far, at most `window_` -/
  filled_ : ℕ := 0
  runningSum_ : ℚ := 0
  state : ExecutionState := .uninitialized

namespace MovingAverage

/-- The constructor, with this value of the parameter `window`. -/
def construct (window : ℕ) : MovingAverage :=
  { window_ := window, samples_ := List.replicate window 0 }

variable (u : MovingAverage)

/-- `reset()`. -/
def reset : MovingAverage :=
  { u with
    samples_ := List.replicate u.samples_.length 0
    head_ := 0
    filled_ := 0
    runningSum_ := 0 }

/-- `initialize()`. -/
def initializeUnit : MovingAverage :=
  { u with
    samples_ := List.replicate u.samples_.length 0
    head_ := 0
    filled_ := 0
    runningSum_ := 0
    state := .initialized }

/-- `processSync()` with this value on `in`, and what it writes to `out`; `none` is an access
outside `samples_`. -/
def processSync (value : ℚ) : Option (MovingAverage × ℚ) :=
  if u.window_ = 0 then some (u, 0)
  else
    (u.samples_[u.head_]?).map fun oldest =>
      let filled := if u.filled_ < u.window_ then u.filled_ + 1 else u.filled_
      let runningSum :=
        if u.filled_ < u.window_ then u.runningSum_ + value else u.runningSum_ + (value - oldest)
      ({ u with
          samples_ := u.samples_.set u.head_ value
          head_ := (u.head_ + 1) % u.window_
          filled_ := filled
          runningSum_ := runningSum },
        runningSum / filled)

/-- A call of the unit. -/
inductive Call
  /-- `processSync()` with this value on `in` -/
  | tick (value : ℚ)
  | reset
  | initializeUnit

/-- The unit after a call. -/
def call (u : MovingAverage) : Call → Option MovingAverage
  | .tick value => (u.processSync value).map Prod.fst
  | .reset => some u.reset
  | .initializeUnit => some u.initializeUnit

/-- The units with this window, from their construction on. -/
def unit (window : ℕ) : Machine MovingAverage Call where
  init u := u = construct window
  step := call

/-! ## What the output is to be -/

/-- The value that a call brings. -/
def Call.value? : Call → Option ℚ
  | tick value => some value
  | _ => none

/-- The inputs since the last reset or initialization. -/
def inputsSince (calls : List Call) : List ℚ :=
  (calls.rtakeWhile fun c => c.value?.isSome).filterMap Call.value?

/-- The arithmetic mean. -/
def mean (xs : List ℚ) : ℚ := xs.sum / xs.length

@[simp] theorem inputsSince_nil : inputsSince [] = [] := rfl

theorem inputsSince_tick (calls : List Call) (value : ℚ) :
    inputsSince (calls ++ [.tick value]) = inputsSince calls ++ [value] := by
  rw [inputsSince, List.rtakeWhile_concat_pos _ _ _ rfl, List.filterMap_append]
  rfl

theorem inputsSince_of_none (calls : List Call) {c : Call} (h : c.value? = none) :
    inputsSince (calls ++ [c]) = [] := by
  rw [inputsSince, List.rtakeWhile_concat_neg _ _ _ (by simp [h]), List.filterMap_nil]

/-! ## The invariant -/

variable {u} {w : ℕ} {xs : List ℚ}

/-- **The unit has taken the inputs `xs`** since it was cleared. -/
structure HasTaken (w : ℕ) (xs : List ℚ) (u : MovingAverage) : Prop where
  window : u.window_ = w
  holds : SlidingWindow.Holds w xs u.samples_
  head : u.head_ = xs.length % w
  filled : u.filled_ = min xs.length w
  sum : u.runningSum_ = (xs.rtake w).sum

theorem hasTaken_construct (w : ℕ) : HasTaken w [] (construct w) where
  window := rfl
  holds := .nil List.length_replicate
  head := (Nat.zero_mod w).symm
  filled := (Nat.zero_min w).symm
  sum := by rw [List.rtake_nil]; rfl

theorem HasTaken.reset (h : HasTaken w xs u) : HasTaken w [] u.reset where
  window := h.window
  holds := .nil (List.length_replicate.trans h.holds.length)
  head := (Nat.zero_mod w).symm
  filled := (Nat.zero_min w).symm
  sum := by rw [List.rtake_nil]; rfl

theorem HasTaken.initializeUnit (h : HasTaken w xs u) : HasTaken w [] u.initializeUnit :=
  { h.reset with }

/-- **A tick** takes its input, and the output is the mean over the window. -/
theorem HasTaken.processSync (h : HasTaken w xs u) (hw : 1 ≤ w) (value : ℚ) :
    ∃ u', u.processSync value = some (u', mean ((xs ++ [value]).rtake w)) ∧
      HasTaken w (xs ++ [value]) u' := by
  have hhead : u.head_ < u.samples_.length := by
    rw [h.head, h.holds.length]
    exact Nat.mod_lt _ hw
  have hread : u.samples_[u.head_]? = some u.samples_[u.head_] := List.getElem?_eq_getElem hhead
  have hwindow : u.window_ ≠ 0 := by rw [h.window]; omega
  have hlength : (xs ++ [value]).length = xs.length + 1 := by simp
  -- the two branches of the update, each with what it makes of the sum
  have hfilled : (if u.filled_ < u.window_ then u.filled_ + 1 else u.filled_) =
      min (xs ++ [value]).length w := by
    rw [h.filled, h.window, hlength]
    split <;> omega
  have hsum : (if u.filled_ < u.window_ then u.runningSum_ + value
      else u.runningSum_ + (value - u.samples_[u.head_])) = ((xs ++ [value]).rtake w).sum := by
    rw [h.filled, h.window, h.sum]
    split
    next hlt => exact (SlidingWindow.sum_rtake_of_lt (by omega) value).symm
    next hge =>
      have hle : w ≤ xs.length := by omega
      have hold : xs[xs.length - w]? = some u.samples_[u.head_] := by
        rw [← h.holds.oldest hw hle, ← h.head, hread]
      exact (SlidingWindow.sum_rtake_of_le hw hle hold value).symm
  refine ⟨{ u with
    samples_ := u.samples_.set u.head_ value
    head_ := (u.head_ + 1) % u.window_
    filled_ := min (xs ++ [value]).length w
    runningSum_ := ((xs ++ [value]).rtake w).sum }, ?_, ?_⟩
  · rw [MovingAverage.processSync, if_neg hwindow, hread, Option.map_some, hfilled, hsum, mean,
      SlidingWindow.length_rtake]
  · exact {
      window := h.window
      holds := by
        rw [h.head]
        exact h.holds.push hw value
      head := by
        rw [hlength, h.window, h.head]
        exact Nat.mod_add_mod _ _ _
      filled := rfl
      sum := rfl }

/-- **After any calls** the unit has taken the inputs since the last reset. -/
theorem hasTaken_exec (hw : 1 ≤ w) (calls : List Call) :
    ∃ u, (unit w).exec (construct w) calls = some u ∧ HasTaken w (inputsSince calls) u := by
  induction calls using List.reverseRecOn with
  | nil => exact ⟨_, rfl, hasTaken_construct w⟩
  | append_singleton calls c ih =>
    obtain ⟨u, hexec, hu⟩ := ih
    rw [Machine.exec_append, hexec]
    cases c with
    | tick value =>
      obtain ⟨u', hout, hu'⟩ := hu.processSync hw value
      refine ⟨u', ?_, inputsSince_tick calls value ▸ hu'⟩
      rw [Option.bind_some, Machine.exec_cons]
      change ((u.processSync value).map Prod.fst).bind _ = _
      rw [hout]
      rfl
    | reset =>
      have hsince : inputsSince (calls ++ [.reset]) = [] := inputsSince_of_none calls rfl
      exact ⟨_, rfl, hsince ▸ hu.reset⟩
    | initializeUnit =>
      have hsince : inputsSince (calls ++ [.initializeUnit]) = [] := inputsSince_of_none calls rfl
      exact ⟨_, rfl, hsince ▸ hu.initializeUnit⟩

/-- **The output is the mean** of the last inputs, as many as the window has slots or as there are
since the last reset. -/
theorem output_is_mean (hw : 1 ≤ w) (calls : List Call) (value : ℚ) :
    ∃ u u', (unit w).exec (construct w) calls = some u ∧
      u.processSync value = some (u', mean ((inputsSince calls ++ [value]).rtake
        (min (inputsSince calls ++ [value]).length w))) := by
  obtain ⟨u, hexec, hu⟩ := hasTaken_exec hw calls
  obtain ⟨u', hout, -⟩ := hu.processSync hw value
  refine ⟨u, u', hexec, ?_⟩
  rw [hout]
  congr 3
  rw [List.rtake, List.rtake]
  congr 1
  omega

/-- A window of two after a reset: the mean of 6 and 8, without the 4 before them. -/
theorem output_after_reset : ∃ u u',
    (unit 2).exec (construct 2) [.tick 1, .reset, .tick 4, .tick 6] = some u ∧
      u.processSync 8 = some (u', 7) := by
  obtain ⟨u, u', hexec, hout⟩ :=
    output_is_mean (by decide : 1 ≤ 2) [.tick 1, .reset, .tick 4, .tick 6] 8
  refine ⟨u, u', hexec, ?_⟩
  rw [hout]
  have hmean : mean [6, 8] = 7 := by norm_num [mean]
  exact congrArg (fun m => some (u', m)) hmean

end MovingAverage

end AxonVex
