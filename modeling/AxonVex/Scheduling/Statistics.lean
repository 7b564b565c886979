import AxonVex.Core.Scheduler
import Mathlib.Algebra.Order.Ring.Int
import Mathlib.Data.List.Induction

/-!
# Scheduling/Statistics — the running average of the execution times

    average := (average · (total − 1) + time) / total     min, max := over the successes

`total` counts the failures, the average moves with the successes only, and starts at 0.  Between two
successes the average stays between the extremes (`mean_mem`); but a first success that is not the
first execution is averaged with that 0, and falls below the minimum (`consistent_iff`).
-/

namespace AxonVex

namespace SchedulerStatistics

open RealTimeScheduler

/-- An execution as `updateGlobalStatistics` is told of it. -/
structure Execution where
  success : Bool
  time : Microseconds
  missedDeadline : Bool := false
  nonneg : 0 ≤ time

/-- The statistics after one more execution. -/
def update (st : SchedulerStatistics) (x : Execution) : SchedulerStatistics :=
  updateGlobalStatistics st x.success x.time x.missedDeadline

/-- **The statistics of these executions**, the first of them after a reset. -/
def after (xs : List Execution) : SchedulerStatistics := xs.foldl update {}

/-- The times of the successful ones. -/
def successTimes (xs : List Execution) : List Microseconds :=
  (xs.filter (·.success)).map (·.time)

/-- The numbers are the least and the greatest of the times. -/
structure Extremes (times : List Microseconds) (least greatest : Microseconds) : Prop where
  least_mem : least ∈ times
  least_le : ∀ time ∈ times, least ≤ time
  greatest_mem : greatest ∈ times
  le_greatest : ∀ time ∈ times, time ≤ greatest

/-- **The statistics fit together.** -/
structure Consistent (xs : List Execution) : Prop where
  counted : (after xs).totalExecutions =
    (after xs).successfulExecutions + (after xs).failedExecutions
  between : successTimes xs ≠ [] → ∃ least, (after xs).minExecutionTime = some least ∧
    Extremes (successTimes xs) least (after xs).maxExecutionTime ∧
    least ≤ (after xs).averageExecutionTime ∧
    (after xs).averageExecutionTime ≤ (after xs).maxExecutionTime

/-- **The condition**: the first success is the first execution, or takes no time. -/
def StartsWithSuccess (xs : List Execution) : Prop :=
  ∀ x, xs.find? (·.success) = some x → xs.head? = some x ∨ x.time = 0

@[simp] theorem after_nil : after [] = {} := rfl

@[simp] theorem after_concat (xs : List Execution) (x : Execution) :
    after (xs ++ [x]) = (after xs).update x := by
  rw [after, List.foldl_append]
  rfl

@[simp] theorem successTimes_nil : successTimes [] = [] := rfl

theorem successTimes_concat (xs : List Execution) (x : Execution) :
    successTimes (xs ++ [x]) = successTimes xs ++ if x.success then [x.time] else [] := by
  rw [successTimes, List.filter_append, List.map_append]
  cases hx : x.success <;> simp [successTimes, hx]

/-! ## What holds of all executions -/

theorem totalExecutions_after (xs : List Execution) : (after xs).totalExecutions = xs.length := by
  induction xs using List.reverseRecOn with
  | nil => rfl
  | append_singleton xs x ih =>
    rw [after_concat, List.length_append, ← ih, update, updateGlobalStatistics]
    dsimp only
    split_ifs <;> rfl

theorem counted_after (xs : List Execution) : (after xs).totalExecutions =
    (after xs).successfulExecutions + (after xs).failedExecutions := by
  induction xs using List.reverseRecOn with
  | nil => rfl
  | append_singleton xs x ih =>
    rw [after_concat, update, updateGlobalStatistics]
    dsimp only
    split_ifs <;> dsimp only <;> omega

/-- Before the first success nothing is known of the times. -/
theorem after_of_no_success {xs : List Execution} (hxs : successTimes xs = []) :
    (after xs).averageExecutionTime = 0 ∧ (after xs).minExecutionTime = none ∧
      (after xs).maxExecutionTime = 0 := by
  induction xs using List.reverseRecOn with
  | nil => exact ⟨rfl, rfl, rfl⟩
  | append_singleton xs x ih =>
    rw [successTimes_concat, List.append_eq_nil_iff] at hxs
    have hfail : x.success = false := by simpa using hxs.2
    rw [after_concat, update, updateGlobalStatistics]
    simpa [hfail] using ih hxs.1

/-- One more time. -/
theorem Extremes.concat {times : List Microseconds} {least greatest : Microseconds}
    (h : Extremes times least greatest) (time : Microseconds) :
    Extremes (times ++ [time]) (min time least) (max time greatest) where
  least_mem := by
    rcases min_choice time least with hm | hm
    · simp [hm]
    · simp [hm, h.least_mem]
  least_le t ht := by
    rcases List.mem_append.mp ht with hold | hnew
    · exact (min_le_right _ _).trans (h.least_le t hold)
    · exact List.mem_singleton.mp hnew ▸ min_le_left _ _
  greatest_mem := by
    rcases max_choice time greatest with hm | hm
    · simp [hm]
    · simp [hm, h.greatest_mem]
  le_greatest t ht := by
    rcases List.mem_append.mp ht with hold | hnew
    · exact (h.le_greatest t hold).trans (le_max_right _ _)
    · exact List.mem_singleton.mp hnew ▸ le_max_left _ _

theorem extremes_singleton (time : Microseconds) : Extremes [time] time time where
  least_mem := List.mem_singleton_self _
  least_le _ ht := (List.mem_singleton.mp ht).ge
  greatest_mem := List.mem_singleton_self _
  le_greatest _ ht := (List.mem_singleton.mp ht).le

/-- A failure leaves the times alone. -/
theorem update_failure {st : SchedulerStatistics} {x : Execution} (hx : x.success = false) :
    (st.update x).averageExecutionTime = st.averageExecutionTime ∧
      (st.update x).minExecutionTime = st.minExecutionTime ∧
      (st.update x).maxExecutionTime = st.maxExecutionTime := by
  simp [update, updateGlobalStatistics, hx]

/-- A success that is the first execution. -/
theorem update_first {st : SchedulerStatistics} {x : Execution} (hx : x.success = true)
    (hst : st.totalExecutions = 0) : (st.update x).averageExecutionTime = x.time ∧
      (st.update x).minExecutionTime = some x.time ∧ (st.update x).maxExecutionTime = x.time := by
  simp [update, updateGlobalStatistics, hx, hst]

/-- A success after other executions. -/
theorem update_later {st : SchedulerStatistics} {x : Execution} (hx : x.success = true)
    (hst : st.totalExecutions ≠ 0) : (st.update x).averageExecutionTime =
      (st.averageExecutionTime * st.totalExecutions + x.time).tdiv (st.totalExecutions + 1) ∧
      (st.update x).minExecutionTime = some (st.minExecutionTime.elim x.time (min x.time)) ∧
      (st.update x).maxExecutionTime = max x.time st.maxExecutionTime := by
  have hlater : st.totalExecutions + 1 ≠ 1 := by omega
  rw [update, updateGlobalStatistics, if_pos hx, if_neg hlater]
  simp

/-- The executions that succeeded leave the extremes of their times. -/
theorem extremes_after {xs : List Execution} (hxs : successTimes xs ≠ []) :
    ∃ least, (after xs).minExecutionTime = some least ∧
      Extremes (successTimes xs) least (after xs).maxExecutionTime := by
  induction xs using List.reverseRecOn with
  | nil => exact absurd rfl hxs
  | append_singleton xs x ih =>
    rw [successTimes_concat] at hxs ⊢
    rw [after_concat]
    cases hx : x.success with
    | false =>
      have hkept (st : SchedulerStatistics) := @update_failure st x hx
      obtain ⟨-, hmin, hmax⟩ := hkept (after xs)
      simp only [hx, Bool.false_eq_true, if_false, List.append_nil] at hxs ⊢
      rw [hmin, hmax]
      exact ih hxs
    | true =>
      simp only [if_true]
      by_cases htotal : (after xs).totalExecutions = 0
      · obtain ⟨-, hmin, hmax⟩ := update_first hx htotal
        rw [totalExecutions_after, List.length_eq_zero_iff] at htotal
        rw [hmin, hmax, htotal]
        exact ⟨x.time, rfl, extremes_singleton _⟩
      · obtain ⟨-, hmin, hmax⟩ := update_later hx htotal
        rw [hmin, hmax]
        by_cases hfirst : successTimes xs = []
        · obtain ⟨-, hmin', hmax'⟩ := after_of_no_success hfirst
          rw [hmin', hmax', hfirst, max_eq_left x.nonneg]
          exact ⟨x.time, rfl, extremes_singleton _⟩
        · obtain ⟨least, hmin', hext⟩ := ih hfirst
          rw [hmin']
          exact ⟨min x.time least, rfl, hext.concat _⟩

/-! ## The average -/

/-- **A truncated mean stays between the bounds of what it is taken of.** -/
theorem mean_mem {n : ℕ} {low high average time : ℤ} (hlow : 0 ≤ low) (ha : low ≤ average)
    (ha' : average ≤ high) (ht : low ≤ time) (ht' : time ≤ high) :
    low ≤ (average * n + time).tdiv ((n : ℤ) + 1) ∧
      (average * n + time).tdiv ((n : ℤ) + 1) ≤ high := by
  have hn : (0 : ℤ) ≤ n := Int.natCast_nonneg n
  have hpos : (0 : ℤ) < n + 1 := by omega
  have hbelow : low * n ≤ average * n := Int.mul_le_mul_of_nonneg_right ha hn
  have habove : average * n ≤ high * n := Int.mul_le_mul_of_nonneg_right ha' hn
  have hlow' : 0 ≤ low * n := Int.mul_nonneg hlow hn
  rw [Int.tdiv_eq_ediv_of_nonneg (by omega)]
  constructor
  · rw [Int.le_ediv_iff_mul_le hpos, Int.mul_add, Int.mul_one]
    omega
  · refine Int.le_of_lt_add_one ((Int.ediv_lt_iff_lt_mul hpos).mpr ?_)
    rw [Int.add_mul, Int.mul_add, Int.mul_one, Int.one_mul]
    omega

/-- A time averaged with zeros falls below itself. -/
theorem mean_lt {n : ℕ} {time : ℤ} (ht : 0 < time) (hn : n ≠ 0) :
    ((0 : ℤ) * n + time).tdiv ((n : ℤ) + 1) < time := by
  rw [Int.zero_mul, Int.zero_add, Int.tdiv_eq_ediv_of_nonneg ht.le,
    Int.ediv_lt_iff_lt_mul (by omega), Int.mul_add, Int.mul_one]
  have hpos : 0 < time * n := Int.mul_pos ht (by omega)
  omega

theorem find?_of_successTimes {xs : List Execution} (hxs : successTimes xs = []) :
    xs.find? (·.success) = none := by
  rw [successTimes, List.map_eq_nil_iff, List.filter_eq_nil_iff] at hxs
  exact List.find?_eq_none.mpr hxs

theorem StartsWithSuccess.of_concat {xs : List Execution} {x : Execution}
    (h : StartsWithSuccess (xs ++ [x])) : StartsWithSuccess xs := by
  intro y hy
  have hfind : (xs ++ [x]).find? (·.success) = some y := by
    rw [List.find?_append, hy]
    rfl
  rcases h y hfind with hhead | htime
  · refine .inl ?_
    cases xs with
    | nil => exact absurd hy (by simp)
    | cons z xs => exact hhead
  · exact .inr htime

/-- **The average is between the extremes** where the condition holds. -/
theorem average_mem {xs : List Execution} (hfirst : StartsWithSuccess xs) {low high : Microseconds}
    (hxs : successTimes xs ≠ []) (hlow : 0 ≤ low) (hleast : ∀ time ∈ successTimes xs, low ≤ time)
    (hgreatest : ∀ time ∈ successTimes xs, time ≤ high) :
    low ≤ (after xs).averageExecutionTime ∧ (after xs).averageExecutionTime ≤ high := by
  induction xs using List.reverseRecOn with
  | nil => exact absurd rfl hxs
  | append_singleton xs x ih =>
    rw [successTimes_concat] at hxs hleast hgreatest
    rw [after_concat]
    have hold := ih hfirst.of_concat
    cases hx : x.success with
    | false =>
      simp only [hx, Bool.false_eq_true, if_false, List.append_nil] at hxs hleast hgreatest
      rw [(update_failure hx).1]
      exact hold hxs hleast hgreatest
    | true =>
      simp only [hx, if_true] at hleast hgreatest
      have hx' : low ≤ x.time ∧ x.time ≤ high := ⟨hleast _ (by simp), hgreatest _ (by simp)⟩
      by_cases hnil : xs = []
      · rw [(update_first hx (by rw [hnil]; rfl)).1]
        exact hx'
      · have htotal : (after xs).totalExecutions ≠ 0 := by
          rw [totalExecutions_after]
          exact fun h => hnil (List.length_eq_zero_iff.mp h)
        rw [(update_later hx htotal).1]
        by_cases hsuccess : successTimes xs = []
        · -- the first success is not the first execution: it took no time
          have hfind : (xs ++ [x]).find? (·.success) = some x := by
            rw [List.find?_append, find?_of_successTimes hsuccess]
            simp [hx]
          have hhead : (xs ++ [x]).head? ≠ some x := by
            obtain ⟨y, ys, rfl⟩ := List.exists_cons_of_ne_nil hnil
            rintro hyx
            obtain rfl : y = x := Option.some.inj hyx
            simp [successTimes, hx] at hsuccess
          have htime := (hfirst x hfind).resolve_left hhead
          rw [(after_of_no_success hsuccess).1]
          exact mean_mem hlow (hx'.1.trans_eq htime) (hlow.trans (hx'.1.trans hx'.2)) hx'.1 hx'.2
        · obtain ⟨ha, ha'⟩ := hold hsuccess (fun t ht => hleast t (by simp [ht]))
            fun t ht => hgreatest t (by simp [ht])
          exact mean_mem hlow ha ha' hx'.1 hx'.2

theorem successTimes_nonneg {xs : List Execution} {time : Microseconds}
    (h : time ∈ successTimes xs) : 0 ≤ time := by
  obtain ⟨x, -, rfl⟩ := List.mem_map.mp h
  exact x.nonneg

theorem consistent_of_startsWithSuccess {xs : List Execution} (hfirst : StartsWithSuccess xs) :
    Consistent xs where
  counted := counted_after xs
  between hxs := by
    obtain ⟨least, hmin, hext⟩ := extremes_after hxs
    obtain ⟨ha, ha'⟩ := average_mem hfirst hxs (successTimes_nonneg hext.least_mem) hext.least_le
      hext.le_greatest
    exact ⟨least, hmin, hext, ha, ha'⟩

/-- The condition goes over to the beginnings. -/
theorem StartsWithSuccess.mono {xs ys : List Execution} (h : StartsWithSuccess xs)
    (hys : ys <+: xs) : StartsWithSuccess ys := by
  obtain ⟨zs, rfl⟩ := hys
  induction zs using List.reverseRecOn with
  | nil => simpa using h
  | append_singleton zs z ih => exact ih (StartsWithSuccess.of_concat (by simpa using h))

/-- **The average is between the extremes at every point** exactly if the first success is the first
execution, or takes no time. -/
theorem consistent_iff (xs : List Execution) :
    (∀ ys, ys <+: xs → Consistent ys) ↔ StartsWithSuccess xs := by
  refine ⟨fun hall x hfind => ?_, fun h ys hys => consistent_of_startsWithSuccess (h.mono hys)⟩
  obtain ⟨hx, before, rest, rfl, hfail⟩ := List.find?_eq_some_iff_append.mp hfind
  by_contra hnot
  rw [not_or] at hnot
  have hnil : before ≠ [] := by
    rintro rfl
    exact hnot.1 rfl
  have hnone : successTimes before = [] := by
    rw [successTimes, List.map_eq_nil_iff, List.filter_eq_nil_iff]
    exact fun y hy => by simpa using hfail y hy
  have hpos : 0 < x.time := lt_of_le_of_ne x.nonneg (Ne.symm hnot.2)
  have htotal : (after before).totalExecutions ≠ 0 := by
    rw [totalExecutions_after]
    exact fun h => hnil (List.length_eq_zero_iff.mp h)
  obtain ⟨least, -, hext, hle, -⟩ := (hall (before ++ [x]) ⟨rest, by simp⟩).between
    (by simp [successTimes_concat, hx])
  have hleast : least = x.time := by
    have hmem := hext.least_mem
    rw [successTimes_concat, hnone, hx] at hmem
    simpa using hmem
  rw [hleast, after_concat, (update_later hx htotal).1, (after_of_no_success hnone).1] at hle
  exact absurd hle (not_le.mpr (mean_lt hpos htotal))

/-- A failure, then a success of 10 µs: the average is 5. -/
theorem average_below_least : ¬ ∀ xs, Consistent xs := by
  intro hall
  obtain ⟨least, hmin, -, hle, -⟩ := (hall [⟨false, 3, false, by decide⟩, ⟨true, 10, false, by decide⟩]).between
    (by decide)
  have hleast : least = 10 := (Option.some.inj hmin).symm
  rw [hleast] at hle
  exact absurd hle (by decide)

end SchedulerStatistics

end AxonVex
