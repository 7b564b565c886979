import AxonVex.Core.Scheduler
import AxonVex.Machinery.Machine
import Mathlib.Algebra.BigOperators.Group.Finset.Basic
import Mathlib.Data.Fintype.BigOperators

/-!
# Scheduling/Misses — two counters of missed deadlines

    success:  hasDeadlinePassed ──▸ task.missedDeadlines     nextExecution := start + period
                                                             hasDeadlinePassed ──▸ statistics
    failure:  hasDeadlinePassed ──▸ both

After a success the task's own counter is moved before the slot advances, and the global one after it:
the one looks at the slot that was executed, the other at the next.  Both look at the clock at the
bookkeeping, not at the end of the execution.  So the counters count the late executions, and agree,
exactly as long as for each execution these questions have the answer of the deadline itself
(`missesCounted_iff`).
-/

namespace AxonVex

open Machinery

namespace RealTimeScheduler

/-- The bookkeeping of `finalizeTaskExecution` on the task, with the reading of the clock in
`updateTaskStatistics` apart from the one after it. -/
def finalizeTaskAt (task : SchedulerTask) (result : TaskExecutionResult) (checked now : TimePoint) :
    SchedulerTask × TaskFinalizeOutcome :=
  if result.success then
    let missed := if hasDeadlinePassed checked task then 1 else 0
    let task := { task with
      executionCount := task.executionCount + 1
      totalExecutionTime := task.totalExecutionTime + result.executionTime
      missedDeadlines := task.missedDeadlines + missed
      lastExecution := result.executionStart
      nextExecution := result.executionStart + task.constraints.period
      consecutiveFailures := 0
      executing := false }
    (task, ⟨task.unit, hasDeadlinePassed now task, false⟩)
  else finalizeTask task result now

end RealTimeScheduler

/-- An execution of one of `n` tasks: what came of it, and the two readings of its bookkeeping. -/
structure SlotExecution (n : ℕ) where
  task : Fin n
  result : TaskExecutionResult
  checked : TimePoint
  now : TimePoint

/-- The tasks, the statistics, and the tasks whose executions were late. -/
structure MissRun (n : ℕ) where
  tasks : Fin n → SchedulerTask
  statistics : SchedulerStatistics := {}
  late : List (Fin n) := []

namespace MissRun

open RealTimeScheduler

variable {n : ℕ}

/-- The absolute deadline of the slot a task is executed for. -/
def slotDeadline (task : SchedulerTask) : TimePoint := task.nextExecution + task.constraints.deadline

/-- The execution ended after the deadline of its slot. -/
def IsLate (p : MissRun n) (x : SlotExecution n) : Prop :=
  slotDeadline (p.tasks x.task) < x.result.executionEnd

instance (p : MissRun n) (x : SlotExecution n) : Decidable (p.IsLate x) :=
  inferInstanceAs (Decidable (_ < _))

/-- What the bookkeeping finds. -/
def outcome (p : MissRun n) (x : SlotExecution n) : SchedulerTask × TaskFinalizeOutcome :=
  finalizeTaskAt (p.tasks x.task) x.result x.checked x.now

/-- One execution. -/
def execute (p : MissRun n) (x : SlotExecution n) : MissRun n where
  tasks := Function.update p.tasks x.task (p.outcome x).1
  statistics := updateGlobalStatistics p.statistics x.result.success x.result.executionTime
    (p.outcome x).2.missedDeadline
  late := if p.IsLate x then p.late ++ [x.task] else p.late

/-- The tasks as `addTask` makes them, each with its constraints and the time it is added at. -/
def initial (added : Fin n → TimingConstraints × TimePoint) : MissRun n where
  tasks i :=
    { unit := i, constraints := (added i).1, taskId := i + 1, name := ""
      nextExecution := (added i).2 + (added i).1.period, lastExecution := (added i).2 }

/-- **Every sequence of executions.** -/
def machine (n : ℕ) : Machine (MissRun n) (SlotExecution n) :=
  ⟨fun p => ∃ added, p = initial added, fun p x => some (p.execute x)⟩

/-- **The misses are counted**: by each task its own, by the statistics all. -/
structure MissesCounted (p : MissRun n) : Prop where
  each : ∀ i, (p.tasks i).missedDeadlines = p.late.count i
  all : p.statistics.missedDeadlines = p.late.length
  sum : p.statistics.missedDeadlines = ∑ i, (p.tasks i).missedDeadlines

/-- **The readings answer for the end**: past the deadline of the slot exactly if the execution ended
past it, and after a success past the deadline of the next slot exactly then, too. -/
structure ReadingsAgree (p : MissRun n) (x : SlotExecution n) : Prop where
  checked : x.result.success = true →
    (slotDeadline (p.tasks x.task) < x.checked ↔ p.IsLate x)
  next : x.result.success = true →
    (x.result.executionStart + (p.tasks x.task).constraints.period +
      (p.tasks x.task).constraints.deadline < x.now ↔ p.IsLate x)
  failed : x.result.success = false → (slotDeadline (p.tasks x.task) < x.now ↔ p.IsLate x)

/-- The clock is steady: the readings come in this order, each execution after the one before. -/
def Steady : TimePoint → List (SlotExecution n) → Prop
  | _, [] => True
  | clock, x :: xs => clock ≤ x.result.executionStart ∧
      x.result.executionStart ≤ x.result.executionEnd ∧ x.result.executionEnd ≤ x.checked ∧
        x.checked ≤ x.now ∧ Steady x.now xs

/-! ## One execution -/

variable {p : MissRun n} {x : SlotExecution n}

/-- What the execution adds to the counter of its task. -/
def taskMiss (p : MissRun n) (x : SlotExecution n) : ℕ :=
  if slotDeadline (p.tasks x.task) < (if x.result.success then x.checked else x.now) then 1 else 0

/-- What it adds to the global counter. -/
def globalMiss (p : MissRun n) (x : SlotExecution n) : ℕ :=
  if (p.outcome x).2.missedDeadline then 1 else 0

def lateMiss (p : MissRun n) (x : SlotExecution n) : ℕ := if p.IsLate x then 1 else 0

theorem missedDeadlines_outcome :
    (p.outcome x).1.missedDeadlines = (p.tasks x.task).missedDeadlines + p.taskMiss x := by
  rw [outcome, finalizeTaskAt, taskMiss]
  cases hsuccess : x.result.success with
  | true => simp [hasDeadlinePassed, slotDeadline]
  | false => simp [finalizeTask, hsuccess, hasDeadlinePassed, slotDeadline]

theorem missedDeadlines_statistics (st : SchedulerStatistics) (success : Bool) (time : Microseconds)
    (missed : Bool) : (updateGlobalStatistics st success time missed).missedDeadlines =
      st.missedDeadlines + if missed then 1 else 0 := by
  unfold updateGlobalStatistics
  dsimp only
  split_ifs <;> rfl

theorem globalMiss_of_success (hsuccess : x.result.success = true) : p.globalMiss x =
    if x.result.executionStart + (p.tasks x.task).constraints.period +
      (p.tasks x.task).constraints.deadline < x.now then 1 else 0 := by
  simp [globalMiss, outcome, finalizeTaskAt, hsuccess, hasDeadlinePassed]

theorem globalMiss_of_failure (hsuccess : x.result.success = false) : p.globalMiss x =
    if slotDeadline (p.tasks x.task) < x.now then 1 else 0 := by
  have hmissed : (p.outcome x).2.missedDeadline =
      decide (slotDeadline (p.tasks x.task) < x.now) := by
    rw [outcome, finalizeTaskAt, hsuccess, if_neg Bool.false_ne_true, finalizeTask, hsuccess]
    rfl
  rw [globalMiss, hmissed]
  simp only [decide_eq_true_eq]

/-- **One execution is counted right exactly if the readings answer for its end.** -/
theorem readingsAgree_iff : p.ReadingsAgree x ↔
    p.taskMiss x = p.lateMiss x ∧ p.globalMiss x = p.lateMiss x := by
  have hsame {A B : Prop} [Decidable A] [Decidable B] :
      (if A then 1 else 0 : ℕ) = (if B then 1 else 0) ↔ (A ↔ B) := by
    by_cases hA : A <;> by_cases hB : B <;> simp [hA, hB]
  cases hsuccess : x.result.success with
  | true =>
    rw [globalMiss_of_success hsuccess, taskMiss, lateMiss, hsuccess, if_pos rfl, hsame, hsame]
    exact ⟨fun h => ⟨h.checked hsuccess, h.next hsuccess⟩,
      fun h => ⟨fun _ => h.1, fun _ => h.2, fun hfail => by cases hsuccess.symm.trans hfail⟩⟩
  | false =>
    rw [globalMiss_of_failure hsuccess, taskMiss, lateMiss, hsuccess, if_neg Bool.false_ne_true,
      hsame, and_self]
    refine ⟨fun h => h.failed hsuccess, fun h => ⟨fun hfail => ?_, fun hfail => ?_, fun _ => h⟩⟩
    · cases hsuccess.symm.trans hfail
    · cases hsuccess.symm.trans hfail

theorem late_execute : (p.execute x).late = if p.IsLate x then p.late ++ [x.task] else p.late := rfl

theorem length_late_execute : (p.execute x).late.length = p.late.length + p.lateMiss x := by
  rw [late_execute, lateMiss]
  split_ifs
  · rw [List.length_append]
    rfl
  · rfl

theorem count_late_execute (i : Fin n) : (p.execute x).late.count i =
    p.late.count i + if i = x.task then p.lateMiss x else 0 := by
  rw [late_execute, lateMiss]
  split_ifs with hlate hi hi
  · rw [List.count_append, hi, List.count_singleton_self]
  · rw [List.count_append, List.count_singleton]
    simp [Ne.symm hi]
  · rfl
  · rfl

theorem missedDeadlines_execute (i : Fin n) : ((p.execute x).tasks i).missedDeadlines =
    (p.tasks i).missedDeadlines + if i = x.task then p.taskMiss x else 0 := by
  by_cases hi : i = x.task
  · subst hi
    have hself : (p.execute x).tasks x.task = (p.outcome x).1 := Function.update_self ..
    rw [hself, missedDeadlines_outcome, if_pos rfl]
  · have hother : (p.execute x).tasks i = p.tasks i := Function.update_of_ne hi ..
    rw [hother, if_neg hi, Nat.add_zero]

theorem global_execute : (p.execute x).statistics.missedDeadlines =
    p.statistics.missedDeadlines + p.globalMiss x := missedDeadlines_statistics ..

theorem sum_execute : ∑ i, ((p.execute x).tasks i).missedDeadlines =
    (∑ i, (p.tasks i).missedDeadlines) + p.taskMiss x := by
  simp only [missedDeadlines_execute, Finset.sum_add_distrib, Finset.sum_ite_eq', Finset.mem_univ,
    if_true]

/-- **The counters stay right exactly if the readings agree.** -/
theorem missesCounted_execute (hp : p.MissesCounted) :
    (p.execute x).MissesCounted ↔ p.ReadingsAgree x := by
  rw [readingsAgree_iff]
  constructor
  · intro hq
    have heach := hq.each x.task
    have hall := hq.all
    rw [missedDeadlines_execute, count_late_execute, if_pos rfl, if_pos rfl, hp.each] at heach
    rw [global_execute, length_late_execute, hp.all] at hall
    exact ⟨Nat.add_left_cancel heach, Nat.add_left_cancel hall⟩
  · rintro ⟨htask, hglobal⟩
    refine ⟨fun i => ?_, ?_, ?_⟩
    · rw [missedDeadlines_execute, count_late_execute, hp.each, htask]
    · rw [global_execute, length_late_execute, hp.all, hglobal]
    · rw [global_execute, sum_execute, ← hp.sum, hglobal, htask]

theorem missesCounted_initial (added : Fin n → TimingConstraints × TimePoint) :
    (initial added).MissesCounted where
  each _ := rfl
  all := rfl
  sum := (Finset.sum_const_zero).symm

/-- **Along any sequence of executions the misses are counted exactly if the readings agree in each
of them.** -/
theorem missesCounted_iff (added : Fin n → TimingConstraints × TimePoint)
    (xs : List (SlotExecution n)) : (machine n).Always MissesCounted (initial added) xs ↔
      (machine n).Allowed ReadingsAgree (initial added) xs := by
  refine Machine.always_iff_allowed (I := fun _ => True) (fun _ _ _ _ _ _ => trivial)
    (fun p x q _ hp hstep => ?_) trivial (missesCounted_initial added) xs
  obtain rfl := Option.some.inj hstep
  exact missesCounted_execute hp

/-- An execution that ends 3 µs late, with period 10 and deadline 5. -/
def threeLate : SlotExecution 1 := ⟨0, ⟨true, 12, 18⟩, 18, 18⟩

/-- **The task counts it, and the statistics do not.** -/
theorem late_not_counted : ¬ ∀ (n : ℕ) (added : Fin n → TimingConstraints × TimePoint)
    (xs : List (SlotExecution n)), (∀ i, 0 < (added i).1.deadline) → Steady 0 xs →
      (machine n).Always MissesCounted (initial added) xs := by
  intro hall
  have halways := hall 1 (fun _ => ({ period := 10, deadline := 5 }, 0)) [threeLate]
    (fun _ => by decide) ⟨by decide, by decide, by decide, by decide, trivial⟩
  have hend := (halways.2 _ rfl).all
  exact absurd hend (by decide)

end MissRun

end AxonVex
