import AxonVex.Scheduling.Cycle

/-!
# Scheduling/Priority — the priorities are read the wrong way round

    IDLE = 0 < LOW < NORMAL < HIGH < REAL_TIME < CRITICAL = 5

The sort of a cycle and the loop of `schedulePriorityBased` both put the *smaller* value first, which
was the more urgent one when `HIGH` was 0.  So a cycle executes its tasks from the least urgent to the
most urgent, and the pick is of minimal priority: both are as they should be only where there is no
difference (`highestFirst_iff`).
-/

namespace AxonVex

open Machinery

namespace SchedulerPriority

theorem value_injective : Function.Injective value := by
  intro a b hab
  cases a <;> cases b <;> first | rfl | cases hab

end SchedulerPriority

namespace RealTimeScheduler

variable (s : RealTimeScheduler)

/-- One task of the loop in `schedulePriorityBased`: `selectedTask`, `highestPriority` and
`foundTask`. -/
def considerTask (now : TimePoint) (best : ℕ × SchedulerPriority × Bool) (id : ℕ) :
    ℕ × SchedulerPriority × Bool :=
  match s.task? id with
  | none => best
  | some task =>
    if isReady now task && (!best.2.2 ||
        decide (task.constraints.priority.value < best.2.1.value)) then
      (id, task.constraints.priority, true)
    else best

/-- `schedulePriorityBased()`, over `tasks_` in this order. -/
def schedulePriorityBased (now : TimePoint) (order : List ℕ) : ℕ :=
  (order.foldl (s.considerTask now) (0, .idle, false)).1

/-- The ready tasks. -/
def readyTasks (now : TimePoint) : List SchedulerTask := (s.readyIds now).filterMap s.task?

/-- If there is a ready task, the pick is one of maximal priority. -/
def PicksHighest (now : TimePoint) (id : ℕ) : Prop :=
  s.readyIds now ≠ [] → id ∈ s.readyIds now ∧
    ∀ a ∈ s.task? id, ∀ b ∈ s.readyTasks now,
      b.constraints.priority.value ≤ a.constraints.priority.value

end RealTimeScheduler

/-- No two of the tasks differ in priority. -/
def SamePriority (tasks : List SchedulerTask) : Prop :=
  ∀ a ∈ tasks, ∀ b ∈ tasks, a.constraints.priority = b.constraints.priority

/-- Of two ready tasks, the one of higher priority is executed first. -/
def CycleRecord.HighestFirst (h : CycleRecord) : Prop :=
  ∀ a ∈ h.ready, ∀ b ∈ h.ready,
    b.task.constraints.priority.value < a.task.constraints.priority.value →
      [a.serial, b.serial].Sublist h.executed

namespace RealTimeScheduler

variable {s : RealTimeScheduler} {now : TimePoint}

theorem mem_readyTasks {task : SchedulerTask} : task ∈ s.readyTasks now ↔
    ∃ id ∈ s.tasks.keys, s.task? id = some task ∧ isReady now task = true := by
  rw [readyTasks, List.mem_filterMap]
  constructor
  · rintro ⟨id, hid, htask⟩
    obtain ⟨hkey, hready⟩ := List.mem_filter.mp hid
    rw [htask, Option.any_some] at hready
    exact ⟨id, hkey, htask, hready⟩
  · rintro ⟨id, hkey, htask, hready⟩
    exact ⟨id, List.mem_filter.mpr ⟨hkey, by rw [htask, Option.any_some, hready]⟩, htask⟩

/-- **What the loop has found**: nothing as long as no task was ready, and then a ready task of
minimal priority value. -/
inductive Found (s : RealTimeScheduler) (now : TimePoint) (seen : List ℕ) :
    ℕ × SchedulerPriority × Bool → Prop
  | nothing (hnone : ∀ id ∈ seen, (s.task? id).any (isReady now) = false) :
      Found s now seen (0, .idle, false)
  | task (id : ℕ) (task : SchedulerTask) (hid : id ∈ seen) (htask : s.task? id = some task)
      (hready : isReady now task = true)
      (hleast : ∀ id' ∈ seen, ∀ task' ∈ s.task? id', isReady now task' = true →
        task.constraints.priority.value ≤ task'.constraints.priority.value) :
      Found s now seen (id, task.constraints.priority, true)

variable {seen : List ℕ} {best : ℕ × SchedulerPriority × Bool} {id : ℕ} {task : SchedulerTask}

/-- A task that is not ready. -/
theorem Found.skip (hf : Found s now seen best) (hskip : (s.task? id).any (isReady now) = false) :
    Found s now (seen ++ [id]) best := by
  have hnot (task : SchedulerTask) (htask : s.task? id = some task) : isReady now task = false := by
    rwa [htask, Option.any_some] at hskip
  cases hf with
  | nothing hnone =>
    refine .nothing fun id' hid' => ?_
    rcases List.mem_append.mp hid' with hid' | hid'
    · exact hnone id' hid'
    · rw [List.mem_singleton.mp hid', hskip]
  | task best task hid htask hready hleast =>
    refine .task best task (List.mem_append_left _ hid) htask hready fun id' hid' task' htask' hready' => ?_
    rcases List.mem_append.mp hid' with hid' | hid'
    · exact hleast id' hid' task' htask' hready'
    · rw [List.mem_singleton.mp hid'] at htask'
      cases (hnot task' htask').symm.trans hready'

/-- A ready task, not above those that were seen. -/
theorem Found.take (htask : s.task? id = some task) (hready : isReady now task = true)
    (hleast : ∀ id' ∈ seen, ∀ task' ∈ s.task? id', isReady now task' = true →
      task.constraints.priority.value ≤ task'.constraints.priority.value) :
    Found s now (seen ++ [id]) (id, task.constraints.priority, true) := by
  refine .task id task (List.mem_append_right _ (List.mem_singleton_self id)) htask hready ?_
  intro id' hid' task' htask' hready'
  rcases List.mem_append.mp hid' with hid' | hid'
  · exact hleast id' hid' task' htask' hready'
  · rw [List.mem_singleton.mp hid'] at htask'
    obtain rfl := Option.some.inj (htask.symm.trans htask')
    exact le_refl _

/-- **One turn of the loop.** -/
theorem Found.considerTask (hf : Found s now seen best) (id : ℕ) :
    Found s now (seen ++ [id]) (s.considerTask now best id) := by
  cases htask : s.task? id with
  | none =>
    rw [RealTimeScheduler.considerTask, htask]
    exact hf.skip (by rw [htask, Option.any_none])
  | some task =>
    rw [RealTimeScheduler.considerTask, htask]
    dsimp only
    cases hready : isReady now task with
    | false =>
      rw [Bool.false_and, if_neg (by simp)]
      exact hf.skip (by rw [htask, Option.any_some, hready])
    | true =>
      cases hf with
      | nothing hnone =>
        rw [if_pos (by simp)]
        refine .take htask hready fun id' hid' task' htask' hready' => ?_
        have hany := hnone id' hid'
        rw [Option.mem_def.mp htask', Option.any_some] at hany
        cases hany.symm.trans hready'
      | task best task' hid hbest hready' hleast =>
        by_cases hlt : task.constraints.priority.value < task'.constraints.priority.value
        · rw [if_pos (by simpa using hlt)]
          exact .take htask hready fun id' hid' task'' htask'' hready'' =>
            (Nat.le_of_lt hlt).trans (hleast id' hid' task'' htask'' hready'')
        · rw [if_neg (by simpa using hlt)]
          refine .task best task' (List.mem_append_left _ hid) hbest hready' ?_
          intro id' hid' task'' htask'' hready''
          rcases List.mem_append.mp hid' with hid' | hid'
          · exact hleast id' hid' task'' htask'' hready''
          · rw [List.mem_singleton.mp hid'] at htask''
            obtain rfl := Option.some.inj (htask.symm.trans htask'')
            exact Nat.le_of_not_lt hlt

/-- **The whole loop**, by induction on the tasks to come. -/
theorem Found.foldl (hf : Found s now seen best) (order : List ℕ) :
    Found s now (seen ++ order) (order.foldl (s.considerTask now) best) := by
  induction order generalizing seen best with
  | nil => rwa [List.append_nil]
  | cons id order ih =>
    have hsplit : seen ++ id :: order = seen ++ [id] ++ order := by simp
    rw [List.foldl_cons, hsplit]
    exact ih (hf.considerTask id)

/-- **`schedulePriorityBased` picks a ready task of minimal priority value**, if there is one. -/
theorem schedulePriorityBased_least {order : List ℕ} (horder : order.Perm s.tasks.keys)
    (hsome : s.readyIds now ≠ []) : ∃ task, s.task? (s.schedulePriorityBased now order) = some task ∧
      s.schedulePriorityBased now order ∈ s.readyIds now ∧ task ∈ s.readyTasks now ∧
      ∀ task' ∈ s.readyTasks now,
        task.constraints.priority.value ≤ task'.constraints.priority.value := by
  have hstart : Found s now [] (0, .idle, false) := .nothing fun _ hid => absurd hid List.not_mem_nil
  have hfound : Found s now order (order.foldl (s.considerTask now) (0, .idle, false)) :=
    hstart.foldl order
  rw [schedulePriorityBased]
  generalize order.foldl (s.considerTask now) (0, .idle, false) = best at hfound
  cases hfound with
  | nothing hnone =>
    obtain ⟨id, hid⟩ := List.exists_mem_of_ne_nil _ hsome
    obtain ⟨hkey, hready⟩ := List.mem_filter.mp hid
    cases (hnone id (horder.mem_iff.mpr hkey)).symm.trans hready
  | task id task hid htask hready hleast =>
    have hkey := horder.mem_iff.mp hid
    refine ⟨task, htask, ?_, mem_readyTasks.mpr ⟨id, hkey, htask, hready⟩, fun task' htask' => ?_⟩
    · exact List.mem_filter.mpr ⟨hkey, by rw [htask, Option.any_some, hready]⟩
    · obtain ⟨id', hkey', hid', hready'⟩ := mem_readyTasks.mp htask'
      exact hleast id' (horder.mem_iff.mpr hkey') task' hid' hready'

/-- The custom scheduler's fallback may make this pick. -/
theorem mayPick_schedulePriorityBased {order : List ℕ} (horder : order.Perm s.tasks.keys)
    (hsome : s.readyIds now ≠ []) : s.mayPick now (s.schedulePriorityBased now order) = true := by
  obtain ⟨task, htask, hmem, -, hleast⟩ := schedulePriorityBased_least horder hsome
  rw [mayPick, if_neg hsome, Bool.and_eq_true, decide_eq_true_eq, decide_eq_true_eq]
  refine ⟨hmem, fun j hj a ha b hb => ?_⟩
  obtain rfl := Option.some.inj (htask.symm.trans ha)
  obtain ⟨hkey, hready⟩ := List.mem_filter.mp hj
  rw [Option.mem_def.mp hb, Option.any_some] at hready
  exact hleast b (mem_readyTasks.mpr ⟨j, hkey, hb, hready⟩)

/-- The pick is of maximal priority only where all are alike. -/
theorem picksHighest_iff {order : List ℕ} (horder : order.Perm s.tasks.keys) :
    s.PicksHighest now (s.schedulePriorityBased now order) ↔ SamePriority (s.readyTasks now) := by
  by_cases hnil : s.readyIds now = []
  · refine iff_of_true (fun hsome => absurd hnil hsome) fun a ha => ?_
    rw [readyTasks, hnil] at ha
    exact absurd ha List.not_mem_nil
  · obtain ⟨task, htask, hmem, htaskmem, hleast⟩ := schedulePriorityBased_least horder hnil
    constructor
    · intro hpick a ha b hb
      have hhighest := (hpick hnil).2 task htask
      -- what is least and greatest is all there is
      have hall (c : SchedulerTask) (hc : c ∈ s.readyTasks now) :
          c.constraints.priority = task.constraints.priority :=
        SchedulerPriority.value_injective (Nat.le_antisymm (hhighest c hc) (hleast c hc))
      rw [hall a ha, hall b hb]
    · refine fun hsame _ => ⟨hmem, fun a ha b hb => ?_⟩
      obtain rfl := Option.some.inj (htask.symm.trans ha)
      rw [hsame b hb task htaskmem]

end RealTimeScheduler

namespace CycleRun

open RealTimeScheduler

variable {s : RealTimeScheduler} {h : CycleRecord}

/-- Every run keeps the invariant. -/
theorem inv_of_reachable {p : CycleRun} (hr : machine.Reachable p) : CycleInv p.1 p.2 := by
  refine Machine.ReachableUnder.invariant (I := fun p : CycleRun => CycleInv p.1 p.2)
    ⟨fun p hp => ?_, fun p a q hI _ hstep => ?_⟩ hr
  · obtain ⟨⟨policy, hs⟩, hh⟩ := hp
    rw [hs, hh]
    exact .fresh policy
  · obtain ⟨hact, hrec⟩ := Machine.withHistory_step.mp hstep
    exact hrec ▸ hI.step hact

/-- **A cycle executes in non-decreasing order of the values.** -/
theorem CycleInv.value_le (hI : CycleInv s h) (hpolicy : s.policy = .priorityBased) {a b : ReadyTask}
    (ha : a ∈ h.ready) (hb : b ∈ h.ready) (hab : [a.serial, b.serial].Sublist h.executed) :
    a.task.constraints.priority.value ≤ b.task.constraints.priority.value := by
  obtain ⟨later, hperm, hsorted, -⟩ := hI.position
  have hturns : [a.serial, b.serial].Sublist ((h.turns.map (·.ready)).map (·.serial)) := by
    rw [List.map_map]
    have hfilter := hab.filter fun n => decide (n ∈ h.ready.map (·.serial))
    rw [List.filter_cons_of_pos (by simpa using ⟨a, ha, rfl⟩),
      List.filter_cons_of_pos (by simpa using ⟨b, hb, rfl⟩), List.filter_nil] at hfilter
    exact hfilter.trans hI.inTurn
  obtain ⟨turns, hsub, heq⟩ := List.sublist_map_iff.mp hturns
  have hready (r : ReadyTask) (hr : r ∈ turns) : r ∈ h.ready :=
    hperm.mem_iff.mp (List.mem_append_left _ (hsub.subset hr))
  have hserial {r r' : ReadyTask} (hr : r ∈ h.ready) (hr' : r' ∈ h.ready)
      (hsame : r.serial = r'.serial) : r = r' := List.inj_on_of_nodup_map hI.serials hr hr' hsame
  obtain ⟨a', rest, rfl, ha', hrest⟩ := List.map_eq_cons_iff.mp heq.symm
  obtain ⟨b', rest', rfl, hb', -⟩ := List.map_eq_cons_iff.mp hrest
  obtain rfl := hserial (hready a' (by simp)) ha ha'
  obtain rfl := hserial (hready b' (by simp)) hb hb'
  have hle := (List.pairwise_cons.mp ((List.pairwise_append.mp hsorted).1.sublist hsub)).1 b' (by simp)
  rw [mayPrecede, hpolicy] at hle
  exact of_decide_eq_true hle

/-- **The highest is executed first only where all are alike**, in every cycle of every run, and
`schedulePriorityBased` picks one of maximal priority only then. -/
theorem highestFirst_iff {p : CycleRun} (hr : machine.Reachable p)
    (hpolicy : p.1.policy = .priorityBased) :
    (p.2.HighestFirst ↔ SamePriority (p.2.ready.map (·.task))) ∧
      ∀ now order, order.Perm p.1.tasks.keys →
        (p.1.PicksHighest now (p.1.schedulePriorityBased now order) ↔
          SamePriority (p.1.readyTasks now)) := by
  refine ⟨⟨fun hfirst => ?_, fun hsame a ha b hb hlt => ?_⟩, fun now order => picksHighest_iff⟩
  · have hle (a : ReadyTask) (ha : a ∈ p.2.ready) (b : ReadyTask) (hb : b ∈ p.2.ready) :
        a.task.constraints.priority.value ≤ b.task.constraints.priority.value := by
      by_contra hlt
      have hexecuted := hfirst a ha b hb (Nat.lt_of_not_le hlt)
      exact hlt ((inv_of_reachable hr).value_le hpolicy ha hb hexecuted)
    intro x hx y hy
    obtain ⟨a, ha, rfl⟩ := List.mem_map.mp hx
    obtain ⟨b, hb, rfl⟩ := List.mem_map.mp hy
    exact SchedulerPriority.value_injective (Nat.le_antisymm (hle a ha b hb) (hle b hb a ha))
  · rw [hsame a.task (List.mem_map_of_mem ha) b.task (List.mem_map_of_mem hb)] at hlt
    exact absurd hlt (Nat.lt_irrefl _)

/-- Two tasks, and the scheduler about to build the ready set. -/
def twoTasks : List TaskAction :=
  [.addTask 7 "brake" { period := 1, priority := .critical } 0,
    .addTask 8 "log" { period := 1, priority := .low } 0,
    .start true, .loop .advance, .loop .advance]

/-- Their cycle. -/
def twoTurns : List TaskAction :=
  [.loop (.select 10 [2, 1]),
    .loop .advance, .loop .advance, .loop .bodyReturns, .loop .bodyReturns,
    .loop (.finalize 10 11 11),
    .loop .advance, .loop .advance, .loop .bodyReturns, .loop .bodyReturns,
    .loop (.finalize 11 12 12), .loop .advance]

/-- The run exists, and the critical task is executed last. -/
theorem exists_twoTurns : ∃ p q, machine.Reachable p ∧ p.1.policy = .priorityBased ∧
    p.1.worker.pc? = some .selecting ∧ machine.exec p twoTurns = some q ∧ q.1.policy = .priorityBased ∧
      q.2.finished = true ∧ q.2.executed = [1, 0] ∧
        q.2.ready.map (fun r => (r.serial, r.task.constraints.priority)) =
          [(1, .low), (0, .critical)] := by
  have hrun : (machine.exec (fresh .priorityBased) twoTasks).any (fun p =>
      decide (p.1.policy = .priorityBased) && decide (p.1.worker.pc? = some .selecting) &&
        (machine.exec p twoTurns).any fun q => decide (q.1.policy = .priorityBased) && q.2.finished &&
          decide (q.2.executed = [1, 0]) &&
            decide (q.2.ready.map (fun r => (r.serial, r.task.constraints.priority)) =
              [(1, .low), (0, .critical)])) = true := by decide +kernel
  have hfresh : machine.Reachable (fresh .priorityBased) := .init ⟨⟨_, rfl⟩, rfl⟩
  obtain ⟨p, hp, hrest⟩ := (Option.any_eq_true _ _).mp hrun
  obtain ⟨hstart, hcycle⟩ := Bool.and_eq_true_iff.mp hrest
  obtain ⟨hpolicy, hpc⟩ := Bool.and_eq_true_iff.mp hstart
  obtain ⟨q, hq, hend⟩ := (Option.any_eq_true _ _).mp hcycle
  simp only [Bool.and_eq_true, decide_eq_true_eq] at hend
  obtain ⟨⟨⟨hpolicy', hfinished⟩, hexecuted⟩, hready⟩ := hend
  exact ⟨p, q, hfresh.exec hp, of_decide_eq_true hpolicy, of_decide_eq_true hpc, hq, hpolicy', hfinished,
    hexecuted, hready⟩

/-- A cycle of two tasks to which the result applies. -/
theorem highestFirst_twoTurns : ∃ p, machine.Reachable p ∧ p.2.finished = true ∧
    p.2.ready.map (fun r => (r.serial, r.task.constraints.priority)) =
      [(1, .low), (0, .critical)] ∧
    (p.2.HighestFirst ↔ SamePriority (p.2.ready.map (·.task))) ∧
      ∀ now order, order.Perm p.1.tasks.keys →
        (p.1.PicksHighest now (p.1.schedulePriorityBased now order) ↔
          SamePriority (p.1.readyTasks now)) := by
  obtain ⟨p, q, hr, -, -, hexec, hpolicy, hfinished, -, hready⟩ := exists_twoTurns
  exact ⟨q, hr.exec hexec, hfinished, hready, highestFirst_iff (hr.exec hexec) hpolicy⟩

/-- **The critical task waits for the low one**, in a cycle with no other step than the loop's. -/
theorem critical_executed_last : ¬ ∀ p q as, machine.Reachable p → p.1.policy = .priorityBased →
    p.1.worker.pc? = some .selecting → (∀ a ∈ as, ∃ step, a = .loop step) →
      machine.exec p as = some q → q.2.finished = true → q.2.HighestFirst := by
  intro hall
  obtain ⟨p, q, hr, hpolicy, hpc, hexec, -, hfinished, hexecuted, hready⟩ := exists_twoTurns
  have hloop : ∀ a ∈ twoTurns, ∃ step, a = .loop step := by
    simp [twoTurns]
  have hfirst := hall p q twoTurns hr hpolicy hpc hloop hexec hfinished
  obtain ⟨low, rest, hsplit, hlow, hrest⟩ := List.map_eq_cons_iff.mp hready
  obtain ⟨critical, rest', rfl, hcritical, -⟩ := List.map_eq_cons_iff.mp hrest
  obtain ⟨hlows, hlowp⟩ := Prod.mk.inj hlow
  obtain ⟨hcriticals, hcriticalp⟩ := Prod.mk.inj hcritical
  have hlt : low.task.constraints.priority.value < critical.task.constraints.priority.value := by
    rw [hlowp, hcriticalp]
    decide
  have hsub := hfirst critical (by simp [hsplit]) low (by simp [hsplit]) hlt
  rw [hlows, hcriticals, hexecuted] at hsub
  exact absurd hsub (by decide)

end CycleRun

end AxonVex
