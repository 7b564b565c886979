import AxonVex.Core.Scheduler
import AxonVex.Core.TimingController

/-!
# Concurrent/Tasks — the tasks of a timing controller, in step with its units

Each task of the table belongs to the unit that the map of the controller gives its id, and the
loop's claim is on a task of the table (`TimingController.InStep`).  Scheduling a new unit keeps
this, every step of the loop keeps it, and so does removing a unit **whose task is not being
executed**; a removal in the middle of an execution leaves the claim on a task that is gone from the
table.

Once removed, a unit has no task (`InStep.notScheduled_remove`), so the loop holds no claim on it
(`InStep.claimedUnit_ne`).
-/

namespace AxonVex

open Machinery

namespace RealTimeScheduler

variable (s : RealTimeScheduler)

/-- The block of the task the loop has claimed. -/
def claimed? : Option ℕ := s.worker.pc?.bind LoopPc.claimed?

/-- The unit of the task the loop has claimed. -/
def claimedUnit? : Option UnitPtr := (s.claimed?.bind s.taskPool.blocks.lookup).map (·.unit)

end RealTimeScheduler

/-- What no step of the loop changes of a task. -/
def SchedulerTask.key (t : SchedulerTask) : UnitPtr × Bool := (t.unit, t.pendingRemoval)

namespace MemoryPool

variable {p q : MemoryPool SchedulerTask} {b : ℕ} {t : SchedulerTask}

/-- The same tasks, but for their schedule. -/
def SameTasks (p q : MemoryPool SchedulerTask) : Prop := SameOn SchedulerTask.key p q

theorem SameTasks.refl (p : MemoryPool SchedulerTask) : SameTasks p p := SameOn.refl p

theorem SameTasks.symm (h : SameTasks p q) : SameTasks q p := SameOn.symm h

/-- A task has its like in the other pool. -/
theorem SameTasks.exists_lookup (h : SameTasks p q) (hb : p.blocks.lookup b = some t) :
    ∃ t', q.blocks.lookup b = some t' ∧ t'.unit = t.unit ∧ t'.pendingRemoval = t.pendingRemoval := by
  obtain ⟨t', ht', hk⟩ := SameOn.exists_lookup h hb
  exact ⟨t', ht', congrArg Prod.fst hk, congrArg Prod.snd hk⟩

/-- Changing the schedule of one task. -/
theorem sameTasks_update {f : SchedulerTask → SchedulerTask}
    (hf : ∀ t, p.blocks.lookup b = some t → (f t).key = t.key) : SameTasks p (p.update b f) :=
  sameOn_update hf

end MemoryPool

namespace RealTimeScheduler

open MemoryPool

variable {s s' : RealTimeScheduler}

theorem key_reactivate (now : TimePoint) (t : SchedulerTask) : (reactivate now t).key = t.key := by
  unfold reactivate
  split <;> rfl

/-- The reactivation pass. -/
theorem sameTasks_reactivateAll (now : TimePoint) :
    SameTasks s.taskPool (s.reactivateAll now).taskPool :=
  sameOn_foldl_update (key_reactivate now) _ _

theorem reactivate_reactivate (now : TimePoint) (task : SchedulerTask) :
    reactivate now (reactivate now task) = reactivate now task := by
  by_cases hback : (!task.active && decide (0 < task.consecutiveFailures) &&
      decide (task.reactivationTime ≤ now)) = true
  · have hpass : reactivate now task = { task with active := true, consecutiveFailures := 0 } :=
      if_pos hback
    rw [hpass]
    rfl
  · have hpass : reactivate now task = task := if_neg hback
    rw [hpass, hpass]

/-- What the reactivation pass does to a block. -/
theorem lookup_reactivateAll (s : RealTimeScheduler) (now : TimePoint) (b : ℕ) :
    (s.reactivateAll now).taskPool.blocks.lookup b =
      if b ∈ s.tasks.values then (s.taskPool.blocks.lookup b).map (reactivate now)
      else s.taskPool.blocks.lookup b :=
  MemoryPool.lookup_foldl_update (reactivate_reactivate now) _ _ _

theorem key_finalizeTask (t : SchedulerTask) (result : TaskExecutionResult) (now : TimePoint) :
    (finalizeTask t result now).1.key = t.key := by
  unfold finalizeTask
  split <;> rfl

end RealTimeScheduler

namespace TimingController

open RealTimeScheduler MemoryPool

variable {c c' : TimingController} {unit v : UnitPtr} {s : RealTimeScheduler}

/-- **Tasks in step with units.** -/
structure InStep (c : TimingController) : Prop where
  /-- a task of the table is there, and is the one its unit is mapped to -/
  mapped : ∀ id block, c.scheduler.tasks.lookup id = some block →
    ∃ t, c.scheduler.taskPool.blocks.lookup block = some t ∧
      c.unitToTaskId.lookup t.unit = some id ∧ t.pendingRemoval = false
  /-- the claimed task is in the table, and says that it is executing -/
  claimed : ∀ block, c.scheduler.claimed? = some block →
    ∃ id t, c.scheduler.tasks.lookup id = some block ∧
      c.scheduler.taskPool.blocks.lookup block = some t ∧ t.executing = true

/-- No task of the table belongs to the unit. -/
def NotScheduled (c : TimingController) (unit : UnitPtr) : Prop :=
  ∀ id block t, c.scheduler.tasks.lookup id = some block →
    c.scheduler.taskPool.blocks.lookup block = some t → t.unit ≠ unit

/-- **Without a task there is no claim.** -/
theorem InStep.claimedUnit_ne (h : c.InStep) (hn : c.NotScheduled unit) :
    c.scheduler.claimedUnit? ≠ some unit := by
  intro hu
  obtain ⟨t, ht, rfl⟩ := Option.map_eq_some_iff.mp hu
  obtain ⟨block, hb, ht⟩ := Option.bind_eq_some_iff.mp ht
  obtain ⟨id, t', hid, ht', -⟩ := h.claimed block hb
  exact hn id block t hid ht rfl

/-- An unmapped unit has no task. -/
theorem InStep.notScheduled_of_unmapped (h : c.InStep) (hu : c.unitToTaskId.lookup unit = none) :
    c.NotScheduled unit := by
  rintro id block t hid ht rfl
  obtain ⟨t', ht', hm, -⟩ := h.mapped id block hid
  obtain rfl := Option.some.inj (ht.symm.trans ht')
  exact absurd (hm.symm.trans hu) (by simp)

/-! ## Steps of the loop -/

/-- A change of the schedule, and no claim but an old one. -/
theorem InStep.of_sameTasks (h : c.InStep) (htasks : s.tasks = c.scheduler.tasks)
    (hpool : SameTasks c.scheduler.taskPool s.taskPool)
    (hclaimed : ∀ block, s.claimed? = some block → ∃ id t, s.tasks.lookup id = some block ∧
      s.taskPool.blocks.lookup block = some t ∧ t.executing = true) :
    InStep { c with scheduler := s } where
  mapped id block hid := by
    obtain ⟨t, ht, hm, hp⟩ := h.mapped id block (htasks ▸ hid)
    obtain ⟨t', ht', hu, hp'⟩ := hpool.exists_lookup ht
    exact ⟨t', ht', hu ▸ hm, hp'.trans hp⟩
  claimed := hclaimed

/-- The loop's flags and position only. -/
theorem InStep.of_claim_subset (h : c.InStep) (htasks : s.tasks = c.scheduler.tasks)
    (hpool : s.taskPool = c.scheduler.taskPool)
    (hclaimed : ∀ block, s.claimed? = some block → c.scheduler.claimed? = some block) :
    InStep { c with scheduler := s } :=
  h.of_sameTasks htasks (hpool ▸ .refl _) fun block hb => by
    rw [htasks, hpool]
    exact h.claimed block (hclaimed block hb)

/-- The tasks stay in the table, whatever the loop does. -/
theorem tasks_of_loopMove {s s' : RealTimeScheduler} (hm : LoopMove s s') : s'.tasks = s.tasks := by
  cases hm with
  | claim id plan _ =>
    unfold claim
    split
    · split <;> rfl
    · rfl
  | finalize block plan result now _ =>
    unfold finalizeTaskExecution
    split <;> rfl
  | _ => rfl

/-- **Every step of the loop keeps the tasks in step**, and the pool with its units. -/
theorem InStep.loopMove (h : c.InStep) (hm : LoopMove c.scheduler s) :
    InStep { c with scheduler := s } ∧ SameTasks c.scheduler.taskPool s.taskPool := by
  have hnone {s : RealTimeScheduler} (hs : s.claimed? = none) {P : ℕ → Prop} :
      ∀ block, s.claimed? = some block → P block := fun _ hb => absurd (hs.symm.trans hb) (by simp)
  cases hm with
  | select now plan last _ =>
    exact ⟨h.of_sameTasks rfl (sameTasks_reactivateAll now) (hnone rfl),
      sameTasks_reactivateAll now⟩
  | claim id plan _ =>
    unfold claim
    split
    next block task hid htask =>
      split
      · have hpool : SameTasks c.scheduler.taskPool
            (c.scheduler.taskPool.update block fun t => { t with executing := true }) :=
          sameTasks_update fun _ _ => rfl
        refine ⟨h.of_sameTasks rfl hpool fun b hb => ?_, hpool⟩
        obtain rfl : block = b := Option.some.inj hb
        obtain ⟨_, hb', ht⟩ := Option.bind_eq_some_iff.mp htask
        obtain rfl := Option.some.inj (hid.symm.trans hb')
        exact ⟨id, { task with executing := true }, hid,
          by rw [update_blocks, AList.lookup_modify_self, ht]; rfl, rfl⟩
      · exact ⟨h.of_claim_subset rfl rfl (hnone rfl), .refl _⟩
    · exact ⟨h.of_claim_subset rfl rfl (hnone rfl), .refl _⟩
  | asyncDone block plan hpc =>
    refine ⟨h.of_claim_subset rfl rfl fun b hb => ?_, .refl _⟩
    rw [claimed?, hpc]
    exact hb
  | bodyDone block success plan hpc =>
    refine ⟨h.of_claim_subset rfl rfl fun b hb => ?_, .refl _⟩
    rcases hpc with hpc | hpc <;> (rw [claimed?, hpc]; exact hb)
  | finalize block plan result now hpc =>
    -- the claimed task is in the table, so it does not wait to be removed
    obtain ⟨id, t, hid, ht, -⟩ := h.claimed block (by rw [claimed?, hpc]; rfl)
    obtain ⟨t', ht', -, hp⟩ := h.mapped id block hid
    obtain rfl := Option.some.inj (ht.symm.trans ht')
    have hpool : SameTasks c.scheduler.taskPool
        (c.scheduler.taskPool.update block fun _ => (finalizeTask t result now).1) :=
      sameTasks_update fun u hu => by
        obtain rfl := Option.some.inj (ht.symm.trans hu)
        exact key_finalizeTask t result now
    unfold finalizeTaskExecution
    rw [ht]
    simp only [hp, Bool.false_eq_true, if_false]
    refine ⟨h.of_sameTasks rfl hpool (hnone ?_), hpool⟩
    simp only [claimed?, WorkerThread.pc?_running, Option.bind_some]
    split <;> rfl
  | _ => exact ⟨h.of_claim_subset rfl rfl (hnone rfl), .refl _⟩

/-- A unit without a task gets none from a change of the schedule. -/
theorem NotScheduled.of_sameTasks (h : c.NotScheduled unit) (htasks : s.tasks = c.scheduler.tasks)
    (hpool : SameTasks c.scheduler.taskPool s.taskPool) :
    NotScheduled { c with scheduler := s } unit := by
  intro id block t hid ht
  obtain ⟨t', ht', hu, -⟩ := hpool.symm.exists_lookup ht
  rw [← hu]
  exact h id block t' (htasks ▸ hid) ht'

/-! ## Adding and removing units -/

/-- What `removeTask` leaves of the table and of the pool, when the task is not executing. -/
theorem removeTask_of_idle {taskId block : ℕ} {t : SchedulerTask}
    (hid : s.tasks.lookup taskId = some block) (ht : s.taskPool.blocks.lookup block = some t)
    (he : t.executing = false) :
    (s.removeTask taskId).1 = { s with
      taskPool := s.taskPool.deallocateObject block, tasks := s.tasks.erase taskId } := by
  simp [removeTask, hid, ht, he]

/-- The task of the unit is not being executed. -/
def IdleUnit (c : TimingController) (unit : UnitPtr) : Prop :=
  ∀ id, c.unitToTaskId.lookup unit = some id → ∀ t, c.scheduler.task? id = some t →
    t.executing = false

/-- The three ways a removal goes: no task is mapped, the mapped task is gone, or it is freed. -/
theorem InStep.removeProcessingUnit_cases (h : c.InStep) (hidle : c.IdleUnit unit) :
    c.unitToTaskId.lookup unit = none ∧ (c.removeProcessingUnit unit).1 = c ∨
      ∃ taskId, c.unitToTaskId.lookup unit = some taskId ∧
        (c.scheduler.tasks.lookup taskId = none ∧
            (c.removeProcessingUnit unit).1 = { c with unitToTaskId := c.unitToTaskId.erase unit } ∨
          ∃ block t, c.scheduler.tasks.lookup taskId = some block ∧
            c.scheduler.taskPool.blocks.lookup block = some t ∧ t.executing = false ∧
            (c.removeProcessingUnit unit).1 = { c with
              scheduler := { c.scheduler with
                taskPool := c.scheduler.taskPool.deallocateObject block
                tasks := c.scheduler.tasks.erase taskId }
              unitToTaskId := c.unitToTaskId.erase unit }) := by
  cases hu : c.unitToTaskId.lookup unit with
  | none => exact .inl ⟨rfl, by simp [removeProcessingUnit, hu]⟩
  | some taskId =>
    refine .inr ⟨taskId, rfl, ?_⟩
    cases hid : c.scheduler.tasks.lookup taskId with
    | none => exact .inl ⟨rfl, by simp [removeProcessingUnit, hu, removeTask, hid]⟩
    | some block =>
      obtain ⟨t, ht, -, -⟩ := h.mapped taskId block hid
      have he : t.executing = false := hidle taskId hu t (by simp [task?, hid, ht])
      exact .inr ⟨block, t, rfl, ht, he, by
        simp [removeProcessingUnit, hu, removeTask_of_idle hid ht he]⟩

/-- **A unit that is not being executed can be removed.** -/
theorem InStep.remove (h : c.InStep) (hidle : c.IdleUnit unit) :
    (c.removeProcessingUnit unit).1.InStep := by
  rcases h.removeProcessingUnit_cases hidle with
    ⟨-, hr⟩ | ⟨taskId, hu, ⟨hid, hr⟩ | ⟨block, t, hid, ht, he, hr⟩⟩
  · rwa [hr]
  · rw [hr]
    refine ⟨fun id b hb => ?_, h.claimed⟩
    obtain ⟨t, ht, hm, hp⟩ := h.mapped id b hb
    refine ⟨t, ht, AList.lookup_erase_eq_some.mpr ⟨?_, hm⟩, hp⟩
    rintro rfl
    obtain rfl := Option.some.inj (hm.symm.trans hu)
    exact absurd (hid.symm.trans hb) (by simp)
  · rw [hr]
    obtain ⟨t', ht', hm, -⟩ := h.mapped taskId block hid
    obtain rfl := Option.some.inj (ht.symm.trans ht')
    -- the other ids name other blocks
    have hblock {id b : ℕ} (hne : id ≠ taskId) (hb : c.scheduler.tasks.lookup id = some b) :
        b ≠ block := by
      rintro rfl
      obtain ⟨t', ht', hm', -⟩ := h.mapped id b hb
      obtain rfl := Option.some.inj (ht.symm.trans ht')
      exact hne (Option.some.inj (hm'.symm.trans hm))
    refine ⟨fun id b hb => ?_, fun b hb => ?_⟩
    · obtain ⟨hne, hb⟩ := AList.lookup_erase_eq_some.mp hb
      obtain ⟨t', ht', hm', hp⟩ := h.mapped id b hb
      refine ⟨t', ?_, AList.lookup_erase_eq_some.mpr ⟨?_, hm'⟩, hp⟩
      · rw [deallocateObject_blocks]
        exact AList.lookup_erase_eq_some.mpr ⟨hblock hne hb, ht'⟩
      · rintro rfl
        exact hne (Option.some.inj (hm'.symm.trans hu))
    · obtain ⟨id, u, hidu, htu, heu⟩ := h.claimed b hb
      have hne : b ≠ block := by
        rintro rfl
        have heq : t = u := Option.some.inj (ht.symm.trans htu)
        exact absurd (he.symm.trans (heq ▸ heu)) (by simp)
      refine ⟨id, u, AList.lookup_erase_eq_some.mpr ⟨?_, hidu⟩, ?_, heu⟩
      · rintro rfl
        exact hne (Option.some.inj (hidu.symm.trans hid))
      · rw [deallocateObject_blocks]
        exact AList.lookup_erase_eq_some.mpr ⟨hne, htu⟩

/-- **Once removed, a unit has no task.** -/
theorem InStep.notScheduled_remove (h : c.InStep) (hidle : c.IdleUnit unit) :
    (c.removeProcessingUnit unit).1.NotScheduled unit := by
  rcases h.removeProcessingUnit_cases hidle with
    ⟨hu, hr⟩ | ⟨taskId, hu, ⟨hid, hr⟩ | ⟨block, t, hid, ht, -, hr⟩⟩
  · rw [hr]
    exact h.notScheduled_of_unmapped hu
  · rw [hr]
    rintro id b t hb ht rfl
    obtain ⟨t', ht', hm, -⟩ := h.mapped id b hb
    obtain rfl := Option.some.inj (ht.symm.trans ht')
    obtain rfl := Option.some.inj (hm.symm.trans hu)
    exact absurd (hid.symm.trans hb) (by simp)
  · rw [hr]
    rintro id b t' hb ht' rfl
    obtain ⟨hne, hb⟩ := AList.lookup_erase_eq_some.mp hb
    rw [deallocateObject_blocks] at ht'
    obtain ⟨t'', ht'', hm, -⟩ := h.mapped id b hb
    obtain rfl := Option.some.inj ((AList.lookup_erase_eq_some.mp ht').2.symm.trans ht'')
    exact hne (Option.some.inj (hm.symm.trans hu))

/-- Removing a unit schedules none. -/
theorem NotScheduled.remove (hn : c.NotScheduled v) (h : c.InStep) (hidle : c.IdleUnit unit) :
    (c.removeProcessingUnit unit).1.NotScheduled v := by
  rcases h.removeProcessingUnit_cases hidle with
    ⟨-, hr⟩ | ⟨taskId, -, ⟨-, hr⟩ | ⟨block, t, -, -, -, hr⟩⟩
  · rwa [hr]
  · rw [hr]
    exact hn
  · rw [hr]
    intro id b t' hb ht'
    rw [deallocateObject_blocks] at ht'
    exact hn id b t' (AList.lookup_erase_eq_some.mp hb).2 (AList.lookup_erase_eq_some.mp ht').2

/-- The ids are below the counter, which has moved once for each block of the pool. -/
structure IdsFresh (c : TimingController) : Prop where
  below : ∀ id ∈ c.scheduler.tasks, id < c.scheduler.nextTaskId.toNat
  counted : c.scheduler.nextTaskId.toNat = c.scheduler.taskPool.blocks.keys.length + 1
  small : c.scheduler.taskPool.capacity ≤ maxPoolSize

theorem IdsFresh.nextTaskId_ne (hids : c.IdsFresh) : c.scheduler.nextTaskId.toNat ≠ 0 := by
  rw [hids.counted]
  exact Nat.succ_ne_zero _

/-- The counter moves with the blocks, far from its end. -/
theorem IdsFresh.schedule (hids : c.IdsFresh) (unit : UnitPtr) (name : String)
    (constraints : TimingConstraints) (now : TimePoint) :
    (c.scheduleProcessingUnit unit name constraints now).1.IdsFresh := by
  unfold scheduleProcessingUnit addTask
  dsimp only
  generalize (if constraints.period = 0 then createDefaultConstraints c.executionFrequency
    else constraints) = k
  split
  · exact hids
  next block pool halloc =>
    dsimp only
    rw [if_pos hids.nextTaskId_ne]
    have hnext : (c.scheduler.nextTaskId + 1).toNat = c.scheduler.nextTaskId.toNat + 1 := by
      have hlt := allocateObject_isSome.mp (Option.isSome_iff_exists.mpr ⟨_, halloc⟩)
      have hsmall := hids.small
      have hcounted := hids.counted
      rw [maxPoolSize] at hsmall
      rw [UInt32.toNat_add]
      exact Nat.mod_eq_of_lt (by simp only [UInt32.toNat_one]; omega)
    refine ⟨fun id hid => ?_, ?_, ?_⟩
    · change id < (c.scheduler.nextTaskId + 1).toNat
      rw [hnext]
      rcases (AList.mem_insert _).mp hid with rfl | hid
      · exact Nat.lt_succ_self _
      · exact Nat.lt_succ_of_lt (hids.below id hid)
    · change (c.scheduler.nextTaskId + 1).toNat = pool.blocks.keys.length + 1
      rw [hnext, length_allocateObject halloc, hids.counted]
    · change pool.capacity ≤ maxPoolSize
      rw [(allocateObject_spec halloc).2.2]
      exact hids.small

/-- **Scheduling a new unit** keeps the tasks in step, and maps no other unit. -/
theorem InStep.schedule (h : c.InStep) (hids : c.IdsFresh)
    (hnew : c.unitToTaskId.lookup unit = none) (name : String) (constraints : TimingConstraints)
    (now : TimePoint) :
    (c.scheduleProcessingUnit unit name constraints now).1.InStep ∧
      (c.scheduleProcessingUnit unit name constraints now).1.IdsFresh ∧
      ∀ v ≠ unit, c.unitToTaskId.lookup v = none →
        (c.scheduleProcessingUnit unit name constraints now).1.unitToTaskId.lookup v = none := by
  refine ⟨?_, hids.schedule unit name constraints now, ?_⟩
  all_goals
    unfold scheduleProcessingUnit addTask
    dsimp only
    generalize (if constraints.period = 0 then createDefaultConstraints c.executionFrequency
      else constraints) = k
    split
  · exact h
  next block pool halloc =>
    dsimp only
    rw [if_pos hids.nextTaskId_ne]
    have hold {b : ℕ} {t : SchedulerTask} (hb : c.scheduler.taskPool.blocks.lookup b = some t) :
        pool.blocks.lookup b = some t := by
      refine (lookup_allocateObject halloc).mpr (.inr ⟨?_, hb⟩)
      rintro rfl
      exact (allocateObject_spec halloc).1 (AList.mem_of_lookup hb)
    refine ⟨fun id b hb => ?_, fun b hb => ?_⟩
    · rcases AList.lookup_insert_eq_some.mp hb with ⟨rfl, rfl⟩ | ⟨hne, hb⟩
      · exact ⟨_, (lookup_allocateObject halloc).mpr (.inl ⟨rfl, rfl⟩), AList.lookup_insert _, rfl⟩
      · obtain ⟨t, ht, hm, hp⟩ := h.mapped id b hb
        refine ⟨t, hold ht, AList.lookup_insert_eq_some.mpr (.inr ⟨?_, hm⟩), hp⟩
        rintro rfl
        exact absurd (hm.symm.trans hnew) (by simp)
    · obtain ⟨id, t, hid, ht, he⟩ := h.claimed b hb
      refine ⟨id, t, AList.lookup_insert_eq_some.mpr (.inr ⟨?_, hid⟩), hold ht, he⟩
      exact (hids.below id (AList.mem_of_lookup hid)).ne
  · exact fun v _ hv => hv
  · intro v hv hm
    rw [if_pos hids.nextTaskId_ne, AList.lookup_insert_ne hv, hm]

/-! ## Starting and stopping -/

/-- A controller as constructed. -/
theorem inStep_new (objectId : ℕ) (policy : SchedulingPolicy) :
    InStep (TimingController.new objectId policy) where
  mapped id block h := absurd h (by simp [TimingController.new, RealTimeScheduler.new])
  claimed block h := absurd h (by
    simp [TimingController.new, RealTimeScheduler.new, RealTimeScheduler.claimed?])

theorem idsFresh_new (objectId : ℕ) (policy : SchedulingPolicy) :
    IdsFresh (TimingController.new objectId policy) where
  below id h := absurd h (AList.notMem_empty id)
  counted := rfl
  small := poolSize_le 128

/-- A start leaves the tasks as they are; a new loop has no claim. -/
theorem start_tasks (onSchedulerThread spawned : Bool) :
    ∃ s, (c.start onSchedulerThread spawned).1 = { c with scheduler := s } ∧
      s.tasks = c.scheduler.tasks ∧ s.taskPool = c.scheduler.taskPool ∧
      s.nextTaskId = c.scheduler.nextTaskId ∧
      ∀ block, s.claimed? = some block → c.scheduler.claimed? = some block := by
  refine ⟨(c.scheduler.start onSchedulerThread spawned).1, rfl, ?_⟩
  unfold RealTimeScheduler.start
  split
  · exact ⟨rfl, rfl, rfl, fun _ hb => hb⟩
  · split
    · exact ⟨rfl, rfl, rfl, fun _ hb => absurd hb (by simp [RealTimeScheduler.claimed?, LoopPc.claimed?])⟩
    · exact ⟨rfl, rfl, rfl, fun _ hb => absurd hb (by simp [RealTimeScheduler.claimed?])⟩

/-- **A start keeps the tasks in step.** -/
theorem InStep.start (h : c.InStep) (onSchedulerThread spawned : Bool) :
    (c.start onSchedulerThread spawned).1.InStep := by
  obtain ⟨s, hs, htasks, hpool, -, hclaimed⟩ := start_tasks (c := c) onSchedulerThread spawned
  exact hs ▸ h.of_claim_subset htasks hpool hclaimed

theorem IdsFresh.start (h : c.IdsFresh) (onSchedulerThread spawned : Bool) :
    (c.start onSchedulerThread spawned).1.IdsFresh := by
  obtain ⟨s, hs, htasks, hpool, hnext, -⟩ := start_tasks (c := c) onSchedulerThread spawned
  exact hs ▸ ⟨htasks ▸ hnext ▸ h.below, hpool ▸ hnext ▸ h.counted, hpool ▸ h.small⟩

theorem NotScheduled.start (h : c.NotScheduled unit) (onSchedulerThread spawned : Bool) :
    (c.start onSchedulerThread spawned).1.NotScheduled unit := by
  obtain ⟨s, hs, htasks, hpool, -, -⟩ := start_tasks (c := c) onSchedulerThread spawned
  exact hs ▸ h.of_sameTasks htasks (hpool ▸ .refl _)

end TimingController

end AxonVex
