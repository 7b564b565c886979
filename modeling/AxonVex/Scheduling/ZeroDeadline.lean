import AxonVex.Scheduling.TaskHistory

/-!
# Scheduling/ZeroDeadline — a deadline of 0 is not the period

    deadline = 0  ──documented──▸ deadline = period
                  ──read────────▸ nextExecution + 0

`TimingConstraints` documents the deadline 0 as "same as period", and nothing resolves it: the key of
the sort and the test for a missed deadline add what the field says.  Beside each run goes the run in
which every task is added with its deadline resolved.  The two stay alike exactly as long as every
sort by deadline is a sort by the resolved ones, and every reading of the bookkeeping is on the same
side of both (`treatedAlike_iff`).
-/

namespace AxonVex

open Machinery

namespace TimingConstraints

/-- The constraints with the deadline that is meant. -/
def resolve (c : TimingConstraints) : TimingConstraints :=
  { c with deadline := if c.deadline = 0 then c.period else c.deadline }

end TimingConstraints

/-- The same task, with its deadline resolved. -/
def SchedulerTask.resolve (task : SchedulerTask) : SchedulerTask :=
  { task with constraints := task.constraints.resolve }

/-- The same action, with the deadlines resolved. -/
def TaskAction.resolve : TaskAction → TaskAction
  | .addTask unit name constraints now => .addTask unit name constraints.resolve now
  | .updateTaskConstraints taskId constraints => .updateTaskConstraints taskId constraints.resolve
  | a => a

namespace RealTimeScheduler

open MemoryPool

/-- The same scheduler, with the deadlines of its tasks resolved. -/
def resolve (s : RealTimeScheduler) : RealTimeScheduler :=
  { s with taskPool := s.taskPool.map SchedulerTask.resolve }

/-- The task at its next slot, a period after the start of an execution. -/
def nextSlot (task : SchedulerTask) (start : TimePoint) : SchedulerTask :=
  { task with nextExecution := start + task.constraints.period }

/-- **The bookkeeping does not tell the deadlines apart**: at its clock the deadline of the slot has
passed exactly if the resolved one has, and after a success that of the next slot, too. -/
structure MissesAlike (task : SchedulerTask) (success : Bool) (start now : TimePoint) : Prop where
  slot : success = false ∨ task.pendingRemoval = false →
    hasDeadlinePassed now task.resolve = hasDeadlinePassed now task
  next : success = true → hasDeadlinePassed now (nextSlot task start).resolve =
    hasDeadlinePassed now (nextSlot task start)

/-- **A step does not tell the deadlines apart.** -/
structure DeadlinesAlike (s : RealTimeScheduler) (a : TaskAction) : Prop where
  /-- a sort by deadline is one by the resolved deadlines -/
  order : ∀ now order, a = .loop (.select now order) → s.policy = .earliestDeadlineFirst →
    order.Pairwise fun i j => ∀ x ∈ (s.reactivateAll now).task? i,
      ∀ y ∈ (s.reactivateAll now).task? j, x.nextExecution + x.constraints.resolve.deadline ≤
        y.nextExecution + y.constraints.resolve.deadline
  misses : ∀ start stop now block success plan task, a = .loop (.finalize start stop now) →
    s.worker.pc? = some (.finalizing block success plan) → s.taskPool.blocks.lookup block = some task →
      MissesAlike task success start now

/-- The run with the deadlines resolved, as far as it goes. -/
def recordResolved (_ : RealTimeScheduler) (a : TaskAction) (_ : RealTimeScheduler)
    (resolved : Option RealTimeScheduler) : Option RealTimeScheduler :=
  resolved.bind fun s => s.act a.resolve

end RealTimeScheduler

/-- A scheduler, and the one with the deadlines resolved. -/
abbrev ResolvedRun := RealTimeScheduler × Option RealTimeScheduler

namespace ResolvedRun

open RealTimeScheduler

/-- **The runs of a scheduler**, each beside the one with the deadlines resolved. -/
def machine (policy : SchedulingPolicy) : Machine ResolvedRun TaskAction :=
  Machine.withHistory ⟨fun s => s = .new policy, RealTimeScheduler.act⟩ (some (.new policy))
    recordResolved

/-- **Treated alike**: the other run has come along, and differs in the deadlines only. -/
def TreatedAlike (p : ResolvedRun) : Prop := p.2 = some p.1.resolve

/-- What the step needs for it. -/
def StepAlike (p : ResolvedRun) (a : TaskAction) : Prop := p.1.DeadlinesAlike a

end ResolvedRun

namespace RealTimeScheduler

open MemoryPool

variable {s t : RealTimeScheduler} {a : TaskAction}

/-! ## Every operation but the two -/

theorem task?_resolve (s : RealTimeScheduler) (id : ℕ) :
    s.resolve.task? id = (s.task? id).map SchedulerTask.resolve := by
  have htable : s.resolve.tasks = s.tasks := rfl
  have hpool : s.resolve.taskPool = s.taskPool.map SchedulerTask.resolve := rfl
  rw [task?, task?, htable, hpool]
  cases s.tasks.lookup id with
  | none => rfl
  | some b => exact lookup_map ..

theorem resolve_addTask (s : RealTimeScheduler) (unit : UnitPtr) (name : String)
    (constraints : TimingConstraints) (now : TimePoint) :
    (s.resolve.addTask unit name constraints.resolve now).1 =
      (s.addTask unit name constraints now).1.resolve := by
  have halloc : s.resolve.taskPool.allocateObject
      { unit, constraints := constraints.resolve, name, taskId := s.resolve.nextTaskId.toNat
        nextExecution := now + constraints.resolve.period, lastExecution := now } =
      (s.taskPool.allocateObject
        { unit, constraints, name, taskId := s.nextTaskId.toNat
          nextExecution := now + constraints.period, lastExecution := now }).map
            fun h => (h.1, h.2.map SchedulerTask.resolve) :=
    map_allocateObject (r := SchedulerTask.resolve) s.taskPool
      { unit, constraints, name, taskId := s.nextTaskId.toNat
        nextExecution := now + constraints.period, lastExecution := now }
  cases hroom : s.taskPool.allocateObject
      { unit, constraints, name, taskId := s.nextTaskId.toNat
        nextExecution := now + constraints.period, lastExecution := now } with
  | none =>
    rw [hroom, Option.map_none] at halloc
    simp only [addTask, hroom, halloc]
  | some h =>
    rw [hroom, Option.map_some] at halloc
    simp only [addTask, hroom, halloc]
    rfl

theorem resolve_releaseTask (p : MemoryPool SchedulerTask) (b : ℕ) :
    (releaseTask p b).map SchedulerTask.resolve = releaseTask (p.map SchedulerTask.resolve) b := by
  unfold releaseTask
  rw [lookup_map]
  cases p.blocks.lookup b with
  | none => rfl
  | some task =>
    dsimp only [Option.map_some, SchedulerTask.resolve]
    split_ifs
    · refine map_update ?_ p b
      intro _
      rfl
    · exact map_deallocateObject p b

theorem resolve_foldl_releaseTask (bs : List ℕ) (p : MemoryPool SchedulerTask) :
    (bs.foldl releaseTask p).map SchedulerTask.resolve =
      bs.foldl releaseTask (p.map SchedulerTask.resolve) := by
  induction bs generalizing p with
  | nil => rfl
  | cons b bs ih => rw [List.foldl_cons, List.foldl_cons, ih, resolve_releaseTask]

theorem resolve_removeTask (s : RealTimeScheduler) (taskId : ℕ) :
    (s.resolve.removeTask taskId).1 = (s.removeTask taskId).1.resolve := by
  have htable : s.resolve.tasks = s.tasks := rfl
  have hpool : s.resolve.taskPool = s.taskPool.map SchedulerTask.resolve := rfl
  unfold removeTask
  rw [htable]
  cases s.tasks.lookup taskId with
  | none => rfl
  | some b =>
    dsimp only
    rw [hpool, lookup_map]
    cases s.taskPool.blocks.lookup b with
    | none => rfl
    | some task =>
      dsimp only [Option.map_some, SchedulerTask.resolve]
      split_ifs
      · have hmark : (s.taskPool.update b fun t => { t with active := false, pendingRemoval := true }).map
            SchedulerTask.resolve = (s.taskPool.map SchedulerTask.resolve).update b fun t =>
              { t with active := false, pendingRemoval := true } := by
          refine map_update ?_ s.taskPool b
          intro _
          rfl
        dsimp only [resolve]
        rw [hmark]
      · dsimp only [resolve]
        rw [map_deallocateObject]

theorem reactivate_resolve (now : TimePoint) (task : SchedulerTask) :
    reactivate now task.resolve = (reactivate now task).resolve := by
  unfold reactivate SchedulerTask.resolve
  split_ifs <;> rfl

theorem resolve_reactivateAll (s : RealTimeScheduler) (now : TimePoint) :
    s.resolve.reactivateAll now = (s.reactivateAll now).resolve := by
  have hpool (bs : List ℕ) (p : MemoryPool SchedulerTask) :
      (bs.foldl (fun p b => p.update b (reactivate now)) p).map SchedulerTask.resolve =
        bs.foldl (fun p b => p.update b (reactivate now)) (p.map SchedulerTask.resolve) := by
    induction bs generalizing p with
    | nil => rfl
    | cons b bs ih =>
      rw [List.foldl_cons, List.foldl_cons, ih, map_update (reactivate_resolve now)]
  rw [reactivateAll, reactivateAll, resolve, resolve, hpool]

theorem resolve_updateTaskConstraints (s : RealTimeScheduler) (taskId : ℕ)
    (constraints : TimingConstraints) :
    (s.resolve.updateTaskConstraints taskId constraints.resolve).1 =
      (s.updateTaskConstraints taskId constraints).1.resolve := by
  have htable : s.resolve.tasks = s.tasks := rfl
  unfold updateTaskConstraints
  rw [htable]
  cases s.tasks.lookup taskId with
  | none => rfl
  | some b =>
    have hupdate : (s.taskPool.update b fun t => { t with
        constraints, nextExecution := t.lastExecution + constraints.period }).map
          SchedulerTask.resolve = (s.taskPool.map SchedulerTask.resolve).update b fun t => { t with
            constraints := constraints.resolve
            nextExecution := t.lastExecution + constraints.resolve.period } := by
      refine map_update ?_ s.taskPool b
      intro _
      rfl
    dsimp only [resolve]
    rw [hupdate]

theorem resolve_claim (s : RealTimeScheduler) (id : ℕ) (plan : CyclePlan) :
    s.resolve.claim id plan = (s.claim id plan).resolve := by
  have htable : s.resolve.tasks = s.tasks := rfl
  unfold RealTimeScheduler.claim
  rw [htable, task?_resolve]
  cases s.tasks.lookup id with
  | none => rfl
  | some b =>
    cases s.task? id with
    | none => rfl
    | some task =>
      dsimp only [Option.map_some, SchedulerTask.resolve]
      split_ifs
      · have hclaim : (s.taskPool.update b fun t => { t with executing := true }).map
            SchedulerTask.resolve = (s.taskPool.map SchedulerTask.resolve).update b fun t =>
              { t with executing := true } := by
          refine map_update ?_ s.taskPool b
          intro _
          rfl
        dsimp only [resolve]
        rw [hclaim]
      · rfl

theorem readyIds_resolve (s : RealTimeScheduler) (now : TimePoint) :
    s.resolve.readyIds now = s.readyIds now := by
  have htable : s.resolve.tasks = s.tasks := rfl
  rw [readyIds, readyIds, htable]
  refine List.filter_congr fun id _ => ?_
  rw [task?_resolve]
  cases s.task? id <;> rfl

theorem mayPick_resolve (s : RealTimeScheduler) (now : TimePoint) (id : ℕ) :
    s.resolve.mayPick now id = s.mayPick now id := by
  have hkeys (f g : Option SchedulerTask) : (∀ a ∈ f.map SchedulerTask.resolve,
      ∀ b ∈ g.map SchedulerTask.resolve, a.constraints.priority.value ≤ b.constraints.priority.value) ↔
        ∀ a ∈ f, ∀ b ∈ g, a.constraints.priority.value ≤ b.constraints.priority.value := by
    cases f with
    | none => simp
    | some a =>
      cases g with
      | none => simp
      | some b => simp [SchedulerTask.resolve, TimingConstraints.resolve]
  rw [mayPick, mayPick, readyIds_resolve]
  simp only [task?_resolve, hkeys]

/-- **Every step of the loop but the two.** -/
theorem resolve_loopStep {step : LoopStep} (hstep : s.loopStep step = some t)
    (hselect : ∀ now order, step ≠ .select now order)
    (hfinalize : ∀ start stop now, step ≠ .finalize start stop now) :
    s.resolve.loopStep step = some t.resolve := by
  have hworker : s.resolve.worker = s.worker := rfl
  cases hpc : s.worker.pc? with
  | none => simp [loopStep, hpc] at hstep
  | some pc =>
    have hpc' : s.resolve.worker.pc? = some pc := hpc
    have hrunning : s.resolve.running = s.running := rfl
    have hpaused : s.resolve.paused = s.paused := rfl
    cases step with
    | select now order => exact absurd rfl (hselect now order)
    | finalize start stop now => exact absurd rfl (hfinalize start stop now)
    | advance =>
      cases pc with
      | top =>
        simp only [loopStep, hpc] at hstep
        simp only [loopStep, hpc', hrunning, hpaused]
        split_ifs at hstep ⊢ <;> (obtain rfl := Option.some.inj hstep; rfl)
      | armed =>
        simp only [loopStep, hpc] at hstep
        simp only [loopStep, hpc', hrunning]
        split_ifs at hstep ⊢ <;> (obtain rfl := Option.some.inj hstep; rfl)
      | cycle plan =>
        simp only [loopStep, hpc] at hstep
        simp only [loopStep, hpc', hrunning]
        split_ifs at hstep ⊢
        · obtain ⟨⟩ := hstep
          rfl
        · cases plan with
          | custom left => cases hstep
          | ready ids =>
            cases ids with
            | nil => cases hstep
            | cons id ids =>
              dsimp only at hstep ⊢
              split_ifs at hstep ⊢ <;> (obtain rfl := Option.some.inj hstep; rfl)
      | picked id plan =>
        simp only [loopStep, hpc] at hstep
        simp only [loopStep, hpc']
        rw [← Option.some.inj hstep, resolve_claim]
      | reporting unit times plan =>
        simp only [loopStep, hpc] at hstep
        simp only [loopStep, hpc']
        rw [← Option.some.inj hstep]
        rfl
      | _ => simp [loopStep, hpc] at hstep
    | beginCustom now =>
      obtain ⟨hcustom, rfl⟩ := exists_of_beginCustom hstep
      cases pc with
      | selecting =>
        have hpolicy : s.resolve.policy = .custom := hcustom
        simp only [loopStep, hpc', hpolicy, if_true, resolve_reactivateAll]
        rfl
      | _ => simp [loopStep, hpc] at hstep
    | pick now id =>
      cases pc with
      | cycle plan =>
        cases plan with
        | ready ids => simp [loopStep, hpc] at hstep
        | custom left =>
          cases left with
          | zero => simp [loopStep, hpc] at hstep
          | succ left =>
            simp only [loopStep, hpc] at hstep
            simp only [loopStep, hpc', hrunning, mayPick_resolve]
            split_ifs at hstep ⊢ <;> (obtain rfl := Option.some.inj hstep; rfl)
      | _ => simp [loopStep, hpc] at hstep
    | bodyReturns =>
      cases pc with
      | processAsync block plan =>
        simp only [loopStep, hpc] at hstep
        simp only [loopStep, hpc']
        rw [← Option.some.inj hstep]
        rfl
      | processSync block plan =>
        simp only [loopStep, hpc] at hstep
        simp only [loopStep, hpc']
        rw [← Option.some.inj hstep]
        rfl
      | _ => simp [loopStep, hpc] at hstep
    | bodyThrows =>
      cases pc with
      | processAsync block plan =>
        simp only [loopStep, hpc] at hstep
        simp only [loopStep, hpc']
        rw [← Option.some.inj hstep]
        rfl
      | processSync block plan =>
        simp only [loopStep, hpc] at hstep
        simp only [loopStep, hpc']
        rw [← Option.some.inj hstep]
        rfl
      | _ => simp [loopStep, hpc] at hstep

/-! ## The sort -/

/-- A sort that the policy allows is one of the resolved tasks exactly under the condition. -/
theorem mayOrder_resolve_iff {now : TimePoint} {order : List ℕ} (horder : s.mayOrder now order = true) :
    s.resolve.mayOrder now order = true ↔ (s.policy = .earliestDeadlineFirst →
      order.Pairwise fun i j => ∀ x ∈ s.task? i, ∀ y ∈ s.task? j,
        x.nextExecution + x.constraints.resolve.deadline ≤
          y.nextExecution + y.constraints.resolve.deadline) := by
  have hpolicy : s.resolve.policy = s.policy := rfl
  have hlast : s.resolve.lastSelectedTask = s.lastSelectedTask := rfl
  have hmap (i j : ℕ) (R : SchedulerTask → SchedulerTask → Prop) :
      (∀ x ∈ s.resolve.task? i, ∀ y ∈ s.resolve.task? j, R x y) ↔
        ∀ x ∈ s.task? i, ∀ y ∈ s.task? j, R x.resolve y.resolve := by
    rw [task?_resolve, task?_resolve]
    simp only [Option.mem_def, Option.map_eq_some_iff, forall_exists_index, and_imp,
      forall_apply_eq_imp_iff₂]
  rw [mayOrder, Bool.and_eq_true, Bool.and_eq_true, decide_eq_true_eq, decide_eq_true_eq] at horder
  obtain ⟨⟨hperm, hsorted⟩, hcursor⟩ := horder
  have hparts : s.resolve.mayOrder now order = true ↔ order.Pairwise fun i j =>
      ∀ x ∈ s.task? i, ∀ y ∈ s.task? j, s.resolve.mayPrecede x.resolve y.resolve = true := by
    rw [mayOrder, Bool.and_eq_true, Bool.and_eq_true, decide_eq_true_eq, decide_eq_true_eq,
      readyIds_resolve, hpolicy, hlast]
    simp only [hmap]
    exact ⟨fun h => h.1.2, fun h => ⟨⟨hperm, h⟩, hcursor⟩⟩
  rw [hparts]
  by_cases hedf : s.policy = .earliestDeadlineFirst
  · have hkey (x y : SchedulerTask) : s.resolve.mayPrecede x.resolve y.resolve = true ↔
        x.nextExecution + x.constraints.resolve.deadline ≤
          y.nextExecution + y.constraints.resolve.deadline := by
      rw [mayPrecede, hpolicy, hedf]
      exact decide_eq_true_iff
    simp only [hkey, hedf, true_imp_iff]
  · -- no other key reads the deadline
    have hkey (x y : SchedulerTask) :
        s.resolve.mayPrecede x.resolve y.resolve = s.mayPrecede x y := by
      rw [mayPrecede, mayPrecede, hpolicy]
      cases hp : s.policy with
      | earliestDeadlineFirst => exact absurd hp hedf
      | _ => rfl
    simp only [hkey]
    exact iff_of_true hsorted fun h => absurd h hedf

theorem resolve_select_iff {now : TimePoint} {order : List ℕ}
    (hstep : s.loopStep (.select now order) = some t) :
    s.resolve.loopStep (.select now order) = some t.resolve ↔ DeadlinesAlike s (.loop (.select now order)) := by
  obtain ⟨hpc, -⟩ := exists_of_select hstep
  simp only [loopStep, hpc] at hstep
  obtain ⟨⟨hpolicy, horder⟩, ht⟩ := Option.ite_none_right_eq_some.mp hstep
  have hkept : (s.reactivateAll now).policy = s.policy := rfl
  have hcond : DeadlinesAlike s (.loop (.select now order)) ↔
      (s.reactivateAll now).resolve.mayOrder now order = true := by
    rw [mayOrder_resolve_iff horder, hkept]
    refine ⟨fun h => h.order now order rfl, fun h => ⟨?_, ?_⟩⟩
    · rintro now' order' hlabel
      cases hlabel
      exact h
    · intro _ _ _ _ _ _ _ hlabel
      cases hlabel
  have hpc' : s.resolve.worker.pc? = some .selecting := hpc
  have hpolicy' : s.resolve.policy ≠ .custom := hpolicy
  simp only [loopStep, hpc', resolve_reactivateAll]
  rw [hcond, ← Option.some.inj ht]
  constructor
  · intro h
    exact (Option.ite_none_right_eq_some.mp h).1.2
  · intro h
    rw [if_pos ⟨hpolicy', h⟩]
    rfl

/-! ## The bookkeeping -/

/-- The end of an execution, of a task that is there. -/
theorem finalizeTaskExecution_of_lookup {block : ℕ} {task : SchedulerTask}
    (hblock : s.taskPool.blocks.lookup block = some task) (plan : CyclePlan)
    (result : TaskExecutionResult) (now : TimePoint) :
    s.finalizeTaskExecution block plan result now = { s with
      taskPool := if task.pendingRemoval then s.taskPool.deallocateObject block
        else s.taskPool.update block fun _ => (finalizeTask task result now).1
      statistics := updateGlobalStatistics s.statistics result.success result.executionTime
        (finalizeTask task result now).2.missedDeadline
      worker := .running <|
        if result.success then .cycle plan
        else .reporting (finalizeTask task result now).2.unit
          (if (finalizeTask task result now).2.deactivated then 2 else 1) plan } := by
  rw [finalizeTaskExecution, hblock]
  dsimp only
  rw [deallocateObject_update (AList.mem_of_lookup hblock)]

/-- The bookkeeping does the same to the resolved task, but for the misses. -/
theorem finalizeTask_resolve (task : SchedulerTask) (success : Bool) (start stop now : TimePoint) :
    (finalizeTask task.resolve ⟨success, start, stop⟩ now).1 =
        { (finalizeTask task ⟨success, start, stop⟩ now).1.resolve with
          missedDeadlines := task.missedDeadlines +
            if hasDeadlinePassed now task.resolve then 1 else 0 } ∧
      (finalizeTask task ⟨success, start, stop⟩ now).1.missedDeadlines =
        task.missedDeadlines + (if hasDeadlinePassed now task then 1 else 0) ∧
      (finalizeTask task.resolve ⟨success, start, stop⟩ now).2 =
        { (finalizeTask task ⟨success, start, stop⟩ now).2 with
          missedDeadline := hasDeadlinePassed now
            (if success then (nextSlot task start).resolve else task.resolve) } ∧
      (finalizeTask task ⟨success, start, stop⟩ now).2.missedDeadline =
        hasDeadlinePassed now (if success then nextSlot task start else task) := by
  cases success with
  | true => exact ⟨rfl, rfl, rfl, rfl⟩
  | false => exact ⟨rfl, rfl, rfl, rfl⟩

theorem toNat_injective {x y : Bool} (h : (if x then 1 else 0 : ℕ) = if y then 1 else 0) : x = y := by
  cases x <;> cases y <;> simp_all

/-- The bookkeeping of one task is alike exactly if no reading tells the deadlines apart. -/
theorem finalizeTask_resolve_iff {task : SchedulerTask} {success : Bool} {start stop now : TimePoint} :
    MissesAlike task success start now ↔
      (task.pendingRemoval = false → (finalizeTask task.resolve ⟨success, start, stop⟩ now).1 =
        (finalizeTask task ⟨success, start, stop⟩ now).1.resolve) ∧
      (finalizeTask task.resolve ⟨success, start, stop⟩ now).2.missedDeadline =
        (finalizeTask task ⟨success, start, stop⟩ now).2.missedDeadline := by
  obtain ⟨hresolved, hcount, hresolved', hmissed⟩ := finalizeTask_resolve task success start stop now
  have htask : (finalizeTask task.resolve ⟨success, start, stop⟩ now).1 =
      (finalizeTask task ⟨success, start, stop⟩ now).1.resolve ↔
        hasDeadlinePassed now task.resolve = hasDeadlinePassed now task := by
    rw [hresolved]
    constructor
    · intro h
      have hcounters := congrArg SchedulerTask.missedDeadlines h
      rw [show (finalizeTask task ⟨success, start, stop⟩ now).1.resolve.missedDeadlines =
        (finalizeTask task ⟨success, start, stop⟩ now).1.missedDeadlines from rfl, hcount] at hcounters
      exact toNat_injective (Nat.add_left_cancel hcounters)
    · intro h
      rw [h, ← hcount]
      rfl
  rw [htask, hresolved', hmissed]
  cases success with
  | true =>
    exact ⟨fun h => ⟨fun hkept => h.slot (.inr hkept), h.next rfl⟩,
      fun h => ⟨fun hkept => h.1 (hkept.resolve_left Bool.noConfusion), fun _ => h.2⟩⟩
  | false =>
    exact ⟨fun h => ⟨fun _ => h.slot (.inl rfl), h.slot (.inl rfl)⟩,
      fun h => ⟨fun _ => h.2, fun hsuccess => Bool.noConfusion hsuccess⟩⟩

/-- The global counter of the misses moves with the outcome, and nothing else reads it. -/
theorem updateGlobalStatistics_inj {st : SchedulerStatistics} {success : Bool} {time : Microseconds}
    {missed missed' : Bool} :
    updateGlobalStatistics st success time missed = updateGlobalStatistics st success time missed' ↔
      missed = missed' := by
  have hcount (m : Bool) : (updateGlobalStatistics st success time m).missedDeadlines =
      st.missedDeadlines + if m then 1 else 0 := by
    unfold updateGlobalStatistics
    dsimp only
    split_ifs <;> rfl
  refine ⟨fun h => ?_, congrArg _⟩
  have hcounters := congrArg SchedulerStatistics.missedDeadlines h
  rw [hcount, hcount] at hcounters
  exact toNat_injective (Nat.add_left_cancel hcounters)

/-- **The bookkeeping is alike exactly under the condition.** -/
theorem finalizeTaskExecution_resolve_iff {block : ℕ} {task : SchedulerTask}
    (hblock : s.taskPool.blocks.lookup block = some task) (plan : CyclePlan) (success : Bool)
    (start stop now : TimePoint) :
    s.resolve.finalizeTaskExecution block plan ⟨success, start, stop⟩ now =
        (s.finalizeTaskExecution block plan ⟨success, start, stop⟩ now).resolve ↔
      MissesAlike task success start now := by
  have hblock' : s.resolve.taskPool.blocks.lookup block = some task.resolve := by
    have hmap : s.resolve.taskPool.blocks.lookup block =
        (s.taskPool.blocks.lookup block).map SchedulerTask.resolve := lookup_map ..
    rw [hmap, hblock]
    rfl
  have hrun : (finalizeTask task.resolve ⟨success, start, stop⟩ now).2.unit =
        (finalizeTask task ⟨success, start, stop⟩ now).2.unit ∧
      (finalizeTask task.resolve ⟨success, start, stop⟩ now).2.deactivated =
        (finalizeTask task ⟨success, start, stop⟩ now).2.deactivated := by
    rw [(finalizeTask_resolve task success start stop now).2.2.1]
    exact ⟨rfl, rfl⟩
  have hpending : task.resolve.pendingRemoval = task.pendingRemoval := rfl
  rw [finalizeTask_resolve_iff, finalizeTaskExecution_of_lookup hblock,
    finalizeTaskExecution_of_lookup hblock', hrun.1, hrun.2, hpending]
  have hstatistics : s.resolve.statistics = s.statistics := rfl
  have hpool : s.resolve.taskPool = s.taskPool.map SchedulerTask.resolve := rfl
  rw [hstatistics, hpool]
  have hupdate (x y : SchedulerTask) : (s.taskPool.map SchedulerTask.resolve).update block (fun _ => y) =
      (s.taskPool.update block fun _ => x).map SchedulerTask.resolve ↔ y = x.resolve := by
    have hmap : (s.taskPool.update block fun _ => x).map SchedulerTask.resolve =
        (s.taskPool.map SchedulerTask.resolve).update block fun _ => x.resolve := by
      refine map_update ?_ s.taskPool block
      intro _
      rfl
    rw [hmap]
    refine ⟨fun h => ?_, fun h => by rw [h]⟩
    have hlook := congrArg (fun p => p.blocks.lookup block) h
    rw [hpool] at hblock'
    simpa only [update_blocks, AList.lookup_modify_self, hblock', Option.map_some,
      Option.some.injEq] using hlook
  constructor
  · intro h
    constructor
    · intro hkept
      have hpools := congrArg RealTimeScheduler.taskPool h
      simp only [hkept, Bool.false_eq_true, if_false, resolve] at hpools
      exact (hupdate _ _).mp hpools
    · exact updateGlobalStatistics_inj.mp (congrArg RealTimeScheduler.statistics h)
  · rintro ⟨htask, hmissed⟩
    rw [hmissed]
    cases hp : task.pendingRemoval with
    | true =>
      simp only [resolve, if_true, map_deallocateObject]
    | false =>
      have hpools := (hupdate _ _).mpr (htask hp)
      simp only [resolve, Bool.false_eq_true, if_false, ← hpools]

theorem finalizeTaskExecution_alike_iff (block : ℕ) (plan : CyclePlan) (success : Bool)
    (start stop now : TimePoint) :
    s.resolve.finalizeTaskExecution block plan ⟨success, start, stop⟩ now =
        (s.finalizeTaskExecution block plan ⟨success, start, stop⟩ now).resolve ↔
      ∀ task, s.taskPool.blocks.lookup block = some task → MissesAlike task success start now := by
  cases hblock : s.taskPool.blocks.lookup block with
  | none =>
    -- nothing is there to be looked at
    have hblock' : s.resolve.taskPool.blocks.lookup block = none := by
      have hmap : s.resolve.taskPool.blocks.lookup block =
          (s.taskPool.blocks.lookup block).map SchedulerTask.resolve := lookup_map ..
      rw [hmap, hblock]
      rfl
    simp only [finalizeTaskExecution, hblock, hblock']
    refine iff_of_true rfl fun task h => ?_
    cases h
  | some task =>
    rw [finalizeTaskExecution_resolve_iff hblock]
    refine ⟨fun h _ heq => ?_, fun h => h task rfl⟩
    rw [← Option.some.inj heq]
    exact h

theorem resolve_finalize_iff {start stop now : TimePoint}
    (hstep : s.loopStep (.finalize start stop now) = some t) :
    s.resolve.loopStep (.finalize start stop now) = some t.resolve ↔
      DeadlinesAlike s (.loop (.finalize start stop now)) := by
  cases hpc : s.worker.pc? with
  | none => simp [loopStep, hpc] at hstep
  | some pc =>
    have hpc' : s.resolve.worker.pc? = some pc := hpc
    cases pc with
    | finalizing block success plan =>
      simp only [loopStep, hpc] at hstep
      simp only [loopStep, hpc']
      rw [← Option.some.inj hstep, Option.some.injEq]
      have hcond : DeadlinesAlike s (.loop (.finalize start stop now)) ↔
          ∀ task, s.taskPool.blocks.lookup block = some task →
            MissesAlike task success start now := by
        refine ⟨fun h task => h.misses start stop now block success plan task rfl hpc,
          fun h => ⟨by simp, ?_⟩⟩
        rintro _ _ _ _ _ _ task hlabel hpc₁ htask
        cases hlabel
        rw [hpc] at hpc₁
        cases hpc₁
        exact h task htask
      rw [hcond]
      exact finalizeTaskExecution_alike_iff block plan success start stop now
    | _ => simp [loopStep, hpc] at hstep

/-! ## Every action -/

/-- **One action of the other run is alike exactly if the step does not tell the deadlines apart.** -/
theorem act_resolve_iff (hact : s.act a = some t) :
    s.resolve.act a.resolve = some t.resolve ↔ DeadlinesAlike s a := by
  have hother (hselect : ∀ now order, a ≠ .loop (.select now order))
      (hfinalize : ∀ start stop now, a ≠ .loop (.finalize start stop now))
      (h : s.resolve.act a.resolve = some t.resolve) :
      s.resolve.act a.resolve = some t.resolve ↔ DeadlinesAlike s a :=
    iff_of_true h ⟨fun now order ha => absurd ha (hselect now order),
      fun start stop now _ _ _ _ ha => absurd ha (hfinalize start stop now)⟩
  cases a with
  | addTask unit name constraints now =>
    obtain ⟨⟩ := hact
    exact hother (by simp) (by simp) (congrArg some (resolve_addTask s unit name constraints now))
  | removeTask taskId =>
    obtain ⟨⟩ := hact
    exact hother (by simp) (by simp) (congrArg some (resolve_removeTask s taskId))
  | removeAllTasks =>
    obtain ⟨⟩ := hact
    refine hother (by simp) (by simp) (congrArg some ?_)
    rw [removeAllTasks, removeAllTasks, resolve, resolve, resolve_foldl_releaseTask]
  | updateTaskConstraints taskId constraints =>
    obtain ⟨⟩ := hact
    exact hother (by simp) (by simp) (congrArg some (resolve_updateTaskConstraints s taskId constraints))
  | loop step =>
    cases step with
    | select now order => exact resolve_select_iff hact
    | finalize start stop now => exact resolve_finalize_iff hact
    | _ => exact hother (by simp) (by simp) (resolve_loopStep hact (by simp) (by simp))
  | customPick id =>
    refine hother (by simp) (by simp) ?_
    have hrunning : s.resolve.running = s.running := rfl
    cases hpc : s.worker.pc? with
    | none => simp [act, hpc] at hact
    | some pc =>
      have hpc' : s.resolve.worker.pc? = some pc := hpc
      cases pc with
      | cycle plan =>
        cases plan with
        | ready ids => simp [act, hpc] at hact
        | custom left =>
          cases left with
          | zero => simp [act, hpc] at hact
          | succ left =>
            simp only [act, hpc] at hact
            simp only [TaskAction.resolve, act, hpc', hrunning]
            obtain ⟨hrun, ht⟩ := Option.ite_none_right_eq_some.mp hact
            rw [if_pos hrun, ← Option.some.inj ht]
            rfl
      | _ => simp [act, hpc] at hact
  | start spawned =>
    refine hother (by simp) (by simp) ?_
    have halive : s.resolve.loopAlive = s.loopAlive := rfl
    have hrunning : s.resolve.running = s.running := rfl
    obtain ⟨hfree, ht⟩ := Option.ite_none_left_eq_some.mp hact
    simp only [TaskAction.resolve, act, halive, hrunning]
    rw [if_neg hfree, ← Option.some.inj ht, start, start, hrunning]
    split_ifs <;> rfl
  | join =>
    refine hother (by simp) (by simp) ?_
    have halive : s.resolve.loopAlive = s.loopAlive := rfl
    obtain ⟨hjoined, ht⟩ := Option.ite_none_left_eq_some.mp hact
    simp only [TaskAction.resolve, act, halive]
    rw [if_neg hjoined, ← Option.some.inj ht]
    rfl
  | _ =>
    obtain ⟨⟩ := hact
    exact hother (by simp) (by simp) rfl

end RealTimeScheduler

namespace ResolvedRun

open RealTimeScheduler

variable {policy : SchedulingPolicy} {p q : ResolvedRun} {a : TaskAction}

/-- One step. -/
theorem treatedAlike_step (hp : TreatedAlike p) (hstep : (machine policy).step p a = some q) :
    TreatedAlike q ↔ StepAlike p a := by
  obtain ⟨s, r⟩ := p
  obtain ⟨t, r'⟩ := q
  obtain ⟨hact, hrecord⟩ := Machine.withHistory_step.mp hstep
  have hresolved : r = some s.resolve := hp
  subst hresolved
  have hnext : s.resolve.act a.resolve = r' := hrecord
  rw [TreatedAlike, StepAlike, ← hnext]
  exact act_resolve_iff hact

/-- **Every run is treated like the one with the deadlines resolved exactly as long as no sort and
no bookkeeping tells them apart.** -/
theorem treatedAlike_iff (policy : SchedulingPolicy) (as : List TaskAction) :
    (machine policy).Always TreatedAlike (.new policy, some (.new policy)) as ↔
      (machine policy).Allowed StepAlike (.new policy, some (.new policy)) as := by
  have hnew : TreatedAlike (.new policy, some (.new policy)) := rfl
  exact Machine.always_iff_allowed (I := fun _ => True) (fun _ _ _ _ _ _ => trivial)
    (fun _ _ _ _ hp hstep => treatedAlike_step hp hstep) trivial hnew as

/-- A task of period 10 and deadline 0 that ends 3 µs after its slot began. -/
def zeroDeadline : List TaskAction :=
  [.addTask 7 "Task_7" { period := 10 } 0, .start true, .loop .advance, .loop .advance,
    .loop (.select 12 [1]), .loop .advance, .loop .advance, .loop .bodyReturns, .loop .bodyReturns,
    .loop (.finalize 2 3 13)]

/-- **It is counted as a miss, and with the period as its deadline it is none.** -/
theorem zero_not_period : ¬ ∀ (policy : SchedulingPolicy) (as : List TaskAction),
    (machine policy).Always TreatedAlike (.new policy, some (.new policy)) as := by
  intro hall
  have hmisses : ((machine .earliestDeadlineFirst).exec (.new .earliestDeadlineFirst,
      some (.new .earliestDeadlineFirst)) zeroDeadline).any (fun p =>
        decide (p.1.statistics.missedDeadlines = 1) &&
          p.2.any fun s => decide (s.statistics.missedDeadlines = 0)) = true := by
    decide +kernel
  obtain ⟨⟨s, r⟩, hexec, hcounts⟩ := (Option.any_eq_true _ _).mp hmisses
  have halike : r = some s.resolve := (hall .earliestDeadlineFirst zeroDeadline).exec hexec
  subst halike
  obtain ⟨hone, hzero⟩ := Bool.and_eq_true_iff.mp hcounts
  have hsame : s.resolve.statistics.missedDeadlines = s.statistics.missedDeadlines := rfl
  rw [Option.any_some, hsame, decide_eq_true_eq] at hzero
  exact absurd ((of_decide_eq_true hone).symm.trans hzero) (by decide)

end ResolvedRun

end AxonVex
