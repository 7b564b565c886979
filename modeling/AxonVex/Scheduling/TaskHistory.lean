import AxonVex.Scheduling.Cycle

/-!
# Scheduling/TaskHistory — what an action does to the task in a block

    addTask ──▸ [task] ──claim──▸ ──finalize──▸ executed
                  ▲ select: lifted        removeTask ──▸ freed, or marked while it executes

A record beside the run keeps, for each block, what has happened to its task since `addTask`: the
executions that are over, and the back-offs that were lifted.  What an action can do to a block and
to its history is said once; what a result on histories needs of a run is an invariant that each of
these moves keeps.

The clock is steady where each reading is at or after the ones before it (`SteadyClock`).
-/

namespace AxonVex

open Machinery

/-- What happens to a task. -/
inductive TaskEvent
  /-- an execution is over: the task before the bookkeeping, what came of it, and the clock then -/
  | executed (task : SchedulerTask) (result : TaskExecutionResult) (now : TimePoint)
  /-- the back-off is lifted -/
  | lifted (now : TimePoint)
  deriving DecidableEq

/-- The record of a run. -/
structure TaskHistory where
  /-- the last reading of the clock -/
  clock : TimePoint
  /-- the last one when the loop made its last claim -/
  claimedAt : TimePoint
  /-- what has happened to the task of a block, newest first -/
  events : ℕ → List TaskEvent := fun _ => []

namespace TaskAction

/-- The reading of the clock that comes with an action. -/
def reading : TaskAction → Option TimePoint
  | .addTask _ _ _ now => some now
  | .loop (.select now _) => some now
  | .loop (.beginCustom now) => some now
  | .loop (.pick now _) => some now
  | .loop (.finalize _ _ now) => some now
  | _ => none

/-- The clock of the pass that lifts back-offs. -/
def reactivatesAt : TaskAction → Option TimePoint
  | .loop (.select now _) => some now
  | .loop (.beginCustom now) => some now
  | _ => none

end TaskAction

namespace RealTimeScheduler

variable (s : RealTimeScheduler)

/-- The execution whose bookkeeping is next: its block, and whether it succeeded. -/
def finalizing? : Option (ℕ × Bool) :=
  match s.worker.pc? with
  | some (.finalizing block success _) => some (block, success)
  | _ => none

/-- The back-off of a task is over. -/
def comesBack (now : TimePoint) (task : SchedulerTask) : Bool :=
  !task.active && decide (0 < task.consecutiveFailures) && decide (task.reactivationTime ≤ now)

/-- What the action is to the task. -/
def eventOf (a : TaskAction) (b : ℕ) (task : SchedulerTask) : Option TaskEvent :=
  match a with
  | .loop (.finalize start stop now) => s.finalizing?.bind fun f =>
    if f.1 = b then some (.executed task ⟨f.2, start, stop⟩ now) else none
  | a => a.reactivatesAt.bind fun now =>
    if b ∈ s.tasks.values ∧ comesBack now task = true then some (.lifted now) else none

/-- What the action is to the task in the block. -/
def eventAt (a : TaskAction) (b : ℕ) : Option TaskEvent :=
  (s.taskPool.blocks.lookup b).bind (s.eventOf a b)

/-- The record after an action. -/
def recordHistory (a : TaskAction) (t : RealTimeScheduler) (h : TaskHistory) : TaskHistory where
  clock := a.reading.getD h.clock
  claimedAt := if s.claimed? = none ∧ t.claimed? ≠ none then h.clock else h.claimedAt
  events b := if s.addedBlock? t = some b then [] else (s.eventAt a b).toList ++ h.events b

end RealTimeScheduler

/-- A scheduler and the record of its run. -/
abbrev HistoryRun := RealTimeScheduler × TaskHistory

namespace HistoryRun

open RealTimeScheduler

/-- **The runs of a scheduler**, from its construction at a time. -/
def machine (epoch : TimePoint) : Machine HistoryRun TaskAction :=
  Machine.withHistory ⟨fun s => ∃ policy, s = .new policy, RealTimeScheduler.act⟩
    { clock := epoch, claimedAt := epoch } RealTimeScheduler.recordHistory

/-- **The clock is steady**: no reading is before an earlier one. -/
def SteadyClock (p : HistoryRun) (a : TaskAction) : Prop :=
  (∀ now ∈ a.reading, p.2.clock ≤ now) ∧ ∀ start stop now, a = .loop (.finalize start stop now) →
    p.2.claimedAt ≤ start ∧ start ≤ stop ∧ stop ≤ now

/-- The clock does not go back. -/
theorem clock_le {s t : RealTimeScheduler} {h : TaskHistory} {a : TaskAction}
    (hG : SteadyClock (s, h) a) : h.clock ≤ (s.recordHistory a t h).clock := by
  rw [recordHistory]
  cases hread : a.reading with
  | none => exact le_refl _
  | some now => exact hG.1 now hread

/-- The same, as a test. -/
def isSteady (p : HistoryRun) (a : TaskAction) : Bool :=
  a.reading.all (fun now => decide (p.2.clock ≤ now)) &&
    match a with
    | .loop (.finalize start stop now) =>
      decide (p.2.claimedAt ≤ start) && decide (start ≤ stop) && decide (stop ≤ now)
    | _ => true

theorem steadyClock_of_isSteady {p : HistoryRun} {a : TaskAction} (h : isSteady p a = true) :
    SteadyClock p a := by
  refine ⟨fun now hnow => ?_, fun start stop now ha => ?_⟩
  · have hread := (Bool.and_eq_true_iff.mp h).1
    rw [Option.mem_def.mp hnow, Option.all_some] at hread
    exact of_decide_eq_true hread
  · subst ha
    have hfinal := (Bool.and_eq_true_iff.mp h).2
    simpa only [Bool.and_eq_true, decide_eq_true_eq, and_assoc] using hfinal

/-- The run that a list of labels makes, from a scheduler as constructed. -/
theorem reachableUnder_of_checks {epoch : TimePoint} {policy : SchedulingPolicy} {p : HistoryRun}
    {as : List TaskAction}
    (hchecks : (machine epoch).checks isSteady (.new policy, ⟨epoch, epoch, fun _ => []⟩) as = true)
    (hexec : (machine epoch).exec (.new policy, ⟨epoch, epoch, fun _ => []⟩) as = some p) :
    (machine epoch).ReachableUnder SteadyClock p := by
  have hinit : (machine epoch).init (.new policy, ⟨epoch, epoch, fun _ => []⟩) :=
    ⟨⟨policy, rfl⟩, rfl⟩
  exact (Machine.ReachableUnder.init hinit).exec
    (Machine.allowed_of_checks (fun _ _ => steadyClock_of_isSteady) hchecks) hexec

end HistoryRun

/-! ## The seats

Whatever ids are given out, no two of them share a block, and nobody frees what the loop has
claimed. -/

namespace RealTimeScheduler

open MemoryPool

variable {s t : RealTimeScheduler} {b : ℕ} {a : TaskAction}

/-- **Table, pool and claim.** -/
structure Seated (s : RealTimeScheduler) : Prop where
  table : ∀ id b, s.tasks.lookup id = some b →
    ∃ task, s.taskPool.blocks.lookup b = some task ∧ task.pendingRemoval = false
  single : ∀ id id' b, s.tasks.lookup id = some b → s.tasks.lookup id' = some b → id = id'
  executing : s.ExecutingClaimed
  claimed : ∀ b, s.claimed? = some b →
    ∃ task, s.taskPool.blocks.lookup b = some task ∧ task.executing = true

/-- The blocks of the table are different. -/
theorem Seated.nodup_values (hs : Seated s) : s.tasks.values.Nodup := by
  refine List.Nodup.map_on (fun e he e' he' heq => ?_) s.tasks.nodupKeys.nodup
  obtain ⟨id, b⟩ := e
  obtain ⟨id', b'⟩ := e'
  obtain rfl : b = b' := heq
  rw [hs.single id id' b (AList.mem_lookup_iff.mpr he) (AList.mem_lookup_iff.mpr he')]

/-- **What an action does to a block and to its history.** -/
inductive BlockMove (s : RealTimeScheduler) (a : TaskAction) (t : RealTimeScheduler) (b : ℕ)
    (l : List TaskEvent) : Option SchedulerTask → Option SchedulerTask → List TaskEvent → Prop
  | stays (task : Option SchedulerTask) : BlockMove s a t b l task task l
  | added (unit : UnitPtr) (name : String) (constraints : TimingConstraints) (now : TimePoint)
      (ha : a = .addTask unit name constraints now) :
      BlockMove s a t b l none (some
        { unit, constraints, name, taskId := s.nextTaskId.toNat
          nextExecution := now + constraints.period, lastExecution := now }) []
  /-- the task leaves the table -/
  | freed (task : SchedulerTask) (ha : ∀ step, a ≠ .loop step) (he : task.executing = false)
      (hleft : ∀ id, t.tasks.lookup id ≠ some b) : BlockMove s a t b l (some task) none l
  /-- the task leaves the table in the middle of an execution -/
  | marked (task : SchedulerTask) (ha : ∀ step, a ≠ .loop step) (he : task.executing = true)
      (hleft : ∀ id, t.tasks.lookup id ≠ some b) :
      BlockMove s a t b l (some task) (some { task with active := false, pendingRemoval := true }) l
  | updated (task : SchedulerTask) (id : ℕ) (constraints : TimingConstraints)
      (ha : a = .updateTaskConstraints id constraints) :
      BlockMove s a t b l (some task) (some { task with
        constraints, nextExecution := task.lastExecution + constraints.period }) l
  | lifted (task : SchedulerTask) (now : TimePoint) (ha : now ∈ a.reactivatesAt)
      (htable : b ∈ s.tasks.values) (hback : comesBack now task = true) :
      BlockMove s a t b l (some task)
        (some { task with active := true, consecutiveFailures := 0 }) (.lifted now :: l)
  | claimed (task : SchedulerTask) (hactive : task.active = true) (hs : s.claimed? = none)
      (ht : t.claimed? = some b) :
      BlockMove s a t b l (some task) (some { task with executing := true }) l
  | finalized (task : SchedulerTask) (success : Bool) (start stop now : TimePoint)
      (ha : a = .loop (.finalize start stop now)) (hs : s.claimed? = some b)
      (ht : t.claimed? = none) :
      BlockMove s a t b l (some task)
        (if task.pendingRemoval then none else some (finalizeTask task ⟨success, start, stop⟩ now).1)
        (.executed task ⟨success, start, stop⟩ now :: l)

variable {h : TaskHistory}

/-- The move of a block along an action. -/
abbrev Moves (s : RealTimeScheduler) (a : TaskAction) (t : RealTimeScheduler) (h : TaskHistory)
    (b : ℕ) : Prop :=
  BlockMove s a t b (h.events b) (s.taskPool.blocks.lookup b) (t.taskPool.blocks.lookup b)
    ((s.recordHistory a t h).events b)

theorem events_of_next (hnext : t.nextTaskId = s.nextTaskId) :
    (s.recordHistory a t h).events b = (s.eventAt a b).toList ++ h.events b := by
  have hadded : s.addedBlock? t = none := if_pos hnext
  simp only [recordHistory, hadded, reduceCtorEq, if_false]

theorem eventAt_eq_none (hnone : ∀ task, s.eventOf a b task = none) : s.eventAt a b = none := by
  rw [eventAt]
  cases s.taskPool.blocks.lookup b with
  | none => rfl
  | some task => exact hnone task

/-- An action that is nothing to the block. -/
theorem moves_of_same (hnext : t.nextTaskId = s.nextTaskId)
    (hblock : t.taskPool.blocks.lookup b = s.taskPool.blocks.lookup b)
    (hnone : s.eventAt a b = none) : Moves s a t h b := by
  rw [Moves, events_of_next hnext, hnone, hblock]
  exact .stays _

/-- An action that is something to the task in the block. -/
theorem moves_of_move {x y : Option SchedulerTask} {event : Option TaskEvent}
    (hnext : t.nextTaskId = s.nextTaskId) (hevent : s.eventAt a b = event)
    (hbefore : s.taskPool.blocks.lookup b = x) (hafter : t.taskPool.blocks.lookup b = y)
    (hmove : BlockMove s a t b (h.events b) x y (event.toList ++ h.events b)) : Moves s a t h b := by
  rw [Moves, events_of_next hnext, hevent, hbefore, hafter]
  exact hmove

theorem moves_addTask (unit : UnitPtr) (name : String) (constraints : TimingConstraints)
    (now : TimePoint) : Moves s (.addTask unit name constraints now)
      (s.addTask unit name constraints now).1 h b := by
  have hnone : s.eventAt (.addTask unit name constraints now) b = none :=
    eventAt_eq_none fun _ => rfl
  unfold addTask
  dsimp only
  split
  · exact moves_of_same rfl rfl hnone
  next block pool halloc =>
    obtain ⟨hfree, hblocks, -⟩ := allocateObject_spec halloc
    generalize ht : ({ s with
      taskPool := pool
      tasks := s.tasks.insert s.nextTaskId.toNat block
      nextTaskId := s.nextTaskId + 1 } : RealTimeScheduler) = t
    have hadded : s.addedBlock? t = some block := by
      rw [← ht, addedBlock?, if_neg (Owned.succ_ne _)]
      exact AList.lookup_insert _
    have hlookup : t.taskPool.blocks.lookup b = pool.blocks.lookup b := by rw [← ht]
    by_cases hb : b = block
    · subst hb
      have hevents : (s.recordHistory (.addTask unit name constraints now) t h).events b = [] :=
        if_pos hadded
      rw [Moves, hevents, hlookup, hblocks, AList.lookup_insert, AList.lookup_eq_none.mpr hfree]
      exact .added unit name constraints now rfl
    · have hevents : (s.recordHistory (.addTask unit name constraints now) t h).events b =
          h.events b := by
        have hne : s.addedBlock? t ≠ some b := fun hsome =>
          hb (Option.some.inj (hsome.symm.trans hadded))
        simp only [recordHistory, if_neg hne, hnone, Option.toList_none, List.nil_append]
      rw [Moves, hevents, hlookup, hblocks, AList.lookup_insert_ne hb]
      exact .stays _

/-- A task that leaves the table. -/
theorem moves_leave (ha : ∀ step, a ≠ .loop step) (hnext : t.nextTaskId = s.nextTaskId)
    (hnone : s.eventAt a b = none)
    (hblock : t.taskPool.blocks.lookup b = (s.taskPool.blocks.lookup b).bind Owned.leave)
    (hleft : ∀ id, t.tasks.lookup id ≠ some b) : Moves s a t h b := by
  rw [Moves, events_of_next hnext, hnone, hblock]
  cases s.taskPool.blocks.lookup b with
  | none => exact .stays none
  | some task =>
    rw [Option.bind_some, Owned.leave]
    split
    next he => exact .marked task ha he hleft
    next he => exact .freed task ha (by simpa using he) hleft

theorem moves_removeTask (hs : Seated s) (taskId : ℕ) :
    Moves s (.removeTask taskId) (s.removeTask taskId).1 h b := by
  obtain ⟨htasks, hnext, -, -⟩ := s.removeTask_frame taskId
  have hnone : s.eventAt (.removeTask taskId) b = none := eventAt_eq_none fun _ => rfl
  cases hid : s.tasks.lookup taskId with
  | none =>
    have hsame : (s.removeTask taskId).1 = s := by rw [removeTask, hid]
    exact moves_of_same hnext (by rw [hsame]) hnone
  | some c =>
    have hblock := Owned.lookup_removeTask hid b
    by_cases hb : b = c
    · subst hb
      rw [if_pos rfl] at hblock
      refine moves_leave (by simp) hnext hnone hblock fun id hid' => ?_
      rw [htasks, AList.lookup_erase_eq_some] at hid'
      exact hid'.1 (hs.single id taskId b hid'.2 hid)
    · rw [if_neg hb] at hblock
      exact moves_of_same hnext hblock hnone

theorem moves_removeAllTasks (hs : Seated s) : Moves s .removeAllTasks s.removeAllTasks h b := by
  have hnone : s.eventAt .removeAllTasks b = none := eventAt_eq_none fun _ => rfl
  have hblock : s.removeAllTasks.taskPool.blocks.lookup b = _ :=
    Owned.lookup_foldl_releaseTask s.tasks.values hs.nodup_values s.taskPool b
  by_cases hb : b ∈ s.tasks.values
  · rw [if_pos hb] at hblock
    exact moves_leave (by simp) rfl hnone hblock fun id => by simp [removeAllTasks]
  · rw [if_neg hb] at hblock
    exact moves_of_same rfl hblock hnone

theorem moves_updateTaskConstraints (taskId : ℕ) (constraints : TimingConstraints) :
    Moves s (.updateTaskConstraints taskId constraints)
      (s.updateTaskConstraints taskId constraints).1 h b := by
  have hnone : s.eventAt (.updateTaskConstraints taskId constraints) b = none :=
    eventAt_eq_none fun _ => rfl
  unfold updateTaskConstraints
  split
  · exact moves_of_same rfl rfl hnone
  next block _ =>
    by_cases hb : b = block
    · subst hb
      cases hlookup : s.taskPool.blocks.lookup b with
      | none =>
        refine moves_of_same rfl ?_ hnone
        rw [update_blocks, AList.lookup_modify_self, hlookup]
        rfl
      | some task =>
        refine moves_of_move rfl hnone hlookup ?_ (.updated task taskId constraints rfl)
        rw [update_blocks, AList.lookup_modify_self, hlookup]
        rfl
    · exact moves_of_same rfl (by rw [update_blocks, AList.lookup_modify_ne hb]) hnone

/-- The pass that lifts back-offs. -/
theorem moves_reactivate {now : TimePoint} (ha : a.reactivatesAt = some now)
    (hfin : ∀ task, s.eventOf a b task =
      if b ∈ s.tasks.values ∧ comesBack now task = true then some (.lifted now) else none)
    (hnext : t.nextTaskId = s.nextTaskId) (hpool : t.taskPool = (s.reactivateAll now).taskPool) :
    Moves s a t h b := by
  rw [Moves, events_of_next hnext, hpool, lookup_reactivateAll, eventAt]
  cases s.taskPool.blocks.lookup b with
  | none =>
    rw [Option.map_none, ite_self, Option.bind_none]
    exact .stays none
  | some task =>
    rw [Option.bind_some, hfin]
    by_cases hlift : b ∈ s.tasks.values ∧ comesBack now task = true
    · have hback : reactivate now task = { task with active := true, consecutiveFailures := 0 } :=
        if_pos hlift.2
      rw [if_pos hlift, if_pos hlift.1, Option.map_some, hback]
      exact .lifted task now ha hlift.1 hlift.2
    · have hsame : (if b ∈ s.tasks.values then (some task).map (reactivate now) else some task) =
          some task := by
        split_ifs with htable
        · exact congrArg some (if_neg fun hback => hlift ⟨htable, hback⟩)
        · rfl
      rw [if_neg hlift, hsame]
      exact .stays _

theorem moves_claim {id : ℕ} {plan : CyclePlan} (hpc : s.worker = .running (.picked id plan))
    (hnone : s.eventAt a b = none) : Moves s a (s.claim id plan) h b := by
  unfold RealTimeScheduler.claim
  split
  next block task hid htask =>
    split
    next hready =>
      rw [Bool.and_eq_true] at hready
      by_cases hb : b = block
      · subst hb
        rw [task?, hid, Option.bind_some] at htask
        have hidle : s.claimed? = none := by
          rw [claimed?, hpc]
          rfl
        refine moves_of_move rfl hnone htask ?_ (.claimed task hready.1 hidle rfl)
        rw [update_blocks, AList.lookup_modify_self, htask]
        rfl
      · exact moves_of_same rfl (by rw [update_blocks, AList.lookup_modify_ne hb]) hnone
    · exact moves_of_same rfl rfl hnone
  · exact moves_of_same rfl rfl hnone

theorem moves_finalize {block : ℕ} {success : Bool} {plan : CyclePlan} {start stop now : TimePoint}
    (hpc : s.worker.pc? = some (.finalizing block success plan)) :
    Moves s (.loop (.finalize start stop now))
      (s.finalizeTaskExecution block plan ⟨success, start, stop⟩ now) h b := by
  have hfinalizing : s.finalizing? = some (block, success) := by rw [finalizing?, hpc]
  have hevent (task : SchedulerTask) : s.eventOf (.loop (.finalize start stop now)) b task =
      if block = b then some (.executed task ⟨success, start, stop⟩ now) else none := by
    rw [eventOf, hfinalizing]
    rfl
  unfold finalizeTaskExecution
  split
  next hfree =>
    refine moves_of_same rfl rfl ?_
    rw [eventAt]
    by_cases hb : block = b
    · rw [← hb, hfree]
      rfl
    · cases s.taskPool.blocks.lookup b with
      | none => rfl
      | some task => rw [Option.bind_some, hevent, if_neg hb]
  next task hblock =>
    by_cases hb : block = b
    · subst hb
      have hclaimed : s.claimed? = some block := by
        rw [claimed?, hpc]
        rfl
      have hthis : s.eventAt (.loop (.finalize start stop now)) block =
          some (.executed task ⟨success, start, stop⟩ now) := by
        rw [eventAt, hblock, Option.bind_some, hevent, if_pos rfl]
      refine moves_of_move rfl hthis hblock ?_
        (.finalized task success start stop now rfl hclaimed (by dsimp only; split_ifs <;> rfl))
      dsimp only
      split_ifs
      · rw [deallocateObject_blocks, AList.lookup_erase]
      · rw [update_blocks, AList.lookup_modify_self, hblock]
        rfl
    · refine moves_of_same rfl ?_ ?_
      · dsimp only
        split_ifs
        · rw [deallocateObject_blocks, AList.lookup_erase_ne (Ne.symm hb), update_blocks,
            AList.lookup_modify_ne (Ne.symm hb)]
        · rw [update_blocks, AList.lookup_modify_ne (Ne.symm hb)]
      · rw [eventAt]
        cases s.taskPool.blocks.lookup b with
        | none => rfl
        | some task => rw [Option.bind_some, hevent, if_neg hb]

/-- The selection is made at its own place in the loop only. -/
theorem exists_of_select {now : TimePoint} {order : List ℕ}
    (hstep : s.loopStep (.select now order) = some t) : s.worker.pc? = some .selecting ∧
      ∃ last, { s.reactivateAll now with
        worker := .running (.cycle (.ready order)), lastSelectedTask := last } = t := by
  cases hpc : s.worker.pc? with
  | none => simp [loopStep, hpc] at hstep
  | some pc =>
    cases pc with
    | selecting =>
      simp only [loopStep, hpc] at hstep
      obtain ⟨-, hsome⟩ := Option.ite_none_right_eq_some.mp hstep
      exact ⟨rfl, _, Option.some.inj hsome⟩
    | _ => simp [loopStep, hpc] at hstep

theorem exists_of_beginCustom {now : TimePoint} (hstep : s.loopStep (.beginCustom now) = some t) :
    s.policy = .custom ∧
      (s.reactivateAll now).goto (.cycle (.custom s.tasks.keys.length)) = t := by
  cases hpc : s.worker.pc? with
  | none => simp [loopStep, hpc] at hstep
  | some pc =>
    cases pc with
    | selecting =>
      simp only [loopStep, hpc] at hstep
      obtain ⟨hcustom, hsome⟩ := Option.ite_none_right_eq_some.mp hstep
      exact ⟨hcustom, Option.some.inj hsome⟩
    | _ => simp [loopStep, hpc] at hstep

/-- A step of the loop without a pass over the table and without bookkeeping. -/
theorem moves_between {step : LoopStep} (hstep : s.loopStep step = some t)
    (hselecting : s.worker ≠ .running .selecting)
    (hfinalizing : ∀ block success plan, s.worker ≠ .running (.finalizing block success plan))
    (hnone : s.eventAt (.loop step) b = none) : Moves s (.loop step) t h b := by
  cases loopMove_of_loopStep hstep with
  | select _ _ _ hpc => exact absurd hpc hselecting
  | claim id plan hpc => exact moves_claim hpc hnone
  | finalize block plan result _ hpc => exact absurd hpc (hfinalizing block result.success plan)
  | _ => exact moves_of_same rfl rfl hnone

/-- **A step of the loop.** -/
theorem moves_loop {step : LoopStep} (hstep : s.loopStep step = some t) :
    Moves s (.loop step) t h b := by
  cases step with
  | finalize start stop now =>
    obtain ⟨block, success, plan, hpc, rfl⟩ := Owned.exists_of_finalize hstep
    exact moves_finalize hpc
  | select now order =>
    obtain ⟨-, last, rfl⟩ := exists_of_select hstep
    exact moves_reactivate rfl (fun _ => rfl) rfl rfl
  | beginCustom now =>
    obtain ⟨-, rfl⟩ := exists_of_beginCustom hstep
    exact moves_reactivate rfl (fun _ => rfl) rfl rfl
  | _ =>
    refine moves_between hstep (fun hpc => ?_) (fun _ _ _ hpc => ?_) (eventAt_eq_none fun _ => rfl)
    all_goals simp [loopStep, hpc] at hstep

/-- **Every action.** -/
theorem moves_act (hs : Seated s) (hact : s.act a = some t) : Moves s a t h b := by
  have hquiet (hnone : s.eventAt a b = none) (hpool : t.taskPool = s.taskPool)
      (hnext : t.nextTaskId = s.nextTaskId) : Moves s a t h b :=
    moves_of_same hnext (by rw [hpool]) hnone
  cases a with
  | addTask unit name constraints now =>
    obtain ⟨⟩ := hact
    exact moves_addTask unit name constraints now
  | removeTask taskId =>
    obtain ⟨⟩ := hact
    exact moves_removeTask hs taskId
  | removeAllTasks =>
    obtain ⟨⟩ := hact
    exact moves_removeAllTasks hs
  | updateTaskConstraints taskId constraints =>
    obtain ⟨⟩ := hact
    exact moves_updateTaskConstraints taskId constraints
  | loop step => exact moves_loop hact
  | customPick id =>
    simp only [act] at hact
    split at hact
    next left hpc =>
      obtain ⟨-, rfl⟩ := guarded hact
      exact hquiet (eventAt_eq_none fun _ => rfl) rfl rfl
    · cases hact
  | start spawned =>
    simp only [act] at hact
    split at hact
    · cases hact
    · obtain ⟨⟩ := hact
      unfold RealTimeScheduler.start
      split
      · exact moves_of_same rfl rfl (eventAt_eq_none fun _ => rfl)
      · split <;> exact moves_of_same rfl rfl (eventAt_eq_none fun _ => rfl)
  | join =>
    simp only [act] at hact
    split at hact
    · cases hact
    · obtain ⟨⟩ := hact
      exact hquiet (eventAt_eq_none fun _ => rfl) rfl rfl
  | _ =>
    obtain ⟨⟩ := hact
    exact hquiet (eventAt_eq_none fun _ => rfl) rfl rfl

/-! ## The claim and the table -/

/-- What an action does to the claim. -/
inductive ClaimMove (s : RealTimeScheduler) (a : TaskAction) (t : RealTimeScheduler) : Prop
  | same (hclaimed : t.claimed? = s.claimed?)
  | taken (id block : ℕ) (plan : CyclePlan) (ha : a = .loop .advance)
      (hpc : s.worker = .running (.picked id plan)) (hid : s.tasks.lookup id = some block)
      (hclaimed : t.claimed? = some block) (hrest : t.remaining? = plan.ids?) (hready : ∃ task,
        s.taskPool.blocks.lookup block = some task ∧ task.active = true ∧
          t.taskPool.blocks.lookup block = some { task with executing := true })
  | released (block : ℕ) (start stop now : TimePoint) (ha : a = .loop (.finalize start stop now))
      (hs : s.claimed? = some block) (ht : t.claimed? = none)

/-- What an action does to the table. -/
inductive TableMove (s : RealTimeScheduler) (t : RealTimeScheduler) : Prop
  | same (htasks : t.tasks = s.tasks)
  | inserted (id block : ℕ) (htasks : t.tasks = s.tasks.insert id block)
      (hfree : block ∉ s.taskPool.blocks) (hnew : ∃ task,
        t.taskPool.blocks.lookup block = some task ∧ task.pendingRemoval = false)
  | erased (id : ℕ) (htasks : t.tasks = s.tasks.erase id)
  | cleared (htasks : t.tasks = ∅)

theorem ClaimMove.of_worker (hworker : t.worker = s.worker) : ClaimMove s a t :=
  .same (by rw [claimed?, hworker, claimed?])

/-- The claim along a step of the loop. -/
theorem claimMove_of_loop {step : LoopStep} (hstep : s.loopStep step = some t) :
    ClaimMove s (.loop step) t := by
  cases loopMove_of_loopStep hstep with
  | exit hpc _ =>
    refine .same ?_
    rcases hpc with hpc | hpc
    · rw [claimed?, claimed?, hpc]
      rfl
    · rw [claimed?, claimed?, hpc]
      rfl
  | arm hpc _ _ => exact .same (by rw [claimed?, claimed?, hpc]; rfl)
  | wake hpc _ => exact .same (by rw [claimed?, claimed?, hpc]; rfl)
  | select now plan last hpc => exact .same (by rw [claimed?, claimed?, hpc]; rfl)
  | endCycle plan hpc => exact .same (by rw [claimed?, claimed?, hpc]; rfl)
  | pick id plan plan' hpc _ _ => exact .same (by rw [claimed?, claimed?, hpc]; rfl)
  | claim id plan hpc =>
    have hidle : s.claimed? = none := by
      rw [claimed?, hpc]
      rfl
    have hadvance : step = .advance := by
      cases step with
      | advance => rfl
      | _ => simp [loopStep, hpc] at hstep
    unfold RealTimeScheduler.claim
    split
    next block task hid htask =>
      split
      next hready =>
        rw [Bool.and_eq_true] at hready
        rw [task?, hid, Option.bind_some] at htask
        refine .taken id block plan (congrArg TaskAction.loop hadvance) hpc hid rfl rfl
          ⟨task, htask, hready.1, ?_⟩
        rw [update_blocks, AList.lookup_modify_self, htask]
        rfl
      · exact .same hidle.symm
    · exact .same hidle.symm
  | asyncDone block plan hpc => exact .same (by rw [claimed?, claimed?, hpc]; rfl)
  | bodyDone block success plan hpc =>
    refine .same ?_
    rcases hpc with hpc | hpc
    · rw [claimed?, claimed?, hpc]
      rfl
    · rw [claimed?, claimed?, hpc]
      rfl
  | finalize block plan result now hpc =>
    obtain ⟨start, stop, now', hfinalize⟩ : ∃ start stop now', step = .finalize start stop now' := by
      cases step with
      | finalize start stop now' => exact ⟨start, stop, now', rfl⟩
      | _ => simp [loopStep, hpc] at hstep
    have hs : s.claimed? = some block := by
      rw [claimed?, hpc]
      rfl
    refine .released block start stop now' (congrArg TaskAction.loop hfinalize) hs ?_
    unfold finalizeTaskExecution
    split
    · rfl
    · rw [claimed?, WorkerThread.pc?_running, Option.bind_some]
      split_ifs <;> rfl
  | report unit times plan hpc => exact .same (by rw [claimed?, claimed?, hpc]; rfl)

/-- **The claim along an action.** -/
theorem claimMove_of_act (hact : s.act a = some t) : ClaimMove s a t := by
  cases a with
  | addTask unit name constraints now =>
    obtain ⟨⟩ := hact
    refine .of_worker ?_
    unfold addTask
    dsimp only
    split <;> rfl
  | removeTask taskId =>
    obtain ⟨⟩ := hact
    exact .of_worker (s.removeTask_frame taskId).2.2.1
  | updateTaskConstraints taskId constraints =>
    obtain ⟨⟩ := hact
    refine .of_worker ?_
    unfold updateTaskConstraints
    split <;> rfl
  | loop step => exact claimMove_of_loop hact
  | customPick id => exact .same (steers_customPick hact).claimed
  | start spawned => exact .same (steers_start hact).claimed
  | join => exact .same (steers_join hact).claimed
  | _ =>
    obtain ⟨⟩ := hact
    exact .of_worker rfl

/-- No step of the loop changes the table. -/
theorem LoopMove.tasks (hmove : LoopMove s t) : t.tasks = s.tasks := by
  cases hmove with
  | claim id plan _ => exact (s.claim_frame id plan).1
  | finalize block plan result now _ =>
    exact (s.finalizeTaskExecution_frame block plan result now).1
  | _ => rfl

/-- **The table along an action.** -/
theorem tableMove_of_act (hact : s.act a = some t) : TableMove s t := by
  cases a with
  | addTask unit name constraints now =>
    obtain ⟨⟩ := hact
    unfold addTask
    dsimp only
    split
    · exact .same rfl
    next block pool halloc =>
      obtain ⟨hfree, hblocks, -⟩ := allocateObject_spec halloc
      have hnew : pool.blocks.lookup block = some
          { unit, constraints, name, taskId := s.nextTaskId.toNat
            nextExecution := now + constraints.period, lastExecution := now } := by
        rw [hblocks, AList.lookup_insert]
      exact .inserted _ block rfl hfree ⟨_, hnew, rfl⟩
  | removeTask taskId =>
    obtain ⟨⟩ := hact
    exact .erased taskId (s.removeTask_frame taskId).1
  | removeAllTasks =>
    obtain ⟨⟩ := hact
    exact .cleared rfl
  | updateTaskConstraints taskId constraints =>
    obtain ⟨⟩ := hact
    refine .same ?_
    unfold updateTaskConstraints
    split <;> rfl
  | loop step => exact .same (loopMove_of_loopStep hact).tasks
  | customPick id => exact .same (steers_customPick hact).tasks
  | start spawned => exact .same (steers_start hact).tasks
  | join => exact .same (steers_join hact).tasks
  | _ =>
    obtain ⟨⟩ := hact
    exact .same rfl

/-- A block that an id has after the action is new, or the id had it before. -/
theorem TableMove.before (hm : TableMove s t) {id : ℕ} (hid : t.tasks.lookup id = some b) :
    s.tasks.lookup id = some b ∨ t.tasks = s.tasks.insert id b ∧ b ∉ s.taskPool.blocks ∧
      ∃ task, t.taskPool.blocks.lookup b = some task ∧ task.pendingRemoval = false := by
  cases hm with
  | same htasks => exact .inl (htasks ▸ hid)
  | inserted id' block htasks hfree hnew =>
    rw [htasks] at hid
    rcases AList.lookup_insert_eq_some.mp hid with ⟨rfl, rfl⟩ | ⟨-, hold⟩
    · exact .inr ⟨htasks, hfree, hnew⟩
    · exact .inl hold
  | erased id' htasks =>
    rw [htasks, AList.lookup_erase_eq_some] at hid
    exact .inl hid.2
  | cleared htasks =>
    rw [htasks] at hid
    cases hid

theorem pendingRemoval_finalizeTask (task : SchedulerTask) (result : TaskExecutionResult)
    (now : TimePoint) : (finalizeTask task result now).1.pendingRemoval = task.pendingRemoval := by
  unfold finalizeTask
  split <;> rfl

/-- A task of the table stays where it is as long as it is there. -/
theorem BlockMove.stays_seated {x y : Option SchedulerTask} {l l' : List TaskEvent}
    (hm : BlockMove s a t b l x y l') {id : ℕ} (hid : t.tasks.lookup id = some b)
    {task : SchedulerTask} (hx : x = some task) (hp : task.pendingRemoval = false) :
    ∃ task', y = some task' ∧ task'.pendingRemoval = false := by
  cases hm with
  | stays _ => exact ⟨task, hx, hp⟩
  | added _ _ _ _ _ => cases hx
  | freed _ _ _ hleft => exact absurd hid (hleft id)
  | marked _ _ _ hleft => exact absurd hid (hleft id)
  | finalized _ success start stop now _ _ _ =>
    obtain ⟨⟩ := hx
    rw [hp, if_neg Bool.false_ne_true]
    exact ⟨_, rfl, (pendingRemoval_finalizeTask _ _ _).trans hp⟩
  | _ =>
    obtain ⟨⟩ := hx
    exact ⟨_, rfl, hp⟩

/-- A claimed task stays where it is, until it is released. -/
theorem BlockMove.stays_claimed {x y : Option SchedulerTask} {l l' : List TaskEvent}
    (hm : BlockMove s a t b l x y l') (hclaimed : t.claimed? ≠ none) {task : SchedulerTask}
    (hx : x = some task) (he : task.executing = true) :
    ∃ task', y = some task' ∧ task'.executing = true := by
  cases hm with
  | stays _ => exact ⟨task, hx, he⟩
  | added _ _ _ _ _ => cases hx
  | freed _ _ hidle _ =>
    obtain ⟨⟩ := hx
    exact absurd (hidle.symm.trans he) Bool.false_ne_true
  | claimed _ _ _ _ => exact ⟨_, rfl, rfl⟩
  | finalized _ _ _ _ _ _ _ hnone => exact absurd hnone hclaimed
  | _ =>
    obtain ⟨⟩ := hx
    exact ⟨_, rfl, he⟩

/-- The new scheduler. -/
theorem Seated.new (policy : SchedulingPolicy) : Seated (.new policy) where
  table id b hid := by cases hid
  single id id' b hid := by cases hid
  executing b task hb := by cases hb
  claimed b hb := by cases hb

/-- **Every action keeps the seats.** -/
theorem Seated.act (hs : Seated s) (hact : s.act a = some t) : Seated t := by
  have hmoves (b : ℕ) : Moves s a t ⟨0, 0, fun _ => []⟩ b := moves_act hs hact
  have htable := tableMove_of_act hact
  have hallocated {id b : ℕ} (hid : s.tasks.lookup id = some b) : b ∈ s.taskPool.blocks := by
    obtain ⟨task, htask, -⟩ := hs.table id b hid
    exact AList.mem_of_lookup htask
  refine ⟨fun id b hid => ?_, fun id id' b hid hid' => ?_, hs.executing.act hact, fun b hb => ?_⟩
  · rcases htable.before hid with hold | ⟨-, -, hnew⟩
    · obtain ⟨task, htask, hp⟩ := hs.table id b hold
      exact (hmoves b).stays_seated hid htask hp
    · exact hnew
  · rcases htable.before hid with hold | ⟨htasks, hfree, -⟩
    · rcases htable.before hid' with hold' | ⟨-, hfree, -⟩
      · exact hs.single id id' b hold hold'
      · exact absurd (hallocated hold) hfree
    · rw [htasks] at hid'
      rcases AList.lookup_insert_eq_some.mp hid' with ⟨rfl, -⟩ | ⟨-, hold⟩
      · rfl
      · exact absurd (hallocated hold) hfree
  · cases claimMove_of_act hact with
    | same hclaimed =>
      obtain ⟨task, htask, he⟩ := hs.claimed b (hclaimed ▸ hb)
      exact (hmoves b).stays_claimed (by rw [hb]; exact Option.some_ne_none b) htask he
    | taken id block plan _ _ _ hclaimed _ hready =>
      obtain rfl := Option.some.inj (hclaimed.symm.trans hb)
      obtain ⟨task, -, -, htask⟩ := hready
      exact ⟨_, htask, rfl⟩
    | released _ _ _ _ _ _ hnone => cases hnone.symm.trans hb

end RealTimeScheduler

end AxonVex
