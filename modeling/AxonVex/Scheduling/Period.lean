import AxonVex.Scheduling.TaskHistory

/-!
# Scheduling/Period — no execution before the period of a success is over

    success, started at s ──▸ nextExecution = s + period ──▸ selected at now ≥ s + period ──▸ claimed

A success moves the slot of its task a period past its own start, and a task is selected only when
its slot has come; a failure leaves the slot.  Between the selection and the turn the task waits among
the ids of the cycle, each of which has one turn, and an id that is given to another task meanwhile
leads to a task that has not been executed.  So, as long as the constraints are left alone and the
clock is steady, every later execution of a task starts at the earliest a period after each success
(`periodKept`), whatever the other threads do.
-/

namespace AxonVex

open Machinery

namespace LoopPc

/-- What is left of the cycle. -/
def plan? : LoopPc → Option CyclePlan
  | top => none
  | armed => none
  | selecting => none
  | cycle plan => some plan
  | picked _ plan => some plan
  | processAsync _ plan => some plan
  | processSync _ plan => some plan
  | finalizing _ _ plan => some plan
  | reporting _ _ plan => some plan

end LoopPc

namespace TaskEvent

/-- When the execution started. -/
def started : TaskEvent → Option TimePoint
  | executed _ result _ => some result.executionStart
  | lifted _ => none

/-- A period after the start of a success. -/
def nextSlot : TaskEvent → Option TimePoint
  | executed task result _ =>
    if result.success then some (result.executionStart + task.constraints.period) else none
  | lifted _ => none

end TaskEvent

/-- **The period is kept** by the executions of a task, newest first. -/
def PeriodKept (events : List TaskEvent) : Prop :=
  events.Pairwise fun later earlier => ∀ start ∈ later.started, ∀ slot ∈ earlier.nextSlot, slot ≤ start

/-- The slots after the successes. -/
def slots (events : List TaskEvent) : List TimePoint := events.filterMap TaskEvent.nextSlot

namespace HistoryRun

open RealTimeScheduler

/-- **The clock is steady, and the constraints are left alone.** -/
def Undisturbed (p : HistoryRun) (a : TaskAction) : Prop :=
  SteadyClock p a ∧ ∀ id constraints, a ≠ .updateTaskConstraints id constraints

variable {s t : RealTimeScheduler} {h : TaskHistory} {a : TaskAction} {b : ℕ}
  {clock clock' : TimePoint} {l l' : List TaskEvent} {task : SchedulerTask} {u : TimePoint}
  {x y : Option SchedulerTask}

/-! ## One block -/

theorem slots_cons (e : TaskEvent) : slots (e :: l) = e.nextSlot.toList ++ slots l := by
  rw [slots, List.filterMap_cons, slots]
  cases e.nextSlot <;> rfl

theorem mem_slots : u ∈ slots l ↔ ∃ e ∈ l, e.nextSlot = some u := List.mem_filterMap

/-- **The slots of a task**: behind its next one, and not further ahead than a period. -/
structure Slotted (clock : TimePoint) (l : List TaskEvent) (task : SchedulerTask) : Prop where
  next : ∀ u ∈ slots l, u ≤ task.nextExecution
  ahead : ∀ u ∈ slots l, u ≤ clock + task.constraints.period

/-- **Each move of a block keeps it**; the loop has claimed a task only when its slots had come. -/
theorem Slotted.move (hm : BlockMove s a t b l x y l') (hS : ∀ task ∈ x, Slotted clock l task)
    (hclock : clock ≤ clock') (hupdate : ∀ id constraints, a ≠ .updateTaskConstraints id constraints)
    (hturn : ∀ start stop now, a = .loop (.finalize start stop now) → s.claimed? = some b →
      start ≤ clock' ∧ ∀ task ∈ x, ∀ u ∈ slots l, u ≤ start + task.constraints.period) :
    ∀ task ∈ y, Slotted clock' l' task := by
  have hlater {task : SchedulerTask} (hold : Slotted clock l task) : Slotted clock' l task :=
    ⟨hold.next, fun u hu => (hold.ahead u hu).trans (Int.add_le_add_right hclock _)⟩
  intro task' hy
  cases hm with
  | stays _ => exact hlater (hS task' hy)
  | added _ _ _ _ _ => exact ⟨fun u hu => absurd hu List.not_mem_nil, fun u hu => absurd hu List.not_mem_nil⟩
  | freed _ _ _ _ => cases hy
  | marked task _ _ _ =>
    obtain ⟨⟩ := hy
    have hbefore := hlater (hS task rfl)
    exact ⟨hbefore.next, hbefore.ahead⟩
  | updated _ id constraints ha => exact absurd ha (hupdate id constraints)
  | lifted task _ _ _ _ =>
    obtain ⟨⟩ := hy
    have hbefore := hlater (hS task rfl)
    exact ⟨hbefore.next, hbefore.ahead⟩
  | claimed task _ _ _ =>
    obtain ⟨⟩ := hy
    have hbefore := hlater (hS task rfl)
    exact ⟨hbefore.next, hbefore.ahead⟩
  | finalized task success start stop now ha hs _ =>
    obtain ⟨hstart, hbehind⟩ := hturn start stop now ha hs
    have hbefore := hS task rfl
    obtain ⟨-, rfl⟩ : task.pendingRemoval = false ∧
        (finalizeTask task ⟨success, start, stop⟩ now).1 = task' := by
      cases hp : task.pendingRemoval with
      | true =>
        rw [hp, if_pos rfl] at hy
        cases hy
      | false =>
        rw [hp, if_neg Bool.false_ne_true] at hy
        exact ⟨rfl, Option.some.inj hy⟩
    cases success with
    | true =>
      -- the new slot is the last of all
      have hall (u : TimePoint) (hu : u ∈ slots (.executed task ⟨true, start, stop⟩ now :: l)) :
          u ≤ start + task.constraints.period := by
        rw [slots_cons] at hu
        rcases List.mem_append.mp hu with hnew | hold
        · have hslot : some (start + task.constraints.period) = some u := Option.mem_toList.mp hnew
          exact (Option.some.inj hslot).ge
        · exact hbehind task rfl u hold
      exact ⟨hall, fun u hu => (hall u hu).trans (Int.add_le_add_right hstart _)⟩
    | false =>
      have hsame : slots (.executed task ⟨false, start, stop⟩ now :: l) = slots l := slots_cons _
      have hafter := hlater hbefore
      exact ⟨fun u hu => hafter.next u (hsame ▸ hu), fun u hu => hafter.ahead u (hsame ▸ hu)⟩

/-! ## The turns to come -/

/-- A ready set is left, whatever else the loop does. -/
def Planned (s : RealTimeScheduler) : Prop :=
  ∀ plan, s.worker.pc?.bind LoopPc.plan? = some plan → ∃ ids, plan = .ready ids

/-- **The tasks whose turns are to come**: each has one, its slots have come, and it is not the one
that is claimed. -/
structure TurnsDue (s : RealTimeScheduler) (h : TaskHistory) : Prop where
  once : ∀ rest, s.remaining? = some rest → rest.Nodup
  due : ∀ rest, s.remaining? = some rest → ∀ id ∈ rest, ∀ b, s.tasks.lookup id = some b →
    ∀ u ∈ slots (h.events b), u ≤ h.clock
  unclaimed : ∀ rest, s.remaining? = some rest → ∀ id ∈ rest, ∀ b, s.tasks.lookup id = some b →
    s.claimed? ≠ some b

/-- What an action does to the turns to come. -/
inductive TurnMove (s : RealTimeScheduler) (a : TaskAction) (t : RealTimeScheduler) : Prop
  | keeps (hrest : ∀ rest, t.remaining? = some rest → s.remaining? = some rest)
  | begun (now : TimePoint) (order : List ℕ) (ha : a = .loop (.select now order))
      (horder : (s.reactivateAll now).mayOrder now order = true)
      (hpool : t.taskPool = (s.reactivateAll now).taskPool) (htasks : t.tasks = s.tasks)
      (hclaimed : t.claimed? = none) (hrest : t.remaining? = some order)
  | turn (id : ℕ) (ids : List ℕ) (hpc : s.worker.pc? = some (.picked id (.ready ids)))
      (hrest : t.remaining? = some ids)

theorem TurnMove.of_worker (hworker : t.worker = s.worker) : TurnMove s a t :=
  .keeps fun rest hrest => by rwa [remaining?, hworker] at hrest

theorem turnMove_of_act (hact : s.act a = some t) : TurnMove s a t := by
  cases a with
  | addTask unit name constraints now =>
    obtain ⟨⟩ := hact
    refine .of_worker ?_
    unfold addTask
    dsimp only
    split <;> rfl
  | removeTask taskId =>
    obtain ⟨⟩ := hact
    exact .of_worker (s.removeTask_frame taskId).2.2.1
  | updateTaskConstraints taskId constraints =>
    obtain ⟨⟩ := hact
    refine .of_worker ?_
    unfold updateTaskConstraints
    split <;> rfl
  | loop step =>
    have hmove := cycleMove_of_loopStep (h := {}) hact
    generalize CycleRecord.recordLoop {} s step t = h' at hmove
    cases hmove with
    | begin now order last hpc horder => exact .begun now order rfl horder rfl rfl rfl rfl
    | next id ids hpc _ => exact .keeps fun rest hrest => by rw [remaining?, hpc]; exact hrest
    | leave ids hpc _ => exact .keeps fun rest hrest => by cases hrest
    | turn id ids hpc => exact .turn id ids hpc (s.claim_frame id (.ready ids)).2.1
    | other _ _ _ hrest _ _ => exact .keeps hrest
  | customPick id => exact .keeps (steers_customPick hact).remaining
  | start spawned => exact .keeps (steers_start hact).remaining
  | join => exact .keeps (steers_join hact).remaining
  | _ =>
    obtain ⟨⟩ := hact
    exact .of_worker rfl

/-- The policy is that of the constructor. -/
theorem policy_of_act (hact : s.act a = some t) : t.policy = s.policy := by
  cases a with
  | addTask unit name constraints now =>
    obtain ⟨⟩ := hact
    unfold addTask
    dsimp only
    split <;> rfl
  | removeTask taskId =>
    obtain ⟨⟩ := hact
    unfold removeTask
    split
    · rfl
    · split
      · rfl
      · split <;> rfl
  | updateTaskConstraints taskId constraints =>
    obtain ⟨⟩ := hact
    unfold updateTaskConstraints
    split <;> rfl
  | loop step => exact (loopMove_of_loopStep hact).policy
  | customPick id => exact (steers_customPick hact).policy
  | start spawned => exact (steers_start hact).policy
  | join => exact (steers_join hact).policy
  | _ =>
    obtain ⟨⟩ := hact
    rfl

theorem Planned.of_worker (hP : Planned s) (hworker : t.worker = s.worker) : Planned t := by
  rwa [Planned, hworker]

theorem Planned.of_none (hnone : t.worker.pc?.bind LoopPc.plan? = none) : Planned t := by
  intro plan hplan
  cases hnone.symm.trans hplan

theorem Planned.of_plan {plan : CyclePlan} (hplan : t.worker.pc?.bind LoopPc.plan? = some plan)
    (hready : ∃ ids, plan = .ready ids) : Planned t := by
  intro plan' hplan'
  obtain rfl := Option.some.inj (hplan.symm.trans hplan')
  exact hready

theorem plan_claim (s : RealTimeScheduler) (id : ℕ) (plan : CyclePlan) :
    (s.claim id plan).worker.pc?.bind LoopPc.plan? = some plan := by
  unfold RealTimeScheduler.claim
  split
  · split <;> rfl
  · rfl

theorem plan_finalizeTaskExecution (s : RealTimeScheduler) (block : ℕ) (plan : CyclePlan)
    (result : TaskExecutionResult) (now : TimePoint) :
    (s.finalizeTaskExecution block plan result now).worker.pc?.bind LoopPc.plan? = some plan := by
  unfold finalizeTaskExecution
  split
  · rfl
  · dsimp only
    split <;> rfl

/-- **A step of the loop**, under a policy that selects a ready set. -/
theorem Planned.loop (hP : Planned s) (hpolicy : s.policy ≠ .custom) {step : LoopStep}
    (hstep : s.loopStep step = some t) : Planned t := by
  have hready {pc : LoopPc} {plan : CyclePlan} (hpc : s.worker = .running pc)
      (hplan : pc.plan? = some plan) : ∃ ids, plan = .ready ids := by
    refine hP plan ?_
    rw [hpc, WorkerThread.pc?_running, Option.bind_some, hplan]
  have hmove := cycleMove_of_loopStep (h := {}) hstep
  generalize CycleRecord.recordLoop {} s step t = h' at hmove
  cases hmove with
  | begin now order last _ _ => exact .of_plan rfl ⟨order, rfl⟩
  | next id ids _ _ => exact .of_plan rfl ⟨ids, rfl⟩
  | leave _ _ _ => exact .of_none rfl
  | turn id ids _ => exact .of_plan (plan_claim s id (.ready ids)) ⟨ids, rfl⟩
  | other _ _ _ _ hcycle hpicked =>
    cases loopMove_of_loopStep hstep with
    | select now plan last hpc =>
      cases step with
      | select now' order =>
        obtain ⟨-, last', heq⟩ := exists_of_select hstep
        rw [← heq]
        exact .of_plan rfl ⟨order, rfl⟩
      | beginCustom now' => exact absurd (exists_of_beginCustom hstep).1 hpolicy
      | _ => simp [loopStep, hpc] at hstep
    | pick _ _ _ hpc _ _ =>
      obtain ⟨ids, rfl⟩ := hready hpc rfl
      exact absurd (by rw [hpc]; rfl) (hcycle ids)
    | claim id _ hpc =>
      obtain ⟨ids, rfl⟩ := hready hpc rfl
      exact absurd (by rw [hpc]; rfl) (hpicked id ids)
    | asyncDone _ _ hpc => exact .of_plan rfl (hready hpc rfl)
    | bodyDone _ _ _ hpc => exact .of_plan rfl (hpc.elim (fun h => hready h rfl) fun h => hready h rfl)
    | finalize block plan result now hpc =>
      exact .of_plan (plan_finalizeTaskExecution s block plan result now) (hready hpc rfl)
    | report _ _ _ hpc => exact .of_plan rfl (hready hpc rfl)
    | _ => exact .of_none rfl

/-- **Every action.** -/
theorem Planned.act (hP : Planned s) (hpolicy : s.policy ≠ .custom) (hact : s.act a = some t) :
    Planned t := by
  cases a with
  | addTask unit name constraints now =>
    obtain ⟨⟩ := hact
    refine hP.of_worker ?_
    unfold addTask
    dsimp only
    split <;> rfl
  | removeTask taskId =>
    obtain ⟨⟩ := hact
    exact hP.of_worker (s.removeTask_frame taskId).2.2.1
  | updateTaskConstraints taskId constraints =>
    obtain ⟨⟩ := hact
    refine hP.of_worker ?_
    unfold updateTaskConstraints
    split <;> rfl
  | loop step => exact hP.loop hpolicy hact
  | customPick id =>
    simp only [RealTimeScheduler.act] at hact
    split at hact
    next left hpc =>
      obtain ⟨ids, hids⟩ := hP (.custom (left + 1)) (by rw [hpc]; rfl)
      cases hids
    · cases hact
  | start spawned =>
    simp only [RealTimeScheduler.act] at hact
    split at hact
    · cases hact
    · obtain ⟨⟩ := hact
      unfold RealTimeScheduler.start
      split
      · exact hP.of_worker rfl
      · split
        · exact .of_none rfl
        · exact .of_none rfl
  | join =>
    simp only [RealTimeScheduler.act] at hact
    split at hact
    · cases hact
    · obtain ⟨⟩ := hact
      exact .of_none rfl
  | _ =>
    obtain ⟨⟩ := hact
    exact hP.of_worker rfl

/-! ## The invariant -/

/-- **What every such run keeps.** -/
structure PeriodInv (s : RealTimeScheduler) (h : TaskHistory) : Prop where
  seated : Seated s
  planned : Planned s
  turns : TurnsDue s h
  slotted : ∀ b, ∀ task ∈ s.taskPool.blocks.lookup b, Slotted h.clock (h.events b) task
  /-- the slots of the claimed task had come when it was claimed -/
  claimed : ∀ b, s.claimed? = some b → ∀ task ∈ s.taskPool.blocks.lookup b,
    ∀ u ∈ slots (h.events b), u ≤ h.claimedAt ∧ u ≤ h.claimedAt + task.constraints.period
  kept : ∀ b, PeriodKept (h.events b)

theorem PeriodInv.new (policy : SchedulingPolicy) (epoch : TimePoint) :
    PeriodInv (.new policy) ⟨epoch, epoch, fun _ => []⟩ where
  seated := .new policy
  planned := .of_none rfl
  turns := by
    refine ⟨fun _ hrest => ?_, fun _ hrest => ?_, fun _ hrest => ?_⟩
    all_goals cases hrest
  slotted b task hb := by cases hb
  claimed b hb := by cases hb
  kept b := List.Pairwise.nil

/-- Only the end of an execution adds a slot. -/
theorem slots_move (hm : BlockMove s a t b l x y l')
    (hnot : s.claimed? ≠ some b ∨ t.claimed? ≠ none) : ∀ u ∈ slots l', u ∈ slots l := by
  intro u hu
  cases hm with
  | added _ _ _ _ _ => exact absurd hu List.not_mem_nil
  | lifted _ _ _ _ _ => exact hu
  | finalized _ _ _ _ _ _ hs ht =>
    rcases hnot with hnot | hnot
    · exact absurd hs hnot
    · exact absurd ht hnot
  | _ => exact hu

/-- A task that goes on has its constraints. -/
theorem constraints_move (hm : BlockMove s a t b l x y l')
    (hupdate : ∀ id constraints, a ≠ .updateTaskConstraints id constraints) {task' : SchedulerTask}
    (hy : task' ∈ y) : l' = [] ∨ ∃ task ∈ x, task.constraints = task'.constraints := by
  cases hm with
  | stays _ => exact .inr ⟨task', hy, rfl⟩
  | added _ _ _ _ _ => exact .inl rfl
  | freed _ _ _ _ => cases hy
  | updated _ id constraints ha => exact absurd ha (hupdate id constraints)
  | finalized task success start stop now _ _ _ =>
    refine .inr ⟨task, rfl, ?_⟩
    split_ifs at hy
    · cases hy
    · obtain ⟨⟩ := hy
      unfold finalizeTask
      split <;> rfl
  | _ =>
    obtain ⟨⟩ := hy
    exact .inr ⟨_, rfl, rfl⟩

/-- A block that was free has no history. -/
theorem events_of_new (hm : BlockMove s a t b l x y l') (hx : x = none) (hy : y ≠ none) : l' = [] := by
  cases hm with
  | stays _ => exact absurd hx hy
  | added _ _ _ _ _ => rfl
  | _ => cases hx

theorem PeriodInv.slotted_step (hI : PeriodInv s h) (hact : s.act a = some t)
    (hG : Undisturbed (s, h) a) (b : ℕ) : ∀ task ∈ t.taskPool.blocks.lookup b,
      Slotted (s.recordHistory a t h).clock ((s.recordHistory a t h).events b) task := by
  refine Slotted.move (moves_act hI.seated hact) (hI.slotted b) (clock_le hG.1) hG.2 ?_
  intro start stop now ha hclaimed
  obtain ⟨hfirst, hstart, hstop⟩ := hG.1.2 start stop now ha
  subst ha
  refine ⟨hstart.trans hstop, fun task htask u hu => ?_⟩
  exact (hI.claimed b hclaimed task htask u hu).2.trans (Int.add_le_add_right hfirst _)

theorem PeriodInv.claimed_step (hI : PeriodInv s h) (hact : s.act a = some t)
    (hG : Undisturbed (s, h) a) (b : ℕ) (hb : t.claimed? = some b) :
    ∀ task ∈ t.taskPool.blocks.lookup b, ∀ u ∈ slots ((s.recordHistory a t h).events b),
      u ≤ (s.recordHistory a t h).claimedAt ∧
        u ≤ (s.recordHistory a t h).claimedAt + task.constraints.period := by
  intro task' htask' u hu
  have hm : Moves s a t h b := moves_act hI.seated hact
  have hsome : t.claimed? ≠ none := by
    rw [hb]
    exact Option.some_ne_none b
  have hold := slots_move hm (.inr hsome) u hu
  obtain ⟨task, htask, hsame⟩ : ∃ task ∈ s.taskPool.blocks.lookup b,
      task.constraints = task'.constraints := by
    rcases constraints_move hm hG.2 htask' with hnil | hold
    · rw [hnil] at hu
      exact absurd hu List.not_mem_nil
    · exact hold
  rw [← hsame]
  cases claimMove_of_act hact with
  | same hclaimed =>
    have hs : s.claimed? = some b := hclaimed ▸ hb
    have hat : (s.recordHistory a t h).claimedAt = h.claimedAt :=
      if_neg fun hnew => Option.some_ne_none b (hs.symm.trans hnew.1)
    rw [hat]
    exact hI.claimed b hs task htask u hold
  | taken id block plan _ hpc hid hclaimed _ _ =>
    obtain rfl := Option.some.inj (hclaimed.symm.trans hb)
    have hidle : s.claimed? = none := by
      rw [claimed?, hpc]
      rfl
    have hat : (s.recordHistory a t h).claimedAt = h.clock := if_pos ⟨hidle, hsome⟩
    obtain ⟨ids, rfl⟩ := hI.planned plan (by rw [hpc]; rfl)
    have hrest : s.remaining? = some (id :: ids) := by
      rw [remaining?, hpc]
      rfl
    rw [hat]
    exact ⟨hI.turns.due _ hrest id (List.mem_cons_self ..) block hid u hold,
      (hI.slotted block task htask).ahead u hold⟩
  | released _ _ _ _ _ _ hnone => exact absurd hnone hsome

/-- **The end of an execution is a period after every success.** -/
theorem PeriodInv.kept_step (hI : PeriodInv s h) (hact : s.act a = some t)
    (hG : Undisturbed (s, h) a) (b : ℕ) : PeriodKept ((s.recordHistory a t h).events b) := by
  have hm : Moves s a t h b := moves_act hI.seated hact
  have hclaimed := hI.claimed b
  rw [Moves] at hm
  generalize s.taskPool.blocks.lookup b = x at hm hclaimed
  generalize t.taskPool.blocks.lookup b = y at hm
  generalize (s.recordHistory a t h).events b = l' at hm
  cases hm with
  | added _ _ _ _ _ => exact List.Pairwise.nil
  | lifted _ _ _ _ _ =>
    refine List.pairwise_cons.mpr ⟨fun _ _ _ hstart => ?_, hI.kept b⟩
    cases hstart
  | finalized task success start stop now ha hs _ =>
    refine List.pairwise_cons.mpr ⟨fun e he start' hstart' slot hslot => ?_, hI.kept b⟩
    obtain ⟨⟩ := hstart'
    have hslots : slot ∈ slots (h.events b) := mem_slots.mpr ⟨e, he, hslot⟩
    exact (hclaimed hs task rfl slot hslots).1.trans (hG.1.2 start stop now ha).1
  | _ => exact hI.kept b

/-- The tasks of a new cycle are due. -/
theorem due_of_mayOrder {now : TimePoint} {order : List ℕ} {id : ℕ}
    (horder : (s.reactivateAll now).mayOrder now order = true) (hid : id ∈ order)
    (hb : s.tasks.lookup id = some b) : ∃ task,
      (s.reactivateAll now).taskPool.blocks.lookup b = some task ∧ task.nextExecution ≤ now := by
  rw [mayOrder, Bool.and_eq_true, Bool.and_eq_true, decide_eq_true_eq] at horder
  obtain ⟨-, hready⟩ := List.mem_filter.mp (horder.1.1.mem_iff.mp hid)
  obtain ⟨task, htask, hready⟩ := (Option.any_eq_true _ _).mp hready
  have htable : (s.reactivateAll now).tasks.lookup id = some b := hb
  rw [task?, htable, Option.bind_some] at htask
  rw [isReady, Bool.and_eq_true, decide_eq_true_eq] at hready
  exact ⟨task, htask, hready.2⟩

/-- A block that a block of the table was before the action, or one without a history. -/
theorem PeriodInv.table_before (hI : PeriodInv s h) (hact : s.act a = some t) {id : ℕ}
    (hid : t.tasks.lookup id = some b) :
    s.tasks.lookup id = some b ∨ b ∉ s.taskPool.blocks ∧ (s.recordHistory a t h).events b = [] := by
  rcases (tableMove_of_act hact).before hid with hold | ⟨-, hfree, task, htask, -⟩
  · exact .inl hold
  · have hm : Moves s a t h b := moves_act hI.seated hact
    refine .inr ⟨hfree, events_of_new hm (AList.lookup_eq_none.mpr hfree) ?_⟩
    rw [htask]
    exact Option.some_ne_none task

theorem PeriodInv.turns_step (hI : PeriodInv s h) (hact : s.act a = some t)
    (hG : Undisturbed (s, h) a) : TurnsDue t (s.recordHistory a t h) := by
  have hclock : h.clock ≤ (s.recordHistory a t h).clock := clock_le hG.1
  -- a task whose turn was to come before the action
  have hold {rest : List ℕ} {id b : ℕ} (hrest : s.remaining? = some rest) (hmem : id ∈ rest)
      (hid : t.tasks.lookup id = some b) :
      ∀ u ∈ slots ((s.recordHistory a t h).events b), u ≤ (s.recordHistory a t h).clock := by
    intro u hu
    rcases hI.table_before hact hid with hbefore | ⟨-, hnil⟩
    · have hkept := slots_move (moves_act hI.seated hact) (.inl (hI.turns.unclaimed rest hrest id hmem b hbefore)) u hu
      exact (hI.turns.due rest hrest id hmem b hbefore u hkept).trans hclock
    · rw [hnil] at hu
      exact absurd hu List.not_mem_nil
  have hidle {rest : List ℕ} {id b : ℕ} (hrest : s.remaining? = some rest) (hmem : id ∈ rest)
      (hid : t.tasks.lookup id = some b) : s.claimed? ≠ some b := by
    intro hclaimed
    rcases hI.table_before hact hid with hbefore | ⟨hfree, -⟩
    · exact hI.turns.unclaimed rest hrest id hmem b hbefore hclaimed
    · obtain ⟨task, htask, -⟩ := hI.seated.claimed b hclaimed
      exact hfree (AList.mem_of_lookup htask)
  have hturn := turnMove_of_act hact
  refine ⟨fun rest hrest => ?_, fun rest hrest id hmem b hid => ?_, fun rest hrest id hmem b hid => ?_⟩
  · cases hturn with
    | keeps hsame => exact hI.turns.once rest (hsame rest hrest)
    | begun now order _ horder _ _ _ hnew =>
      obtain rfl := Option.some.inj (hnew.symm.trans hrest)
      rw [mayOrder, Bool.and_eq_true, Bool.and_eq_true, decide_eq_true_eq] at horder
      exact horder.1.1.nodup_iff.mpr ((s.reactivateAll now).tasks.keys_nodup.filter _)
    | turn id ids hpc hnew =>
      obtain rfl := Option.some.inj (hnew.symm.trans hrest)
      have hs : s.remaining? = some (id :: ids) := by
        rw [remaining?, hpc]
        rfl
      exact (List.nodup_cons.mp (hI.turns.once _ hs)).2
  · cases hturn with
    | keeps hsame => exact hold (hsame rest hrest) hmem hid
    | begun now order ha horder hpool htasks _ hnew =>
      obtain rfl := Option.some.inj (hnew.symm.trans hrest)
      intro u hu
      rw [htasks] at hid
      obtain ⟨task, htask, hdue⟩ := due_of_mayOrder horder hmem hid
      rw [← hpool] at htask
      subst ha
      exact ((hI.slotted_step hact hG b task htask).next u hu).trans hdue
    | turn id' ids hpc hnew =>
      obtain rfl := Option.some.inj (hnew.symm.trans hrest)
      have hs : s.remaining? = some (id' :: ids) := by
        rw [remaining?, hpc]
        rfl
      exact hold hs (List.mem_cons_of_mem _ hmem) hid
  · intro hb
    cases claimMove_of_act hact with
    | same hclaimed =>
      rw [hclaimed] at hb
      cases hturn with
      | keeps hsame => exact hidle (hsame rest hrest) hmem hid hb
      | begun _ _ _ _ _ _ hnone _ => cases hnone.symm.trans (hclaimed.trans hb)
      | turn id' ids hpc hnew =>
        rw [claimed?, hpc] at hb
        cases hb
    | taken id' block plan ha hpc hid' hclaimed hnew _ =>
      obtain rfl := Option.some.inj (hclaimed.symm.trans hb)
      obtain ⟨ids, rfl⟩ := hI.planned plan (by rw [hpc]; rfl)
      obtain rfl := Option.some.inj (hnew.symm.trans hrest)
      have hs : s.remaining? = some (id' :: ids) := by
        rw [remaining?, hpc]
        rfl
      have htasks : t.tasks = s.tasks := by
        subst ha
        exact (loopMove_of_loopStep hact).tasks
      rw [htasks] at hid
      obtain rfl := hI.seated.single id id' block hid hid'
      exact (List.nodup_cons.mp (hI.turns.once _ hs)).1 hmem
    | released _ _ _ _ _ _ hnone => cases hnone.symm.trans hb

theorem PeriodInv.step (hI : PeriodInv s h) (hpolicy : s.policy ≠ .custom) (hact : s.act a = some t)
    (hG : Undisturbed (s, h) a) : PeriodInv t (s.recordHistory a t h) where
  seated := hI.seated.act hact
  planned := hI.planned.act hpolicy hact
  turns := hI.turns_step hact hG
  slotted := hI.slotted_step hact hG
  claimed := hI.claimed_step hact hG
  kept := hI.kept_step hact hG

/-- **No execution of a task starts before the period of a success is over**: none that has ended,
and none that is under way. -/
theorem periodKept {epoch : TimePoint} {p : HistoryRun}
    (hr : (machine epoch).ReachableUnder Undisturbed p) (hpolicy : p.1.policy ≠ .custom) :
    (∀ b, PeriodKept (p.2.events b)) ∧
      ∀ b, p.1.claimed? = some b → ∀ u ∈ slots (p.2.events b), u ≤ p.2.claimedAt := by
  have hI : p.1.policy ≠ .custom → PeriodInv p.1 p.2 := by
    refine Machine.ReachableUnder.invariant
      (I := fun p : HistoryRun => p.1.policy ≠ .custom → PeriodInv p.1 p.2)
      ⟨fun p hp _ => ?_, fun p a q hI hG hstep hpolicy => ?_⟩ hr
    · obtain ⟨⟨policy, hs⟩, hh⟩ := hp
      rw [hs, hh]
      exact .new policy epoch
    · obtain ⟨hact, hrec⟩ := Machine.withHistory_step.mp hstep
      rw [policy_of_act hact] at hpolicy
      exact hrec ▸ (hI hpolicy).step hpolicy hact hG
  have hinv := hI hpolicy
  refine ⟨hinv.kept, fun b hb u hu => ?_⟩
  obtain ⟨task, htask, -⟩ := hinv.seated.claimed b hb
  exact (hinv.claimed b hb task htask u hu).1

/-- A cycle at the time, in which the task with the id 1 succeeds. -/
def successfulCycle (now : TimePoint) : List TaskAction :=
  [.loop .advance, .loop .advance, .loop (.select now [1]), .loop .advance, .loop .advance,
    .loop .bodyReturns, .loop .bodyReturns, .loop (.finalize now now now), .loop .advance]

/-- A task of period 5, executed at 10 and at 15. -/
def twoSuccesses : List TaskAction :=
  [.addTask 7 "camera" { period := 5 } 0, .start true] ++ successfulCycle 10 ++ successfulCycle 15

/-- Whether the action leaves the constraints. -/
def leavesConstraints : TaskAction → Bool
  | .updateTaskConstraints _ _ => false
  | _ => true

/-- A run with two successes to which the result applies. -/
theorem periodKept_twoSuccesses : ∃ p, (machine 0).ReachableUnder Undisturbed p ∧
    p.1.policy ≠ .custom ∧ slots (p.2.events 0) = [20, 15] ∧ (∀ b, PeriodKept (p.2.events b)) ∧
      ∀ b, p.1.claimed? = some b → ∀ u ∈ slots (p.2.events b), u ≤ p.2.claimedAt := by
  have hchecks : (machine 0).checks (fun p a => isSteady p a && leavesConstraints a)
      (.new .rateMonotonic, ⟨0, 0, fun _ => []⟩) twoSuccesses = true := by decide +kernel
  have hrun : ((machine 0).exec (.new .rateMonotonic, ⟨0, 0, fun _ => []⟩) twoSuccesses).any
      (fun p => decide (p.1.policy ≠ .custom) && decide (slots (p.2.events 0) = [20, 15])) =
        true := by decide +kernel
  obtain ⟨p, hp, hend⟩ := (Option.any_eq_true _ _).mp hrun
  rw [Bool.and_eq_true, decide_eq_true_eq, decide_eq_true_eq] at hend
  have hinit : (machine 0).init (.new .rateMonotonic, ⟨0, 0, fun _ => []⟩) := ⟨⟨_, rfl⟩, rfl⟩
  have hallowed := Machine.allowed_of_checks (G := Undisturbed) (fun p a hg => ?_) hchecks
  · have hr := (Machine.ReachableUnder.init hinit).exec hallowed hp
    exact ⟨p, hr, hend.1, hend.2, periodKept hr hend.1⟩
  · obtain ⟨hsteady, hleaves⟩ := Bool.and_eq_true_iff.mp hg
    refine ⟨steadyClock_of_isSteady hsteady, ?_⟩
    rintro id constraints rfl
    cases hleaves

end HistoryRun

end AxonVex
