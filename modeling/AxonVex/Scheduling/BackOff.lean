import AxonVex.Scheduling.TaskHistory

/-!
# Scheduling/BackOff — ten failures in a row, and 100 ms

    active ──10th failure, at end──▸ inactive ──pass at now ≥ end + 100 ms──▸ active, count 0

Three places take part: the bookkeeping deactivates, the pass before a cycle lifts the back-off, and
the claim refuses what is inactive.  Over any run with a steady clock a task of the table is inactive
exactly while its last ten executions are failures that no lift came after, is not executed before its
back-off is over, and is alone concerned (`backedOff`).
-/

namespace AxonVex

open Machinery

namespace TaskEvent

/-- An execution that failed. -/
def failed : TaskEvent → Bool
  | executed _ result _ => !result.success
  | lifted _ => false

/-- When the execution began, or the back-off was lifted. -/
def begins : TaskEvent → TimePoint
  | executed _ result _ => result.executionStart
  | lifted now => now

/-- The end of the back-off that follows if the event deactivates the task. -/
def backOff : TaskEvent → TimePoint
  | executed _ result _ => result.executionEnd + RealTimeScheduler.failureBackoffTime
  | lifted now => now

end TaskEvent

/-- **The failures in a row**, up to now: no success and no lift among them. -/
def failuresInARow (events : List TaskEvent) : ℕ := (events.takeWhile TaskEvent.failed).length

/-- The ends of the back-offs: each failure that is at least the tenth in a row begins one. -/
def backOffs : List TaskEvent → List TimePoint
  | [] => []
  | e :: events =>
    if RealTimeScheduler.maxConsecutiveFailures ≤ failuresInARow (e :: events) then
      e.backOff :: backOffs events
    else backOffs events

/-- Nothing happens to the task before a back-off is over. -/
def Spaced : List TaskEvent → Prop
  | [] => True
  | e :: events => (∀ u ∈ backOffs events, u ≤ e.begins) ∧ Spaced events

namespace HistoryRun

open RealTimeScheduler

/-- **The back-off.** -/
structure BackedOff (p : HistoryRun) : Prop where
  /-- a task of the table is inactive exactly while its last ten executions failed and nothing was
  lifted since -/
  inactive_iff : ∀ id b task, p.1.tasks.lookup id = some b → p.1.taskPool.blocks.lookup b = some task →
    (task.active = false ↔ maxConsecutiveFailures ≤ failuresInARow (p.2.events b))
  /-- the count is of the failures since the last success, and since the last lift -/
  count : ∀ id b task, p.1.tasks.lookup id = some b → p.1.taskPool.blocks.lookup b = some task →
    task.consecutiveFailures = failuresInARow (p.2.events b)
  /-- no execution has begun, and none is under way, before a back-off was over -/
  spaced : ∀ b, Spaced (p.2.events b)
  waits : ∀ b, p.1.claimed? = some b → ∀ u ∈ backOffs (p.2.events b), u ≤ p.2.claimedAt
  /-- a step of the loop changes no task but the one it claims or has claimed, and those whose own
  back-off it lifts -/
  alone : ∀ step q, p.1.act (.loop step) = some q → ∀ b,
    q.taskPool.blocks.lookup b ≠ p.1.taskPool.blocks.lookup b →
      p.1.claimed? = some b ∨ q.claimed? = some b ∨ ∃ task now,
        p.1.taskPool.blocks.lookup b = some task ∧ comesBack now task = true ∧
          q.taskPool.blocks.lookup b = some { task with active := true, consecutiveFailures := 0 }

/-! ## The histories -/

section Histories

variable {e : TaskEvent} {l : List TaskEvent} {u : TimePoint}

theorem failuresInARow_of_not (he : e.failed = false) : failuresInARow (e :: l) = 0 := by
  rw [failuresInARow, List.takeWhile_cons_of_neg (by simp [he])]
  rfl

theorem failuresInARow_of_failed (he : e.failed = true) :
    failuresInARow (e :: l) = failuresInARow l + 1 := by
  rw [failuresInARow, List.takeWhile_cons_of_pos he]
  rfl

/-- A success, or a lift, begins no back-off. -/
theorem backOffs_of_not (he : e.failed = false) : backOffs (e :: l) = backOffs l := by
  rw [backOffs, failuresInARow_of_not he]
  rfl

theorem mem_backOffs_cons (hu : u ∈ backOffs (e :: l)) : u ∈ backOffs l ∨
    u = e.backOff ∧ maxConsecutiveFailures ≤ failuresInARow (e :: l) := by
  rw [backOffs] at hu
  split_ifs at hu with hten
  · rcases List.mem_cons.mp hu with rfl | hold
    · exact .inr ⟨rfl, hten⟩
    · exact .inl hold
  · exact .inl hu

end Histories

/-! ## The invariant -/

/-- **The task of a block, by its history.** -/
structure Counted (clock : TimePoint) (l : List TaskEvent) (task : SchedulerTask) : Prop where
  count : task.consecutiveFailures = failuresInARow l
  active : task.pendingRemoval = false →
    (task.active = false ↔ maxConsecutiveFailures ≤ task.consecutiveFailures)
  running : task.executing = true → task.pendingRemoval = false → task.active = true
  /-- an active task has its back-offs behind it, -/
  due : task.active = true → ∀ u ∈ backOffs l, u ≤ clock
  /-- and an inactive one all but the last -/
  waiting : task.active = false → task.pendingRemoval = false →
    ∀ u ∈ backOffs l, u ≤ clock ∨ u = task.reactivationTime

variable {s t : RealTimeScheduler} {h : TaskHistory} {a : TaskAction} {b : ℕ}
  {clock clock' : TimePoint} {l l' : List TaskEvent} {task task' : SchedulerTask}
  {x y : Option SchedulerTask}

theorem Counted.later (hC : Counted clock l task) (hclock : clock ≤ clock') :
    Counted clock' l task :=
  { hC with
    due := fun hactive u hu => (hC.due hactive u hu).trans hclock
    waiting := fun hactive hp u hu =>
      (hC.waiting hactive hp u hu).imp_left fun hle => hle.trans hclock }

/-- The bookkeeping of an execution, of a task that stays in the table. -/
theorem Counted.finalize (hC : Counted clock l task) (hclock : clock ≤ clock')
    (he : task.executing = true) (hp : task.pendingRemoval = false) (success : Bool)
    (start stop now : TimePoint) : Counted clock' (.executed task ⟨success, start, stop⟩ now :: l)
      (finalizeTask task ⟨success, start, stop⟩ now).1 := by
  have hactive := hC.running he hp
  have hless : task.consecutiveFailures < maxConsecutiveFailures := by
    by_contra hten
    have hoff := (hC.active hp).mpr (Nat.le_of_not_lt hten)
    exact Bool.false_ne_true (hoff.symm.trans hactive)
  have hover (u : TimePoint) (hu : u ∈ backOffs l) : u ≤ clock' :=
    (hC.due hactive u hu).trans hclock
  cases success with
  | true =>
    have hnot : (TaskEvent.executed task ⟨true, start, stop⟩ now).failed = false := rfl
    refine ⟨(failuresInARow_of_not hnot).symm, fun _ => ?_, fun hidle => ?_, fun _ u hu => ?_,
      fun hoff => ?_⟩
    · exact iff_of_false (by simp [finalizeTask, hactive]) (by simp [finalizeTask, maxConsecutiveFailures])
    · cases hidle
    · rw [backOffs_of_not hnot] at hu
      exact hover u hu
    · exact absurd (hactive.symm.trans hoff) (by simp)
  | false =>
    have hfailed : (TaskEvent.executed task ⟨false, start, stop⟩ now).failed = true := rfl
    have hcount : task.consecutiveFailures + 1 =
        failuresInARow (.executed task ⟨false, start, stop⟩ now :: l) := by
      rw [failuresInARow_of_failed hfailed, hC.count]
    refine ⟨hcount, fun _ => ?_, fun hidle => ?_, fun hon u hu => ?_, fun hoff _ u hu => ?_⟩
    · simp [finalizeTask, hactive]
    · cases hidle
    · rcases mem_backOffs_cons hu with hold | ⟨-, hten⟩
      · exact hover u hold
      · rw [← hcount] at hten
        simp [finalizeTask, hactive, hten] at hon
    · rcases mem_backOffs_cons hu with hold | ⟨rfl, hten⟩
      · exact .inl (hover u hold)
      · rw [← hcount] at hten
        exact .inr (by simp [finalizeTask, hten, TaskEvent.backOff])

/-- **Each move of a block keeps it.** -/
theorem Counted.move (hm : BlockMove s a t b l x y l') (hC : ∀ task ∈ x, Counted clock l task)
    (hclock : clock ≤ clock') (hreading : ∀ now ∈ a.reactivatesAt, now ≤ clock')
    (htable : b ∈ s.tasks.values → ∀ task ∈ x, task.pendingRemoval = false)
    (hclaimed : s.claimed? = some b → ∀ task ∈ x, task.executing = true) :
    ∀ task ∈ y, Counted clock' l' task := by
  intro task' hy
  cases hm with
  | stays _ => exact (hC task' hy).later hclock
  | added unit name constraints now _ =>
    obtain ⟨⟩ := hy
    refine ⟨rfl, fun _ => ?_, fun _ _ => rfl, fun _ u hu => absurd hu List.not_mem_nil,
      fun _ _ u hu => absurd hu List.not_mem_nil⟩
    exact iff_of_false (by simp) (by simp [maxConsecutiveFailures])
  | freed _ _ _ _ => cases hy
  | marked task _ _ _ =>
    obtain ⟨⟩ := hy
    have hbefore := hC task rfl
    exact ⟨hbefore.count, nofun, fun _ => nofun, nofun, fun _ => nofun⟩
  | updated task _ _ _ =>
    obtain ⟨⟩ := hy
    have hbefore := (hC task rfl).later hclock
    exact ⟨hbefore.count, hbefore.active, hbefore.running, hbefore.due, hbefore.waiting⟩
  | lifted task now ha hseat hback =>
    obtain ⟨⟩ := hy
    have hbefore := hC task rfl
    have hnot : (TaskEvent.lifted now).failed = false := rfl
    rw [comesBack, Bool.and_eq_true, Bool.and_eq_true, decide_eq_true_eq, Bool.not_eq_true'] at hback
    obtain ⟨⟨hoff, -⟩, hdue⟩ := hback
    have hdue : task.reactivationTime ≤ now := of_decide_eq_true hdue
    refine ⟨(failuresInARow_of_not hnot).symm, fun _ => ?_, fun _ _ => rfl, fun _ u hu => ?_, nofun⟩
    · exact iff_of_false (by simp) (by simp [maxConsecutiveFailures])
    · rw [backOffs_of_not hnot] at hu
      rcases hbefore.waiting hoff (htable hseat task rfl) u hu with hle | rfl
      · exact hle.trans hclock
      · exact hdue.trans (hreading now ha)
  | claimed task hactive _ _ =>
    obtain ⟨⟩ := hy
    have hbefore := (hC task rfl).later hclock
    exact ⟨hbefore.count, hbefore.active, fun _ _ => hactive, hbefore.due, hbefore.waiting⟩
  | finalized task success start stop now _ hs _ =>
    cases hp : task.pendingRemoval with
    | true =>
      rw [hp, if_pos rfl] at hy
      cases hy
    | false =>
      rw [hp, if_neg Bool.false_ne_true] at hy
      obtain ⟨⟩ := hy
      exact (hC task rfl).finalize hclock (hclaimed hs task rfl) hp success start stop now

/-- **What every run with a steady clock keeps.** -/
structure BackOffInv (s : RealTimeScheduler) (h : TaskHistory) : Prop where
  seated : Seated s
  counted : ∀ b, ∀ task ∈ s.taskPool.blocks.lookup b, Counted h.clock (h.events b) task
  spaced : ∀ b, Spaced (h.events b)
  waits : ∀ b, s.claimed? = some b → ∀ u ∈ backOffs (h.events b), u ≤ h.claimedAt

theorem BackOffInv.new (policy : SchedulingPolicy) (epoch : TimePoint) :
    BackOffInv (.new policy) ⟨epoch, epoch, fun _ => []⟩ where
  seated := .new policy
  counted b task hb := by cases hb
  spaced b := trivial
  waits b hb := by cases hb

/-- What lifts back-offs reads the clock. -/
theorem reading_of_reactivatesAt {now : TimePoint} (ha : now ∈ a.reactivatesAt) :
    a.reading = some now := by
  cases a with
  | loop step => cases step <;> first | exact ha | cases ha
  | _ => cases ha

/-- While a claim is held, no back-off begins. -/
theorem backOffs_move (hm : BlockMove s a t b l x y l') (hclaimed : t.claimed? ≠ none) :
    ∀ u ∈ backOffs l', u ∈ backOffs l := by
  intro u hu
  cases hm with
  | added _ _ _ _ _ => exact absurd hu List.not_mem_nil
  | lifted _ now _ _ _ => rwa [backOffs_of_not rfl] at hu
  | finalized _ _ _ _ _ _ _ hnone => exact absurd hnone hclaimed
  | _ => exact hu

theorem BackOffInv.counted_step (hI : BackOffInv s h) (hact : s.act a = some t)
    (hG : SteadyClock (s, h) a) (b : ℕ) : ∀ task ∈ t.taskPool.blocks.lookup b,
      Counted (s.recordHistory a t h).clock ((s.recordHistory a t h).events b) task := by
  refine Counted.move (moves_act hI.seated hact) (hI.counted b) (clock_le hG) (fun now ha => ?_)
    (fun hseat task htask => ?_) (fun hclaimed task htask => ?_)
  · rw [recordHistory, reading_of_reactivatesAt ha]
    exact le_refl now
  · obtain ⟨id, hid⟩ := AList.mem_values.mp hseat
    obtain ⟨task', htask', hp⟩ := hI.seated.table id b hid
    obtain rfl := Option.some.inj (htask'.symm.trans htask)
    exact hp
  · obtain ⟨task', htask', he⟩ := hI.seated.claimed b hclaimed
    obtain rfl := Option.some.inj (htask'.symm.trans htask)
    exact he

/-- **Nothing happens to a task before its back-off is over.** -/
theorem BackOffInv.spaced_step (hI : BackOffInv s h) (hact : s.act a = some t)
    (hG : SteadyClock (s, h) a) (b : ℕ) : Spaced ((s.recordHistory a t h).events b) := by
  have hm : Moves s a t h b := moves_act hI.seated hact
  have hcounted := hI.counted b
  rw [Moves] at hm
  generalize hx : s.taskPool.blocks.lookup b = x at hm hcounted
  generalize t.taskPool.blocks.lookup b = y at hm
  generalize hl' : (s.recordHistory a t h).events b = l' at hm
  cases hm with
  | added _ _ _ _ _ => trivial
  | lifted task now ha hseat hback =>
    refine ⟨fun u hu => ?_, hI.spaced b⟩
    rw [comesBack, Bool.and_eq_true, Bool.and_eq_true, decide_eq_true_eq, Bool.not_eq_true'] at hback
    obtain ⟨⟨hoff, -⟩, hdue⟩ := hback
    obtain ⟨id, hid⟩ := AList.mem_values.mp hseat
    obtain ⟨task', htask', hp⟩ := hI.seated.table id b hid
    obtain rfl := Option.some.inj (hx.symm.trans htask')
    rcases (hcounted task rfl).waiting hoff hp u hu with hle | rfl
    · exact hle.trans (hG.1 now (reading_of_reactivatesAt ha))
    · exact of_decide_eq_true hdue
  | finalized task success start stop now ha hs _ =>
    refine ⟨fun u hu => ?_, hI.spaced b⟩
    exact (hI.waits b hs u hu).trans (hG.2 start stop now ha).1
  | _ => exact hI.spaced b

theorem BackOffInv.waits_step (hI : BackOffInv s h) (hact : s.act a = some t) (b : ℕ)
    (hb : t.claimed? = some b) :
    ∀ u ∈ backOffs ((s.recordHistory a t h).events b), u ≤ (s.recordHistory a t h).claimedAt := by
  intro u hu
  have hsome : t.claimed? ≠ none := by
    rw [hb]
    exact Option.some_ne_none b
  have hold := backOffs_move (moves_act hI.seated hact) hsome u hu
  cases claimMove_of_act hact with
  | same hclaimed =>
    have hs : s.claimed? = some b := hclaimed ▸ hb
    have hat : (s.recordHistory a t h).claimedAt = h.claimedAt :=
      if_neg fun hnew => Option.some_ne_none b (hs.symm.trans hnew.1)
    rw [hat]
    exact hI.waits b hs u hold
  | taken id block plan _ hpc _ hclaimed _ hready =>
    obtain rfl := Option.some.inj (hclaimed.symm.trans hb)
    have hidle : s.claimed? = none := by
      rw [claimed?, hpc]
      rfl
    have hat : (s.recordHistory a t h).claimedAt = h.clock := if_pos ⟨hidle, hsome⟩
    obtain ⟨task, htask, hactive, -⟩ := hready
    rw [hat]
    exact (hI.counted block task htask).due hactive u hold
  | released _ _ _ _ _ _ hnone => exact absurd hnone hsome

theorem BackOffInv.step (hI : BackOffInv s h) (hact : s.act a = some t) (hG : SteadyClock (s, h) a) :
    BackOffInv t (s.recordHistory a t h) where
  seated := hI.seated.act hact
  counted := hI.counted_step hact hG
  spaced := hI.spaced_step hact hG
  waits := hI.waits_step hact

/-- **A step of the loop is alone with its task.** -/
theorem alone_of_loop (hs : Seated s) {step : LoopStep} (hact : s.act (.loop step) = some t)
    (hne : t.taskPool.blocks.lookup b ≠ s.taskPool.blocks.lookup b) :
    s.claimed? = some b ∨ t.claimed? = some b ∨ ∃ task now,
      s.taskPool.blocks.lookup b = some task ∧ comesBack now task = true ∧
        t.taskPool.blocks.lookup b = some { task with active := true, consecutiveFailures := 0 } := by
  have hm : Moves s (.loop step) t ⟨0, 0, fun _ => []⟩ b := moves_act hs hact
  rw [Moves] at hm
  generalize s.taskPool.blocks.lookup b = x at hm hne
  generalize t.taskPool.blocks.lookup b = y at hm hne
  generalize (s.recordHistory (.loop step) t ⟨0, 0, fun _ => []⟩).events b = l' at hm
  cases hm with
  | stays _ => exact absurd rfl hne
  | added _ _ _ _ ha => cases ha
  | freed _ ha _ _ => exact absurd rfl (ha step)
  | marked _ ha _ _ => exact absurd rfl (ha step)
  | updated _ _ _ ha => cases ha
  | lifted task now _ _ hback => exact .inr (.inr ⟨task, now, rfl, hback, rfl⟩)
  | claimed _ _ _ hclaimed => exact .inr (.inl hclaimed)
  | finalized _ _ _ _ _ _ hclaimed _ => exact .inl hclaimed

/-- **The back-off, in every run with a steady clock**, under every policy. -/
theorem backedOff {epoch : TimePoint} {p : HistoryRun}
    (hr : (machine epoch).ReachableUnder SteadyClock p) : BackedOff p := by
  have hI : BackOffInv p.1 p.2 := by
    refine Machine.ReachableUnder.invariant (I := fun p : HistoryRun => BackOffInv p.1 p.2)
      ⟨fun p hp => ?_, fun p a q hI hG hstep => ?_⟩ hr
    · obtain ⟨⟨policy, hs⟩, hh⟩ := hp
      rw [hs, hh]
      exact .new policy epoch
    · obtain ⟨hact, hrec⟩ := Machine.withHistory_step.mp hstep
      exact hrec ▸ hI.step hact hG
  have hseat {id b : ℕ} {task : SchedulerTask} (hid : p.1.tasks.lookup id = some b)
      (htask : p.1.taskPool.blocks.lookup b = some task) : task.pendingRemoval = false := by
    obtain ⟨task', htask', hp⟩ := hI.seated.table id b hid
    obtain rfl := Option.some.inj (htask'.symm.trans htask)
    exact hp
  refine ⟨fun id b task hid htask => ?_, fun id b task _ htask => (hI.counted b task htask).count,
    hI.spaced, hI.waits, fun step q hact b => alone_of_loop hI.seated hact⟩
  rw [← (hI.counted b task htask).count]
  exact (hI.counted b task htask).active (hseat hid htask)

/-- A cycle at the time, in which the task with the id 1 fails. -/
def failingCycle (now : TimePoint) : List TaskAction :=
  [.loop .advance, .loop .advance, .loop (.select now [1]), .loop .advance, .loop .advance,
    .loop .bodyThrows, .loop (.finalize now now now), .loop .advance, .loop .advance]

/-- Ten failures in a row, and a cycle 99 ms after the last. -/
def tenFailures : List TaskAction :=
  [.addTask 7 "camera" { period := 1 } 0, .start true] ++
    (List.range 10).flatMap (fun n => failingCycle (1000 + n)) ++
    [.loop .advance, .loop .advance, .loop (.select 100009 [])]

/-- The task is inactive, and its back-off goes on. -/
theorem backedOff_tenFailures : ∃ p, (machine 0).ReachableUnder SteadyClock p ∧
    (p.1.task? 1).any (fun task => !task.active) = true ∧ backOffs (p.2.events 0) = [101009] ∧
      BackedOff p := by
  have hchecks : (machine 0).checks isSteady (.new .priorityBased, ⟨0, 0, fun _ => []⟩)
      tenFailures = true := by decide +kernel
  have hrun : ((machine 0).exec (.new .priorityBased, ⟨0, 0, fun _ => []⟩) tenFailures).any
      (fun p => (p.1.task? 1).any (fun task => !task.active) &&
        decide (backOffs (p.2.events 0) = [101009])) = true := by decide +kernel
  obtain ⟨p, hp, hend⟩ := (Option.any_eq_true _ _).mp hrun
  rw [Bool.and_eq_true, decide_eq_true_eq] at hend
  have hr := reachableUnder_of_checks hchecks hp
  exact ⟨p, hr, hend.1, hend.2, backedOff hr⟩

end HistoryRun

end AxonVex
