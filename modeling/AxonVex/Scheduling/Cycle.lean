import AxonVex.Scheduling.TaskPool

/-!
# Scheduling/Cycle — a scheduling cycle executes its ready set

    select: tasks_ ──reactivate, isReady──▸ ready set ──sort──▸ ids ──one turn each──▸ find, claim, execute

The ready set is a list of ids; between two turns other threads and the tasks themselves change the
table.  A record beside the run numbers the tasks as they are added, and keeps of the last cycle its
ready set, the turns taken, and the tasks executed.

* `cycleKept_iff` — along any run each ready task gets one turn, in the order of the policy, and is
  executed if it is still there and active, and nothing else is, exactly when no turn comes to the id
  0 or to an id that has been given to another task.
* `turn_of_zero` — the counter of the ids comes to 0, and the task with this id is never executed.
-/

namespace AxonVex

open Machinery

/-- A task of a ready set, as read when the set was built. -/
structure ReadyTask where
  id : ℕ
  /-- the number of the `addTask` that added it -/
  serial : ℕ
  task : SchedulerTask
  deriving DecidableEq, Repr

/-- A turn of a cycle: for which ready task, and whether it was still in the table and active. -/
structure CycleTurn where
  ready : ReadyTask
  present : Bool
  deriving DecidableEq, Repr

/-- The record of a run, with its last cycle. -/
structure CycleRecord where
  /-- the tasks ever added -/
  issued : ℕ := 0
  /-- the task that an id stands for -/
  serials : ℕ → Option ℕ := fun _ => none
  /-- the ready set -/
  ready : List ReadyTask := []
  turns : List CycleTurn := []
  /-- the tasks executed -/
  executed : List ℕ := []
  /-- the cycle was left while `running_` was set -/
  finished : Bool := false

namespace CycleRecord

variable (h : CycleRecord)

/-- A task is added under the id. -/
def issue (id : ℕ) : CycleRecord :=
  { h with issued := h.issued + 1, serials := Function.update h.serials id (some h.issued) }

/-- The ready task with the id. -/
def select (s : RealTimeScheduler) (id : ℕ) : Option ReadyTask :=
  (h.serials id).bind fun serial => (s.task? id).map fun task => ⟨id, serial, task⟩

/-- The cycle begins. -/
def begin (s : RealTimeScheduler) (now : TimePoint) : CycleRecord :=
  { h with
    ready := (s.readyIds now).filterMap (h.select s)
    turns := []
    executed := []
    finished := false }

/-- The turn of the id comes; `t` is the scheduler after it. -/
def turn (s t : RealTimeScheduler) (id : ℕ) : CycleRecord :=
  { h with
    turns := h.turns ++ ((h.ready.find? fun r => r.id == id).map fun r =>
      ⟨r, decide (h.serials id = some r.serial) && (s.task? id).any (·.active)⟩).toList
    executed := h.executed ++ if t.claimed?.isSome then (h.serials id).toList else [] }

/-- The cycle goes on, or is left. -/
def leave (s t : RealTimeScheduler) : CycleRecord :=
  { h with finished := decide (t.worker.pc? = some .top) && s.running }

/-- The record after a step of the loop. -/
def recordLoop (s : RealTimeScheduler) (step : RealTimeScheduler.LoopStep)
    (t : RealTimeScheduler) : CycleRecord :=
  match s.worker.pc?, step with
  | some .selecting, .select now _ => h.begin (s.reactivateAll now) now
  | some (.cycle (.ready _)), .advance => h.leave s t
  | some (.picked id (.ready _)), .advance => h.turn s t id
  | _, _ => h

/-- The record after an action. -/
def record (s : RealTimeScheduler) (a : TaskAction) (t : RealTimeScheduler) (h : CycleRecord) :
    CycleRecord :=
  match a with
  | .addTask _ _ _ _ =>
    if t.nextTaskId = s.nextTaskId then h else h.issue s.nextTaskId.toNat
  | .removeTask taskId => { h with serials := Function.update h.serials taskId none }
  | .removeAllTasks => { h with serials := fun _ => none }
  | .loop step => h.recordLoop s step t
  | _ => h

end CycleRecord

/-- A scheduler and the record of its cycles. -/
abbrev CycleRun := RealTimeScheduler × CycleRecord

namespace CycleRun

/-- A scheduler as constructed. -/
def fresh (policy : SchedulingPolicy) : CycleRun := (.new policy, {})

/-- **The runs of a scheduler**, from its construction. -/
def machine : Machine CycleRun TaskAction :=
  Machine.withHistory ⟨fun s => ∃ policy, s = .new policy, RealTimeScheduler.act⟩ {}
    CycleRecord.record

/-- The first task is executed before the second under the policy. -/
def InOrder (policy : SchedulingPolicy) (a b : SchedulerTask) : Prop :=
  (policy = .earliestDeadlineFirst →
    a.nextExecution + a.constraints.deadline ≤ b.nextExecution + b.constraints.deadline) ∧
  (policy = .rateMonotonic → a.constraints.period ≤ b.constraints.period)

/-- **A cycle executes its ready set.** -/
structure CycleKept (p : CycleRun) : Prop where
  /-- a turn is for a task of the ready set -/
  ready : ∀ r ∈ p.2.turns, r.ready ∈ p.2.ready
  /-- and none has two -/
  once : (p.2.turns.map fun r => r.ready.serial).Nodup
  /-- executed are those that are there and active at their turn, each once, and no other task -/
  executed : p.2.executed = (p.2.turns.filter (·.present)).map fun r => r.ready.serial
  /-- a cycle that is over has come to each -/
  complete : p.2.finished = true → ∀ r ∈ p.2.ready, ∃ r' ∈ p.2.turns, r'.ready = r
  /-- in the order of the policy -/
  ordered : p.2.turns.Pairwise fun r r' => InOrder p.1.policy r.ready.task r'.ready.task

/-- **The condition**: the id that a cycle comes to is not 0, and when it is looked up, it has no
active task or still has the one that was selected. -/
structure TurnComes (p : CycleRun) (a : TaskAction) : Prop where
  nonzero : ∀ ids, a = .loop .advance → p.1.worker.pc? = some (.cycle (.ready (0 :: ids))) →
    p.1.running = false
  same : ∀ id ids, a = .loop .advance → p.1.worker.pc? = some (.picked id (.ready ids)) →
    (p.1.task? id).any (·.active) = true →
    ∀ r ∈ p.2.ready, r.id = id → p.2.serials id = some r.serial

end CycleRun

/-! ## Where a cycle stands -/

/-- The ids of a fixed ready set. -/
def CyclePlan.ids? : CyclePlan → Option (List ℕ)
  | ready ids => some ids
  | custom _ => none

/-- The ids of the cycle whose turns are still to come. -/
def LoopPc.remaining? : LoopPc → Option (List ℕ)
  | top => none
  | armed => none
  | selecting => none
  | cycle plan => plan.ids?
  | picked id plan => plan.ids?.map (id :: ·)
  | processAsync _ plan => plan.ids?
  | processSync _ plan => plan.ids?
  | finalizing _ _ plan => plan.ids?
  | reporting _ _ plan => plan.ids?

namespace RealTimeScheduler

variable {s t : RealTimeScheduler} {a : TaskAction}

/-- The ids whose turns are still to come. -/
def remaining? (s : RealTimeScheduler) : Option (List ℕ) := s.worker.pc?.bind LoopPc.remaining?

/-- An action that leaves the tasks, and begins no turn. -/
structure Steers (s t : RealTimeScheduler) : Prop where
  tasks : t.tasks = s.tasks
  taskPool : t.taskPool = s.taskPool
  policy : t.policy = s.policy
  claimed : t.claimed? = s.claimed?
  remaining : ∀ rest, t.remaining? = some rest → s.remaining? = some rest

/-- The worker is where it was. -/
theorem Steers.of_worker (htasks : t.tasks = s.tasks) (hpool : t.taskPool = s.taskPool)
    (hpolicy : t.policy = s.policy) (hworker : t.worker = s.worker) : Steers s t :=
  ⟨htasks, hpool, hpolicy, by rw [claimed?, hworker, claimed?],
    fun rest hrest => by rwa [remaining?, hworker] at hrest⟩

/-- The worker is somewhere outside a cycle, before and after. -/
theorem Steers.of_outside (htasks : t.tasks = s.tasks) (hpool : t.taskPool = s.taskPool)
    (hpolicy : t.policy = s.policy) (hs : s.claimed? = none) (ht : t.claimed? = none)
    (hrest : t.remaining? = none) : Steers s t :=
  ⟨htasks, hpool, hpolicy, ht.trans hs.symm, fun rest hsome => by cases hrest.symm.trans hsome⟩

/-- Where there is no loop, nothing is claimed. -/
theorem claimed?_of_not_alive (halive : s.loopAlive = false) : s.claimed? = none := by
  rcases s.worker.not_alive_iff.mp halive with hw | hw
  · rw [claimed?, hw]
    rfl
  · rw [claimed?, hw]
    rfl

theorem steers_start {spawned : Bool} (hact : s.act (.start spawned) = some t) : Steers s t := by
  simp only [act] at hact
  split at hact
  · cases hact
  next hstale =>
    obtain ⟨⟩ := hact
    unfold RealTimeScheduler.start
    split
    · exact .of_worker rfl rfl rfl rfl
    next hrunning =>
      -- there is no loop when a new one begins
      have hrun : s.running = false := by simpa using hrunning
      have hdead : s.loopAlive = false := by simpa [hrun] using hstale
      have hnone := claimed?_of_not_alive hdead
      split
      · exact .of_outside rfl rfl rfl hnone rfl rfl
      · exact .of_outside rfl rfl rfl hnone rfl rfl

theorem steers_join (hact : s.act .join = some t) : Steers s t := by
  simp only [act] at hact
  split at hact
  · cases hact
  next halive =>
    obtain ⟨⟩ := hact
    exact .of_outside rfl rfl rfl (claimed?_of_not_alive (by simpa using halive)) rfl rfl

theorem steers_customPick {id : ℕ} (hact : s.act (.customPick id) = some t) : Steers s t := by
  simp only [act] at hact
  split at hact
  next left hpc =>
    obtain ⟨-, rfl⟩ := guarded hact
    have hnone : s.claimed? = none := by
      rw [claimed?, hpc]
      rfl
    by_cases hid : id = 0
    · rw [if_pos hid]
      exact .of_outside rfl rfl rfl hnone rfl rfl
    · rw [if_neg hid]
      exact .of_outside rfl rfl rfl hnone rfl rfl
  · cases hact

end RealTimeScheduler

/-! ## What executes has been claimed

Unlike what `Owned` says of blocks and tasks, this holds in every run. -/

namespace RealTimeScheduler

open MemoryPool

variable {s t : RealTimeScheduler}

/-- A task that executes is the one the loop has claimed. -/
def ExecutingClaimed (s : RealTimeScheduler) : Prop :=
  ∀ b task, s.taskPool.blocks.lookup b = some task → task.executing = true → s.claimed? = some b

/-- What executes after the operation on the pool has executed before it. -/
def KeepsExecuting (p q : MemoryPool SchedulerTask) : Prop :=
  ∀ b task, q.blocks.lookup b = some task → task.executing = true →
    ∃ task', p.blocks.lookup b = some task' ∧ task'.executing = true

theorem KeepsExecuting.refl (p : MemoryPool SchedulerTask) : KeepsExecuting p p :=
  fun _ task hb he => ⟨task, hb, he⟩

theorem KeepsExecuting.trans {p q r : MemoryPool SchedulerTask} (hpq : KeepsExecuting p q)
    (hqr : KeepsExecuting q r) : KeepsExecuting p r := fun b task hb he => by
  obtain ⟨task', hb', he'⟩ := hqr b task hb he
  exact hpq b task' hb' he'

theorem keepsExecuting_update (p : MemoryPool SchedulerTask) (b : ℕ)
    {f : SchedulerTask → SchedulerTask} (hf : ∀ task, (f task).executing = task.executing) :
    KeepsExecuting p (p.update b f) := fun c task hc he => by
  have hsame : SameOn SchedulerTask.executing p (p.update b f) := sameOn_update fun task _ => hf task
  obtain ⟨task', hc', he'⟩ := hsame.symm.exists_lookup hc
  exact ⟨task', hc', he'.trans he⟩

theorem keepsExecuting_deallocateObject (p : MemoryPool SchedulerTask) (b : ℕ) :
    KeepsExecuting p (p.deallocateObject b) := fun c task hc he => by
  rw [deallocateObject_blocks, AList.lookup_erase_eq_some] at hc
  exact ⟨task, hc.2, he⟩

theorem keepsExecuting_releaseTask (p : MemoryPool SchedulerTask) (b : ℕ) :
    KeepsExecuting p (releaseTask p b) := by
  unfold releaseTask
  split
  · exact .refl p
  · split
    · exact keepsExecuting_update p b fun _ => rfl
    · exact keepsExecuting_deallocateObject p b

theorem keepsExecuting_foldl_releaseTask (bs : List ℕ) (p : MemoryPool SchedulerTask) :
    KeepsExecuting p (bs.foldl releaseTask p) := by
  induction bs generalizing p with
  | nil => exact .refl p
  | cons b bs ih => exact (keepsExecuting_releaseTask p b).trans (ih _)

theorem keepsExecuting_removeTask (s : RealTimeScheduler) (taskId : ℕ) :
    KeepsExecuting s.taskPool (s.removeTask taskId).1.taskPool := by
  unfold removeTask
  split
  · exact .refl _
  · split
    · exact .refl _
    · split
      · exact keepsExecuting_update _ _ fun _ => rfl
      · exact keepsExecuting_deallocateObject _ _

theorem keepsExecuting_addTask (s : RealTimeScheduler) (unit : UnitPtr) (name : String)
    (constraints : TimingConstraints) (now : TimePoint) :
    KeepsExecuting s.taskPool (s.addTask unit name constraints now).1.taskPool := by
  unfold addTask
  dsimp only
  split
  · exact .refl _
  next b pool halloc =>
    intro c task hc he
    rcases (lookup_allocateObject halloc).mp hc with ⟨rfl, rfl⟩ | ⟨-, hc⟩
    · cases he
    · exact ⟨task, hc, he⟩

theorem keepsExecuting_reactivateAll (s : RealTimeScheduler) (now : TimePoint) :
    KeepsExecuting s.taskPool (s.reactivateAll now).taskPool := fun b task hb he => by
  have hsame : SameOn SchedulerTask.executing s.taskPool (s.reactivateAll now).taskPool :=
    sameOn_foldl_update (fun task => by unfold reactivate; split <;> rfl) _ _
  obtain ⟨task', hb', he'⟩ := hsame.symm.exists_lookup hb
  exact ⟨task', hb', he'.trans he⟩

theorem ExecutingClaimed.of_keeps (h : s.ExecutingClaimed)
    (hpool : KeepsExecuting s.taskPool t.taskPool) (hclaimed : t.claimed? = s.claimed?) :
    t.ExecutingClaimed := fun b task hb he => by
  obtain ⟨task', hb', he'⟩ := hpool b task hb he
  exact hclaimed.trans (h b task' hb' he')

theorem ExecutingClaimed.steers (h : s.ExecutingClaimed) (hst : Steers s t) :
    t.ExecutingClaimed :=
  h.of_keeps (hst.taskPool ▸ .refl _) hst.claimed

/-- A scheduler in which nothing is claimed. -/
theorem ExecutingClaimed.idle (h : s.ExecutingClaimed) (hclaimed : s.claimed? = none) {b : ℕ}
    {task : SchedulerTask} (hb : s.taskPool.blocks.lookup b = some task) : task.executing = false := by
  by_contra he
  have hnone := (h b task hb (Bool.not_eq_false _ ▸ he)).symm.trans hclaimed
  cases hnone

/-- A claim. -/
theorem ExecutingClaimed.claim (h : s.ExecutingClaimed) (hclaimed : s.claimed? = none) (id : ℕ)
    (plan : CyclePlan) : (s.claim id plan).ExecutingClaimed := by
  unfold RealTimeScheduler.claim
  split
  next block task hid htask =>
    split
    · intro c task' hc he
      by_cases hcb : c = block
      · exact hcb ▸ rfl
      · rw [update_blocks, AList.lookup_modify_ne hcb] at hc
        exact absurd (h.idle hclaimed hc) (by simp [he])
    · exact h.of_keeps (.refl _) hclaimed.symm
  · exact h.of_keeps (.refl _) hclaimed.symm

/-- The end of an execution. -/
theorem ExecutingClaimed.finalize (h : s.ExecutingClaimed) {block : ℕ}
    (hclaimed : s.claimed? = some block) (plan : CyclePlan) (result : TaskExecutionResult)
    (now : TimePoint) : (s.finalizeTaskExecution block plan result now).ExecutingClaimed := by
  have hother {b : ℕ} {task : SchedulerTask} (hb : s.taskPool.blocks.lookup b = some task)
      (hne : b ≠ block) : task.executing = false := by
    by_contra he
    exact hne (Option.some.inj ((h b task hb (Bool.not_eq_false _ ▸ he)).symm.trans hclaimed))
  unfold finalizeTaskExecution
  split
  next hnone =>
    intro b task hb he
    have hne : b ≠ block := fun hbb => by
      have hsome : s.taskPool.blocks.lookup b = some task := hb
      rw [hbb, hnone] at hsome
      cases hsome
    exact absurd (hother hb hne) (by simp [he])
  next task hblock =>
    have hdone : (finalizeTask task result now).1.executing = false := by
      unfold finalizeTask
      dsimp only
      split <;> rfl
    -- no task executes in the pool, whether the block stays or is freed
    have hnone : ∀ b task', (s.taskPool.update block fun _ => (finalizeTask task result now).1).blocks.lookup
        b = some task' → task'.executing = false := by
      intro b task' hb
      by_cases hbb : b = block
      · rw [hbb, update_blocks, AList.lookup_modify_self, hblock] at hb
        obtain ⟨⟩ := hb
        exact hdone
      · rw [update_blocks, AList.lookup_modify_ne hbb] at hb
        exact hother hb hbb
    intro b task' hb he
    dsimp only at hb
    split at hb
    · rw [deallocateObject_blocks, AList.lookup_erase_eq_some] at hb
      exact absurd (hnone b task' hb.2) (by simp [he])
    · exact absurd (hnone b task' hb) (by simp [he])

/-- **A step of the loop.** -/
theorem ExecutingClaimed.loopMove (h : s.ExecutingClaimed) (hmove : LoopMove s t) :
    t.ExecutingClaimed := by
  cases hmove with
  | exit hpc _ => exact h.of_keeps (.refl _) (by rcases hpc with hpc | hpc <;> simp [claimed?, hpc, LoopPc.claimed?])
  | arm hpc _ _ => exact h.of_keeps (.refl _) (by simp [claimed?, hpc, goto, LoopPc.claimed?])
  | wake hpc _ => exact h.of_keeps (.refl _) (by simp [claimed?, hpc, goto, LoopPc.claimed?])
  | select now plan last hpc =>
    exact h.of_keeps (keepsExecuting_reactivateAll s now) (by simp [claimed?, hpc, LoopPc.claimed?])
  | endCycle plan hpc => exact h.of_keeps (.refl _) (by simp [claimed?, hpc, goto, LoopPc.claimed?])
  | pick id plan plan' hpc _ _ =>
    exact h.of_keeps (.refl _) (by simp [claimed?, hpc, goto, LoopPc.claimed?])
  | claim id plan hpc => exact h.claim (by simp [claimed?, hpc, LoopPc.claimed?]) id plan
  | asyncDone block plan hpc =>
    exact h.of_keeps (.refl _) (by simp [claimed?, hpc, goto, LoopPc.claimed?])
  | bodyDone block success plan hpc =>
    refine h.of_keeps (.refl _) ?_
    rcases hpc with hpc | hpc <;> simp [claimed?, hpc, goto, LoopPc.claimed?]
  | finalize block plan result now hpc =>
    exact h.finalize (by simp [claimed?, hpc, LoopPc.claimed?]) plan result now
  | report unit times plan hpc =>
    exact h.of_keeps (.refl _) (by simp [claimed?, hpc, goto, LoopPc.claimed?])

/-- **Every action.** -/
theorem ExecutingClaimed.act (h : s.ExecutingClaimed) {a : TaskAction} (hact : s.act a = some t) :
    t.ExecutingClaimed := by
  cases a with
  | addTask unit name constraints now =>
    obtain ⟨⟩ := hact
    refine h.of_keeps (keepsExecuting_addTask s unit name constraints now) ?_
    unfold addTask
    dsimp only
    split <;> rfl
  | removeTask taskId =>
    obtain ⟨⟩ := hact
    refine h.of_keeps (keepsExecuting_removeTask s taskId) ?_
    rw [claimed?, (s.removeTask_frame taskId).2.2.1, claimed?]
  | removeAllTasks =>
    obtain ⟨⟩ := hact
    exact h.of_keeps (keepsExecuting_foldl_releaseTask _ _) rfl
  | updateTaskConstraints taskId constraints =>
    obtain ⟨⟩ := hact
    unfold updateTaskConstraints
    split
    · exact h
    · exact h.of_keeps (keepsExecuting_update _ _ fun _ => rfl) rfl
  | loop step => exact h.loopMove (loopMove_of_loopStep hact)
  | customPick id => exact h.steers (steers_customPick hact)
  | start spawned => exact h.steers (steers_start hact)
  | join => exact h.steers (steers_join hact)
  | _ =>
    obtain ⟨⟩ := hact
    exact h.of_keeps (.refl _) rfl

end RealTimeScheduler

namespace RealTimeScheduler

variable {s t : RealTimeScheduler} {h : CycleRecord}

/-- What a step of the loop is to the cycle, and to its record. -/
inductive CycleMove (s : RealTimeScheduler) (h : CycleRecord) :
    LoopStep → RealTimeScheduler → CycleRecord → Prop
  | begin (now : TimePoint) (order : List ℕ) (last : ℕ) (hpc : s.worker.pc? = some .selecting)
      (horder : (s.reactivateAll now).mayOrder now order = true) :
      CycleMove s h (.select now order)
        { s.reactivateAll now with
          worker := .running (.cycle (.ready order)), lastSelectedTask := last }
        (h.begin (s.reactivateAll now) now)
  | next (id : ℕ) (ids : List ℕ) (hpc : s.worker.pc? = some (.cycle (.ready (id :: ids))))
      (hid : id ≠ 0) : CycleMove s h .advance (s.goto (.picked id (.ready ids)))
        { h with finished := false }
  | leave (ids : List ℕ) (hpc : s.worker.pc? = some (.cycle (.ready ids)))
      (hwhy : s.running = true → ids = [] ∨ ids.head? = some 0) :
      CycleMove s h .advance (s.goto .top) { h with finished := s.running }
  | turn (id : ℕ) (ids : List ℕ) (hpc : s.worker.pc? = some (.picked id (.ready ids))) :
      CycleMove s h .advance (s.claim id (.ready ids)) (h.turn s (s.claim id (.ready ids)) id)
  /-- within a turn, or not in a cycle at all -/
  | other (step : LoopStep) (t : RealTimeScheduler) (htasks : t.tasks = s.tasks)
      (hrest : ∀ rest, t.remaining? = some rest → s.remaining? = some rest)
      (hcycle : ∀ ids, s.worker.pc? ≠ some (.cycle (.ready ids)))
      (hpicked : ∀ id ids, s.worker.pc? ≠ some (.picked id (.ready ids))) :
      CycleMove s h step t h

/-- The end of an execution leaves the table, and the turns to come. -/
theorem finalizeTaskExecution_frame (s : RealTimeScheduler) (block : ℕ) (plan : CyclePlan)
    (result : TaskExecutionResult) (now : TimePoint) :
    (s.finalizeTaskExecution block plan result now).tasks = s.tasks ∧
      (s.finalizeTaskExecution block plan result now).remaining? = plan.ids? ∧
      (s.finalizeTaskExecution block plan result now).policy = s.policy := by
  unfold finalizeTaskExecution
  split
  · exact ⟨rfl, rfl, rfl⟩
  · refine ⟨rfl, ?_, rfl⟩
    dsimp only [remaining?]
    split
    · rfl
    · rfl

/-- A claim, too. -/
theorem claim_frame (s : RealTimeScheduler) (id : ℕ) (plan : CyclePlan) :
    (s.claim id plan).tasks = s.tasks ∧ (s.claim id plan).remaining? = plan.ids? ∧
      (s.claim id plan).policy = s.policy := by
  unfold RealTimeScheduler.claim
  split
  · split
    · exact ⟨rfl, rfl, rfl⟩
    · exact ⟨rfl, rfl, rfl⟩
  · exact ⟨rfl, rfl, rfl⟩

/-- The policy is that of the constructor. -/
theorem LoopMove.policy (hmove : LoopMove s t) : t.policy = s.policy := by
  cases hmove with
  | claim id plan _ => exact (s.claim_frame id plan).2.2
  | finalize block plan result now _ =>
    exact (s.finalizeTaskExecution_frame block plan result now).2.2
  | _ => rfl

/-- Within a turn, or not in a cycle at all, a step leaves the table and the turns to come. -/
theorem LoopMove.inside (hmove : LoopMove s t) (hselecting : s.worker ≠ .running .selecting)
    (hcycle : ∀ plan, s.worker ≠ .running (.cycle plan))
    (hpicked : ∀ id ids, s.worker ≠ .running (.picked id (.ready ids))) :
    t.tasks = s.tasks ∧ ∀ rest, t.remaining? = some rest → s.remaining? = some rest := by
  cases hmove with
  | select _ _ _ hpc => exact absurd hpc hselecting
  | pick _ plan _ hpc _ _ => exact absurd hpc (hcycle plan)
  | claim id plan hpc =>
    obtain ⟨htasks, hrest, -⟩ := s.claim_frame id plan
    cases plan with
    | ready ids => exact absurd hpc (hpicked id ids)
    | custom left => exact ⟨htasks, fun rest hsome => by cases hrest.symm.trans hsome⟩
  | asyncDone block plan hpc =>
    exact ⟨rfl, fun rest hrest => by rw [remaining?, hpc]; exact hrest⟩
  | bodyDone block success plan hpc =>
    refine ⟨rfl, fun rest hrest => ?_⟩
    rcases hpc with hpc | hpc
    · rw [remaining?, hpc]
      exact hrest
    · rw [remaining?, hpc]
      exact hrest
  | finalize block plan result now hpc =>
    obtain ⟨htasks, hrest, -⟩ := s.finalizeTaskExecution_frame block plan result now
    refine ⟨htasks, fun rest hsome => ?_⟩
    rw [remaining?, hpc]
    exact hrest.symm.trans hsome
  | report unit times plan hpc =>
    exact ⟨rfl, fun rest hrest => by rw [remaining?, hpc]; exact hrest⟩
  | _ => exact ⟨rfl, fun rest hrest => by cases hrest⟩

/-- The custom policy has no ready set. -/
theorem loopStep_custom {step : LoopStep} {left : ℕ}
    (hpc : s.worker.pc? = some (.cycle (.custom left))) (hstep : s.loopStep step = some t) :
    ∃ pc, s.goto pc = t ∧ LoopPc.remaining? pc = none := by
  cases step with
  | advance =>
    simp only [loopStep, hpc] at hstep
    obtain ⟨-, hsome⟩ := Option.ite_none_right_eq_some.mp hstep
    exact ⟨.top, Option.some.inj hsome, rfl⟩
  | pick now id =>
    cases left with
    | zero => simp [loopStep, hpc] at hstep
    | succ left =>
      simp only [loopStep, hpc] at hstep
      obtain ⟨-, hsome⟩ := Option.ite_none_right_eq_some.mp hstep
      split at hsome
      · exact ⟨.top, Option.some.inj hsome, rfl⟩
      · exact ⟨.picked id (.custom left), Option.some.inj hsome, rfl⟩
  | _ => simp [loopStep, hpc] at hstep

/-- **Every step of the loop is one of these.** -/
theorem cycleMove_of_loopStep {step : LoopStep} (hstep : s.loopStep step = some t) :
    CycleMove s h step t (h.recordLoop s step t) := by
  have hother (hselecting : s.worker ≠ .running .selecting)
      (hcycle : ∀ plan, s.worker ≠ .running (.cycle plan))
      (hpicked : ∀ id ids, s.worker ≠ .running (.picked id (.ready ids)))
      (hrec : h.recordLoop s step t = h) : CycleMove s h step t (h.recordLoop s step t) := by
    obtain ⟨htasks, hrest⟩ := (loopMove_of_loopStep hstep).inside hselecting hcycle hpicked
    rw [hrec]
    exact .other step t htasks hrest (fun ids hpc => hcycle _ (worker_eq_of_pc? hpc))
      fun id ids hpc => hpicked id ids (worker_eq_of_pc? hpc)
  cases hworker : s.worker with
  | empty => simp [loopStep, hworker] at hstep
  | exited => simp [loopStep, hworker] at hstep
  | running pc =>
    have hpc : s.worker.pc? = some pc := by rw [hworker]; rfl
    cases pc with
    | selecting =>
      cases step with
      | select now order =>
        simp only [loopStep, hpc] at hstep
        obtain ⟨⟨-, horder⟩, rfl⟩ := guarded hstep
        simp only [CycleRecord.recordLoop, hpc]
        exact .begin now order _ hpc horder
      | beginCustom now =>
        simp only [loopStep, hpc] at hstep
        obtain ⟨-, rfl⟩ := guarded hstep
        simp only [CycleRecord.recordLoop, hpc]
        exact .other _ _ rfl (fun rest hrest => by cases hrest) (by simp [hpc]) (by simp [hpc])
      | _ => simp [loopStep, hpc] at hstep
    | cycle plan =>
      cases plan with
      | ready ids =>
        cases step with
        | advance =>
          simp only [loopStep, hpc] at hstep
          simp only [CycleRecord.recordLoop, hpc]
          split at hstep
          next hdone =>
            obtain ⟨⟩ := hstep
            refine .leave ids hpc fun hrunning => .inl ?_
            simpa [hrunning, CyclePlan.done] using hdone
          next hdone =>
            cases ids with
            | nil => simp [CyclePlan.done] at hdone
            | cons id ids =>
              dsimp only at hstep
              split at hstep
              next hid =>
                obtain ⟨⟩ := hstep
                exact .leave (id :: ids) hpc fun _ => .inr (congrArg some hid)
              next hid =>
                obtain ⟨⟩ := hstep
                exact .next id ids hpc hid
        | _ => simp [loopStep, hpc] at hstep
      | custom left =>
        have hrec : h.recordLoop s step t = h := by simp only [CycleRecord.recordLoop, hpc]
        rw [hrec]
        obtain ⟨pc, rfl, hnone⟩ := loopStep_custom hpc hstep
        refine .other _ _ rfl (fun rest hrest => ?_) (by simp [hpc]) (by simp [hpc])
        cases hnone.symm.trans hrest
    | picked id plan =>
      cases plan with
      | ready ids =>
        cases step with
        | advance =>
          simp only [loopStep, hpc] at hstep
          obtain ⟨⟩ := hstep
          simp only [CycleRecord.recordLoop, hpc]
          exact .turn id ids hpc
        | _ => simp [loopStep, hpc] at hstep
      | custom left =>
        exact hother (by simp [hworker]) (by simp [hworker]) (by simp [hworker])
          (by simp only [CycleRecord.recordLoop, hpc])
    | _ =>
      exact hother (by simp [hworker]) (by simp [hworker]) (by simp [hworker])
        (by simp only [CycleRecord.recordLoop, hpc])

end RealTimeScheduler

/-! ## The invariant -/

namespace CycleRun

open RealTimeScheduler

variable {s t : RealTimeScheduler} {h : CycleRecord} {later : List ReadyTask}

/-- The record knows the tasks of the table by their numbers. -/
structure Numbered (tasks : Table ℕ ℕ) (h : CycleRecord) : Prop where
  known : ∀ id, id ∈ tasks → ∃ n, h.serials id = some n
  below : ∀ id n, h.serials id = some n → n < h.issued
  distinct : ∀ id id' n, h.serials id = some n → h.serials id' = some n → id = id'
  /-- a ready task has been added, -/
  old : ∀ r ∈ h.ready, r.serial < h.issued
  /-- and is in the table under its id or not at all -/
  stays : ∀ r ∈ h.ready, ∀ id, h.serials id = some r.serial → id = r.id

/-- The cycle stands before the turns of `later`. -/
structure Position (s : RealTimeScheduler) (h : CycleRecord) (later : List ReadyTask) : Prop where
  perm : (h.turns.map (·.ready) ++ later).Perm h.ready
  sorted : (h.turns.map (·.ready) ++ later).Pairwise fun a b => s.mayPrecede a.task b.task = true
  next : ∀ rest, s.remaining? = some rest → later.map (·.id) = rest

/-- **What every run keeps.** -/
structure CycleInv (s : RealTimeScheduler) (h : CycleRecord) : Prop where
  executing : s.ExecutingClaimed
  numbered : Numbered s.tasks h
  ids : (h.ready.map (·.id)).Nodup
  serials : (h.ready.map (·.serial)).Nodup
  position : ∃ later, Position s h later
  /-- ready tasks are executed at their turns -/
  inTurn : (h.executed.filter fun n => decide (n ∈ h.ready.map (·.serial))).Sublist
    (h.turns.map fun r => r.ready.serial)

theorem mayPrecede_congr (hpolicy : t.policy = s.policy) (a b : SchedulerTask) :
    t.mayPrecede a b = s.mayPrecede a b := by
  unfold mayPrecede
  rw [hpolicy]

/-- The same turns are to come, or none. -/
theorem Position.of_same (hp : Position s h later) (hpolicy : t.policy = s.policy)
    (hrest : ∀ rest, t.remaining? = some rest → s.remaining? = some rest) : Position t h later := by
  refine ⟨hp.perm, ?_, fun rest hsome => hp.next rest (hrest rest hsome)⟩
  simpa only [mayPrecede_congr hpolicy] using hp.sorted

/-- The numbering changes, and the cycle does not. -/
theorem CycleInv.of_numbered {h' : CycleRecord} (hI : CycleInv s h) (hexec : t.ExecutingClaimed)
    (hpolicy : t.policy = s.policy)
    (hrest : ∀ rest, t.remaining? = some rest → s.remaining? = some rest)
    (hready : h'.ready = h.ready) (hturns : h'.turns = h.turns) (hexecuted : h'.executed = h.executed)
    (hnumbered : Numbered t.tasks h') : CycleInv t h' := by
  obtain ⟨later, hp⟩ := hI.position
  obtain ⟨hperm, hsorted, hnext⟩ := hp.of_same hpolicy hrest
  refine ⟨hexec, hnumbered, hready ▸ hI.ids, hready ▸ hI.serials, ⟨later, ?_, ?_, hnext⟩, ?_⟩
  · rw [hturns, hready]
    exact hperm
  · rw [hturns]
    exact hsorted
  · rw [hexecuted, hready, hturns]
    exact hI.inTurn

/-- Nothing is recorded. -/
theorem CycleInv.of_same (hI : CycleInv s h) (hexec : t.ExecutingClaimed)
    (htasks : t.tasks = s.tasks) (hpolicy : t.policy = s.policy)
    (hrest : ∀ rest, t.remaining? = some rest → s.remaining? = some rest) : CycleInv t h :=
  hI.of_numbered hexec hpolicy hrest rfl rfl rfl (htasks ▸ hI.numbered)

/-- A task more. -/
theorem Numbered.insert {tasks : Table ℕ ℕ} (hn : Numbered tasks h) (id block : ℕ) :
    Numbered (tasks.insert id block) (h.issue id) := by
  have hupdate (id' : ℕ) : (h.issue id).serials id' =
      if id' = id then some h.issued else h.serials id' := Function.update_apply ..
  refine ⟨fun id' hid => ?_, fun id' n hserial => ?_, fun id' id'' n hserial hserial' => ?_,
    fun r hr => Nat.lt_succ_of_lt (hn.old r hr), fun r hr id' hserial => ?_⟩
  · by_cases hne : id' = id
    · exact ⟨h.issued, by rw [hupdate, if_pos hne]⟩
    · obtain ⟨n, hserial⟩ := hn.known id' ((AList.mem_insert _).mp hid |>.resolve_left hne)
      exact ⟨n, by rw [hupdate, if_neg hne, hserial]⟩
  · rw [hupdate] at hserial
    split_ifs at hserial
    · obtain ⟨⟩ := hserial
      exact Nat.lt_succ_self _
    · exact Nat.lt_succ_of_lt (hn.below id' n hserial)
  · rw [hupdate] at hserial hserial'
    split_ifs at hserial hserial' with hid hid' hid'
    · rw [hid, hid']
    · obtain ⟨⟩ := hserial
      exact absurd (hn.below _ _ hserial') (Nat.lt_irrefl _)
    · obtain ⟨⟩ := hserial'
      exact absurd (hn.below _ _ hserial) (Nat.lt_irrefl _)
    · exact hn.distinct _ _ _ hserial hserial'
  · rw [hupdate] at hserial
    split_ifs at hserial
    · have hlt := hn.old r hr
      have heq := Option.some.inj hserial
      omega
    · exact hn.stays r hr id' hserial

/-- Tasks less. -/
theorem Numbered.forget {tasks tasks' : Table ℕ ℕ} (hn : Numbered tasks h) {serials : ℕ → Option ℕ}
    (hsub : ∀ id n, serials id = some n → h.serials id = some n)
    (hkept : ∀ id, id ∈ tasks' → id ∈ tasks ∧ serials id = h.serials id) :
    Numbered tasks' { h with serials := serials } where
  known id hid := by
    obtain ⟨hmem, hsame⟩ := hkept id hid
    obtain ⟨n, hserial⟩ := hn.known id hmem
    exact ⟨n, hsame.trans hserial⟩
  below id n hserial := hn.below id n (hsub id n hserial)
  distinct id id' n hserial hserial' := hn.distinct id id' n (hsub id n hserial) (hsub id' n hserial')
  old := hn.old
  stays r hr id hserial := hn.stays r hr id (hsub id _ hserial)

/-! ## One action -/

/-- The task is in the table under the next id, or the pool is exhausted. -/
theorem addTask_cases (s : RealTimeScheduler) (unit : UnitPtr) (name : String)
    (constraints : TimingConstraints) (now : TimePoint) :
    (s.addTask unit name constraints now).1 = s ∨ ∃ block taskPool,
      (s.addTask unit name constraints now).1 = { s with
        taskPool
        tasks := s.tasks.insert s.nextTaskId.toNat block
        nextTaskId := s.nextTaskId + 1 } := by
  unfold RealTimeScheduler.addTask
  dsimp only
  split
  · exact .inl rfl
  next block taskPool _ => exact .inr ⟨block, taskPool, rfl⟩

theorem CycleInv.addTask (hI : CycleInv s h) {unit : UnitPtr} {name : String}
    {constraints : TimingConstraints} {now : TimePoint}
    (ht : (s.addTask unit name constraints now).1 = t) (hexec : t.ExecutingClaimed) :
    CycleInv t (h.record s (.addTask unit name constraints now) t) := by
  rw [CycleRecord.record]
  rcases addTask_cases s unit name constraints now with hsame | ⟨block, taskPool, hnew⟩
  · rw [← ht, hsame, if_pos rfl]
    exact hI
  · rw [hnew] at ht
    subst ht
    rw [if_neg (Owned.succ_ne _)]
    exact hI.of_numbered hexec rfl (fun _ hrest => hrest) rfl rfl rfl (hI.numbered.insert _ _)

theorem CycleInv.removeTask (hI : CycleInv s h) (taskId : ℕ)
    (hexec : (s.removeTask taskId).1.ExecutingClaimed) :
    CycleInv (s.removeTask taskId).1 (h.record s (.removeTask taskId) (s.removeTask taskId).1) := by
  obtain ⟨htasks, -, hworker, -⟩ := s.removeTask_frame taskId
  have hpolicy : (s.removeTask taskId).1.policy = s.policy := by
    unfold RealTimeScheduler.removeTask
    split
    · rfl
    · split
      · rfl
      · split <;> rfl
  have hother (id : ℕ) (hid : id ≠ taskId) : Function.update h.serials taskId none id = h.serials id :=
    Function.update_of_ne hid ..
  refine hI.of_numbered hexec hpolicy (fun rest hrest => ?_) rfl rfl rfl ?_
  · rwa [remaining?, hworker] at hrest
  · rw [htasks]
    refine hI.numbered.forget (fun id n hserial => ?_) fun id hid => ?_
    · by_cases hidt : id = taskId
      · rw [hidt, Function.update_self] at hserial
        cases hserial
      · exact (hother id hidt).symm.trans hserial
    · obtain ⟨hne, hmem⟩ := AList.mem_erase.mp hid
      exact ⟨hmem, hother id hne⟩

theorem CycleInv.removeAllTasks (hI : CycleInv s h) (hexec : s.removeAllTasks.ExecutingClaimed) :
    CycleInv s.removeAllTasks (h.record s .removeAllTasks s.removeAllTasks) :=
  hI.of_numbered hexec rfl (fun _ hrest => hrest) rfl rfl rfl <|
    hI.numbered.forget (fun _ _ hserial => by cases hserial) fun id hid =>
      absurd hid (AList.notMem_empty id)

theorem CycleInv.steers (hI : CycleInv s h) (hst : Steers s t) : CycleInv t h :=
  hI.of_same (hI.executing.steers hst) hst.tasks hst.policy hst.remaining

/-- An id that is ready has a task, and the record knows it. -/
theorem exists_select (hn : Numbered s.tasks h) {now : TimePoint} {id : ℕ}
    (hid : id ∈ s.readyIds now) : ∃ r, h.select s id = some r ∧ r.id = id := by
  obtain ⟨hkey, hready⟩ := List.mem_filter.mp hid
  obtain ⟨n, hserial⟩ := hn.known id (AList.mem_keys.mpr hkey)
  obtain ⟨task, htask, -⟩ := (Option.any_eq_true _ _).mp hready
  exact ⟨⟨id, n, task⟩, by rw [CycleRecord.select, hserial, htask]; rfl, rfl⟩

/-- What is selected. -/
theorem select_spec {id : ℕ} {r : ReadyTask} (hr : h.select s id = some r) :
    r.id = id ∧ h.serials id = some r.serial ∧ s.task? id = some r.task := by
  obtain ⟨n, hserial, hsome⟩ := Option.bind_eq_some_iff.mp hr
  obtain ⟨task, htask, rfl⟩ := Option.map_eq_some_iff.mp hsome
  exact ⟨rfl, hserial, htask⟩

/-- The ids of what is selected are those it is selected by. -/
theorem map_id_select (hn : Numbered s.tasks h) (now : TimePoint) (order : List ℕ)
    (hready : ∀ id ∈ order, id ∈ s.readyIds now) :
    (order.filterMap (h.select s)).map (·.id) = order := by
  induction order with
  | nil => rfl
  | cons id order ih =>
    obtain ⟨r, hr, hid⟩ := exists_select hn (hready id (List.mem_cons_self ..))
    rw [List.filterMap_cons_some hr, List.map_cons, hid,
      ih fun id' hid' => hready id' (List.mem_cons_of_mem _ hid')]

/-- **A cycle begins.** -/
theorem CycleInv.begin (hn : Numbered s.tasks h) {now : TimePoint} {order : List ℕ}
    (hexec : t.ExecutingClaimed) (htasks : t.tasks = s.tasks) (hpolicy : t.policy = s.policy)
    (hrest : t.remaining? = some order) (horder : s.mayOrder now order = true) :
    CycleInv t (h.begin s now) := by
  obtain ⟨hperm, hsorted, -⟩ : order.Perm (s.readyIds now) ∧
      order.Pairwise (fun i j => ∀ a ∈ s.task? i, ∀ b ∈ s.task? j, s.mayPrecede a b = true) ∧ _ := by
    simpa only [mayOrder, Bool.and_eq_true, decide_eq_true_eq, and_assoc] using horder
  have hids : ((s.readyIds now).filterMap (h.select s)).map (·.id) = s.readyIds now :=
    map_id_select hn now _ fun _ hid => hid
  have hnodup : (((s.readyIds now).filterMap (h.select s)).map (·.id)).Nodup := by
    rw [hids]
    exact s.tasks.keys_nodup.filter _
  have hselected (r : ReadyTask) (hr : r ∈ (s.readyIds now).filterMap (h.select s)) :
      h.serials r.id = some r.serial := by
    obtain ⟨id, -, hselect⟩ := List.mem_filterMap.mp hr
    obtain ⟨hid, hserial, -⟩ := select_spec hselect
    rw [hid, hserial]
  refine ⟨hexec, ?_, hnodup, ?_, ⟨order.filterMap (h.select s), ?_, ?_, fun rest hsome => ?_⟩, ?_⟩
  · refine ⟨htasks ▸ hn.known, hn.below, hn.distinct, fun r hr => ?_, fun r hr id hserial => ?_⟩
    · exact hn.below _ _ (hselected r hr)
    · exact hn.distinct _ _ _ hserial (hselected r hr)
  · -- two of them with one number have one id
    refine List.Nodup.map_on (fun r hr r' hr' heq => ?_) (List.Nodup.of_map _ hnodup)
    have hid : r.id = r'.id :=
      hn.distinct _ _ _ (hselected r hr) (heq ▸ hselected r' hr')
    exact List.inj_on_of_nodup_map hnodup hr hr' hid
  · exact hperm.filterMap _
  · change (order.filterMap (h.select s)).Pairwise _
    rw [List.pairwise_filterMap]
    refine hsorted.imp fun {i j} hij r hr r' hr' => ?_
    rw [mayPrecede_congr hpolicy]
    exact hij _ (select_spec hr).2.2 _ (select_spec hr').2.2
  · obtain rfl := Option.some.inj (hrest.symm.trans hsome)
    exact map_id_select hn now _ fun id hid => hperm.mem_iff.mp hid
  · exact List.nil_sublist _

/-- The ready task with an id is found. -/
theorem find?_ready {ready : List ReadyTask} (hnodup : (ready.map (·.id)).Nodup) {r : ReadyTask}
    (hr : r ∈ ready) : (ready.find? fun r' => r'.id == r.id) = some r := by
  cases hfind : ready.find? fun r' => r'.id == r.id with
  | none => exact absurd (List.find?_eq_none.mp hfind r hr) (by simp)
  | some r' =>
    have hid : r'.id = r.id := by simpa using List.find?_some hfind
    rw [List.inj_on_of_nodup_map hnodup (List.mem_of_find?_eq_some hfind) hr hid]

/-- The turn is that of the next ready task. -/
theorem CycleInv.next (hI : CycleInv s h) {id : ℕ} {ids : List ℕ}
    (hpc : s.worker.pc? = some (.picked id (.ready ids))) : ∃ r later, Position s h (r :: later) ∧
      later.map (·.id) = ids ∧ r.id = id ∧ r ∈ h.ready ∧ ∀ t, (h.turn s t id).turns = h.turns ++
        [⟨r, decide (h.serials id = some r.serial) && (s.task? id).any (·.active)⟩] := by
  obtain ⟨later, hp⟩ := hI.position
  have hids := hp.next (id :: ids) (by rw [remaining?, hpc]; rfl)
  cases later with
  | nil => cases hids
  | cons r later =>
    obtain ⟨hfirst, hrest⟩ := List.cons.inj hids
    have hid : r.id = id := hfirst
    have hr : r ∈ h.ready := hp.perm.mem_iff.mp (List.mem_append_right _ (List.mem_cons_self ..))
    refine ⟨r, later, hp, hrest, hid, hr, fun t => ?_⟩
    have hfind := find?_ready hI.ids hr
    rw [hid] at hfind
    rw [CycleRecord.turn, hfind]
    rfl

/-- Nothing executes when a turn comes, and so an active task is claimed. -/
theorem isSome_claimed?_claim (hexec : s.ExecutingClaimed) {id : ℕ} {plan : CyclePlan}
    (hclaimed : s.claimed? = none) :
    (s.claim id plan).claimed?.isSome = (s.task? id).any (·.active) := by
  unfold RealTimeScheduler.claim
  split
  next block task hid htask =>
    have hblock : s.taskPool.blocks.lookup block = some task := by
      rwa [task?, hid, Option.bind_some] at htask
    rw [htask, Option.any_some, hexec.idle hclaimed hblock, Bool.not_false, Bool.and_true]
    split
    next hactive => exact hactive.symm
    next hactive => exact (Bool.not_eq_true _ ▸ hactive).symm
  next hnone =>
    have htask : s.task? id = none := by
      cases hid : s.tasks.lookup id with
      | none => rw [task?, hid, Option.bind_none]
      | some block =>
        by_contra hsome
        obtain ⟨task, htask⟩ := Option.ne_none_iff_exists'.mp hsome
        exact hnone block task hid htask
    rw [htask]
    rfl

/-- What a turn executes. -/
theorem CycleInv.executed_turn (hI : CycleInv s h) {id : ℕ} {ids : List ℕ}
    (hpc : s.worker.pc? = some (.picked id (.ready ids))) :
    (h.turn s (s.claim id (.ready ids)) id).executed =
      h.executed ++ if (s.task? id).any (·.active) then (h.serials id).toList else [] := by
  have hclaimed : s.claimed? = none := by
    rw [claimed?, hpc]
    rfl
  rw [CycleRecord.turn, isSome_claimed?_claim hI.executing hclaimed]

/-- **A turn.** -/
theorem CycleInv.turn (hI : CycleInv s h) {id : ℕ} {ids : List ℕ}
    (hpc : s.worker.pc? = some (.picked id (.ready ids)))
    (hexec : (s.claim id (.ready ids)).ExecutingClaimed) :
    CycleInv (s.claim id (.ready ids)) (h.turn s (s.claim id (.ready ids)) id) := by
  obtain ⟨r, later, hp, hrest, hid, hr, hturns⟩ := hI.next hpc
  obtain ⟨htasks, hremaining, hpolicy⟩ := s.claim_frame id (.ready ids)
  have hsplit (l : List ReadyTask) : ((h.turns ++ [CycleTurn.mk r
      (decide (h.serials id = some r.serial) && (s.task? id).any (·.active))]).map (·.ready)) ++ l =
      h.turns.map (·.ready) ++ r :: l := by
    rw [List.map_append, List.append_assoc]
    rfl
  refine ⟨hexec, ?_, hI.ids, hI.serials, ⟨later, ?_, ?_, fun rest hsome => ?_⟩, ?_⟩
  · rw [htasks]
    exact ⟨hI.numbered.known, hI.numbered.below, hI.numbered.distinct, hI.numbered.old,
      hI.numbered.stays⟩
  · rw [hturns, hsplit]
    exact hp.perm
  · rw [hturns, hsplit]
    simpa only [mayPrecede_congr hpolicy] using hp.sorted
  · obtain rfl := Option.some.inj (hremaining.symm.trans hsome)
    exact hrest
  · rw [hturns, hI.executed_turn hpc, List.filter_append, List.map_append]
    refine hI.inTurn.append ?_
    split
    · cases hserial : h.serials id with
      | none => exact List.nil_sublist _
      | some n =>
        rw [Option.toList_some]
        by_cases hn : n ∈ h.ready.map (·.serial)
        · -- a ready task is in the table under its own id
          obtain ⟨r', hr', rfl⟩ := List.mem_map.mp hn
          have hsame : r' = r := List.inj_on_of_nodup_map hI.ids hr' hr
            ((hI.numbered.stays r' hr' id hserial).symm.trans hid.symm)
          rw [hsame]
          exact List.filter_sublist
        · have hnil : ([n].filter fun m => decide (m ∈ h.ready.map (·.serial))) = [] :=
            List.filter_eq_nil_iff.mpr fun m hm => by
              rw [List.mem_singleton.mp hm]
              exact fun hmem => hn (of_decide_eq_true hmem)
          change ([n].filter fun m => decide (m ∈ h.ready.map (·.serial))).Sublist _
          rw [hnil]
          exact List.nil_sublist _
    · exact List.nil_sublist _

/-- **A step of the loop.** -/
theorem CycleInv.loop (hI : CycleInv s h) {step : LoopStep} {h' : CycleRecord}
    (hexec : t.ExecutingClaimed) (hpolicy : t.policy = s.policy)
    (hmove : CycleMove s h step t h') : CycleInv t h' := by
  have hnumbered (finished : Bool) : Numbered s.tasks { h with finished := finished } :=
    ⟨hI.numbered.known, hI.numbered.below, hI.numbered.distinct, hI.numbered.old, hI.numbered.stays⟩
  cases hmove with
  | begin now order last hpc horder =>
    have hn : Numbered (s.reactivateAll now).tasks h := hI.numbered
    exact CycleInv.begin hn hexec rfl rfl rfl horder
  | next id ids hpc hid =>
    refine hI.of_numbered hexec rfl (fun rest hrest => ?_) rfl rfl rfl (hnumbered false)
    rw [remaining?, hpc]
    exact hrest
  | leave ids hpc hwhy =>
    exact hI.of_numbered hexec rfl (fun rest hrest => by cases hrest) rfl rfl rfl
      (hnumbered s.running)
  | turn id ids hpc => exact hI.turn hpc hexec
  | other step t htasks hrest hcycle hpicked => exact hI.of_same hexec htasks hpolicy hrest

/-- **Every action keeps the invariant.** -/
theorem CycleInv.step (hI : CycleInv s h) {a : TaskAction} (hact : s.act a = some t) :
    CycleInv t (h.record s a t) := by
  have hexec := hI.executing.act hact
  cases a with
  | addTask unit name constraints now => exact hI.addTask (Option.some.inj hact) hexec
  | removeTask taskId =>
    obtain ⟨⟩ := hact
    exact hI.removeTask taskId hexec
  | removeAllTasks =>
    obtain ⟨⟩ := hact
    exact hI.removeAllTasks hexec
  | updateTaskConstraints taskId constraints =>
    obtain ⟨⟩ := hact
    revert hexec
    unfold updateTaskConstraints
    split
    · exact fun _ => hI
    · exact fun hexec => hI.of_same hexec rfl rfl fun _ hrest => hrest
  | loop step =>
    have hpolicy : t.policy = s.policy := (loopMove_of_loopStep hact).policy
    exact hI.loop hexec hpolicy (cycleMove_of_loopStep hact)
  | customPick id => exact hI.steers (steers_customPick hact)
  | start spawned => exact hI.steers (steers_start hact)
  | join => exact hI.steers (steers_join hact)
  | _ =>
    obtain ⟨⟩ := hact
    exact hI.of_same hexec rfl rfl fun _ hrest => hrest

/-- A scheduler as constructed. -/
theorem CycleInv.fresh (policy : SchedulingPolicy) : CycleInv (.new policy) {} where
  executing b task hb _ := by
    have hnone : (RealTimeScheduler.new policy).taskPool.blocks.lookup b = none := AList.lookup_empty b
    cases hnone.symm.trans hb
  numbered := {
    known := fun id hid => absurd hid (AList.notMem_empty id)
    below := fun _ _ hserial => by cases hserial
    distinct := fun _ _ _ hserial _ => by cases hserial
    old := fun _ hr => absurd hr List.not_mem_nil
    stays := fun _ hr => absurd hr List.not_mem_nil }
  ids := List.nodup_nil
  serials := List.nodup_nil
  position := ⟨[], .refl _, List.Pairwise.nil, fun _ hrest => by cases hrest⟩
  inTurn := .refl _

/-! ## What the turns execute -/

/-- The sort of the policy. -/
theorem inOrder_of_mayPrecede {a b : SchedulerTask} (hab : s.mayPrecede a b = true) :
    InOrder s.policy a b := by
  refine ⟨fun hpolicy => ?_, fun hpolicy => ?_⟩
  · rw [mayPrecede, hpolicy] at hab
    exact of_decide_eq_true hab
  · rw [mayPrecede, hpolicy] at hab
    exact of_decide_eq_true hab

/-- Turns come to ready tasks only, to none twice and in order; what is left is what they execute,
and that they come to all. -/
theorem CycleInv.kept_iff (hI : CycleInv s h) : CycleKept (s, h) ↔
    h.executed = (h.turns.filter (·.present)).map (fun r => r.ready.serial) ∧
      (h.finished = true → ∀ r ∈ h.ready, ∃ r' ∈ h.turns, r'.ready = r) := by
  refine ⟨fun hk => ⟨hk.executed, hk.complete⟩, fun ⟨hexecuted, hcomplete⟩ => ?_⟩
  obtain ⟨later, hperm, hsorted, -⟩ := hI.position
  refine ⟨fun r hr => ?_, ?_, hexecuted, hcomplete, ?_⟩
  · exact hperm.mem_iff.mp (List.mem_append_left _ (List.mem_map_of_mem hr))
  · have hall := (hperm.map (·.serial)).nodup_iff.mpr hI.serials
    rw [List.map_append, List.map_map] at hall
    exact (List.nodup_append.mp hall).1
  · have hturns := (List.pairwise_append.mp hsorted).1
    exact (List.pairwise_map.mp hturns).imp fun hab => inOrder_of_mayPrecede hab

/-- What a record says of its cycle. -/
theorem CycleInv.kept_of_same {h' : CycleRecord} (hI' : CycleInv t h')
    (hk : CycleKept (s, h)) (hready : h'.ready = h.ready) (hturns : h'.turns = h.turns)
    (hexecuted : h'.executed = h.executed) (hfinished : h'.finished = true → h.finished = true) :
    CycleKept (t, h') := by
  rw [hI'.kept_iff, hready, hturns, hexecuted]
  exact ⟨hk.executed, fun ht => hk.complete (hfinished ht)⟩

/-- **A turn executes its task**, exactly if the id has no other active one. -/
theorem CycleInv.kept_turn_iff (hI : CycleInv s h) (hk : CycleKept (s, h)) {id : ℕ} {ids : List ℕ}
    (hpc : s.worker.pc? = some (.picked id (.ready ids)))
    (hI' : CycleInv (s.claim id (.ready ids)) (h.turn s (s.claim id (.ready ids)) id)) :
    CycleKept (s.claim id (.ready ids), h.turn s (s.claim id (.ready ids)) id) ↔
      ((s.task? id).any (·.active) = true → ∀ r ∈ h.ready, r.id = id →
        h.serials id = some r.serial) := by
  obtain ⟨r, later, hp, -, hid, hr, hturns⟩ := hI.next hpc
  have honly (r' : ReadyTask) (hr' : r' ∈ h.ready) (hid' : r'.id = id) : r' = r :=
    List.inj_on_of_nodup_map hI.ids hr' hr (hid'.trans hid.symm)
  have hexecuted : h.executed = (h.turns.filter (·.present)).map fun r => r.ready.serial := hk.executed
  have hcomplete : (h.turn s (s.claim id (.ready ids)) id).finished = true →
      ∀ r' ∈ (h.turn s (s.claim id (.ready ids)) id).ready, ∃ r'' ∈ h.turns ++ [CycleTurn.mk r
      (decide (h.serials id = some r.serial) && (s.task? id).any (·.active))], r''.ready = r' :=
    fun hfinished r' hr' => by
      obtain ⟨r'', hmem, heq⟩ := hk.complete hfinished r' hr'
      exact ⟨r'', List.mem_append_left _ hmem, heq⟩
  rw [hI'.kept_iff, hturns, hI.executed_turn hpc, List.filter_append, List.map_append, hexecuted,
    and_iff_left hcomplete, List.append_cancel_left_eq]
  cases hactive : (s.task? id).any (·.active) with
  | false =>
    rw [Bool.and_false]
    exact iff_of_true rfl fun hfalse => by cases hfalse
  | true =>
    have hknown : ∃ n, h.serials id = some n := by
      obtain ⟨task, htask, -⟩ := (Option.any_eq_true _ _).mp hactive
      obtain ⟨block, hblock, -⟩ := Option.bind_eq_some_iff.mp htask
      exact hI.numbered.known id (AList.mem_of_lookup hblock)
    obtain ⟨n, hserial⟩ := hknown
    rw [hserial, Bool.and_true, if_pos rfl]
    by_cases hn : n = r.serial
    · subst hn
      refine iff_of_true ?_ fun _ r' hr' hid' => by rw [honly r' hr' hid']
      rw [decide_eq_true rfl]
      rfl
    · have hne : ¬ some n = some r.serial := fun heq => hn (Option.some.inj heq)
      refine iff_of_false ?_ fun hall => hne (hall rfl r hr hid)
      rw [decide_eq_false hne]
      exact fun heq => by cases heq

/-- **A cycle that is left has come to all**, exactly if it is not left for the id 0. -/
theorem CycleInv.kept_leave_iff (hI : CycleInv s h) (hk : CycleKept (s, h)) {ids : List ℕ}
    (hpc : s.worker.pc? = some (.cycle (.ready ids)))
    (hwhy : s.running = true → ids = [] ∨ ids.head? = some 0)
    (hI' : CycleInv (s.goto .top) { h with finished := s.running }) :
    CycleKept (s.goto .top, { h with finished := s.running }) ↔
      (ids.head? = some 0 → s.running = false) := by
  obtain ⟨later, hp⟩ := hI.position
  have hids : later.map (·.id) = ids := hp.next ids (by rw [remaining?, hpc]; rfl)
  rw [hI'.kept_iff, and_iff_right hk.executed]
  constructor
  · intro hcomplete hzero
    by_contra hrunning
    cases later with
    | nil =>
      rw [← hids] at hzero
      cases hzero
    | cons r later =>
      -- its turn has not come
      have hr : r ∈ h.ready := hp.perm.mem_iff.mp (List.mem_append_right _ (List.mem_cons_self ..))
      obtain ⟨r', hr', heq⟩ := hcomplete (Bool.not_eq_false _ ▸ hrunning) r hr
      have hnodup := hp.perm.nodup_iff.mpr (List.Nodup.of_map _ hI.ids)
      exact (List.nodup_append.mp hnodup).2.2 r (heq ▸ List.mem_map_of_mem hr') r
        (List.mem_cons_self ..) rfl
  · intro hzero hrunning r hr
    have hnil : later = [] := by
      rcases hwhy hrunning with hnil | hhead
      · exact List.map_eq_nil_iff.mp (hids.trans hnil)
      · exact absurd ((hzero hhead).symm.trans hrunning) (by simp)
    have hmem := hp.perm.mem_iff.mpr hr
    rw [hnil, List.append_nil] at hmem
    exact List.mem_map.mp hmem

theorem turnComes_of_ne {p : CycleRun} {a : TaskAction} (hne : a ≠ .loop .advance) :
    TurnComes p a :=
  ⟨fun _ ha => absurd ha hne, fun _ _ ha => absurd ha hne⟩

theorem turnComes_of_outside {p : CycleRun} {a : TaskAction}
    (hcycle : ∀ ids, p.1.worker.pc? ≠ some (.cycle (.ready ids)))
    (hpicked : ∀ id ids, p.1.worker.pc? ≠ some (.picked id (.ready ids))) : TurnComes p a :=
  ⟨fun ids _ hpc => absurd hpc (hcycle _), fun id ids _ hpc => absurd hpc (hpicked id ids)⟩

/-- **A step of the loop keeps the cycle exactly if the turn comes.** -/
theorem CycleInv.loop_iff (hI : CycleInv s h) (hk : CycleKept (s, h)) {step : LoopStep}
    {h' : CycleRecord} (hI' : CycleInv t h') (hmove : CycleMove s h step t h') :
    CycleKept (t, h') ↔ TurnComes (s, h) (.loop step) := by
  cases hmove with
  | begin now order last hpc horder =>
    refine iff_of_true ?_ (turnComes_of_ne (by simp))
    exact hI'.kept_iff.mpr ⟨rfl, fun hfinished => by cases hfinished⟩
  | next id ids hpc hid =>
    refine iff_of_true (hI'.kept_of_same hk rfl rfl rfl fun hfinished => by cases hfinished) ⟨?_, ?_⟩
    · intro ids' _ hpc'
      obtain ⟨hzero, -⟩ : id = 0 ∧ ids = ids' := by simpa [hpc] using hpc'
      exact absurd hzero hid
    · intro id' ids' _ hpc'
      simp [hpc] at hpc'
  | leave ids hpc hwhy =>
    rw [hI.kept_leave_iff hk hpc hwhy hI']
    constructor
    · refine fun hzero => ⟨fun ids' _ hpc' => hzero ?_, fun id' ids' _ hpc' => ?_⟩
      · have hids : ids = 0 :: ids' := by simpa [hpc] using hpc'
        rw [hids]
        rfl
      · simp [hpc] at hpc'
    · intro hturn hhead
      cases ids with
      | nil => cases hhead
      | cons id ids =>
        obtain ⟨⟩ := hhead
        exact hturn.nonzero ids rfl hpc
  | turn id ids hpc =>
    rw [hI.kept_turn_iff hk hpc hI']
    constructor
    · refine fun hsame => ⟨fun ids' _ hpc' => ?_, fun id' ids' _ hpc' => ?_⟩
      · simp [hpc] at hpc'
      · obtain ⟨hid, -⟩ : id = id' ∧ ids = ids' := by simpa [hpc] using hpc'
        exact hid ▸ hsame
    · exact fun hturn => hturn.same id ids rfl hpc
  | other step t htasks hrest hcycle hpicked =>
    exact iff_of_true (hI'.kept_of_same hk rfl rfl rfl id) (turnComes_of_outside hcycle hpicked)

/-- **A step keeps the cycle exactly if the turn comes.** -/
theorem CycleInv.step_iff (hI : CycleInv s h) (hk : CycleKept (s, h)) {a : TaskAction}
    (hact : s.act a = some t) : CycleKept (t, h.record s a t) ↔ TurnComes (s, h) a := by
  have hI' := hI.step hact
  cases a with
  | addTask unit name constraints now =>
    refine iff_of_true ?_ (turnComes_of_ne (by simp))
    rw [CycleRecord.record] at hI' ⊢
    split_ifs at hI' ⊢
    · exact hI'.kept_of_same hk rfl rfl rfl id
    · exact hI'.kept_of_same hk rfl rfl rfl id
  | loop step => exact hI.loop_iff hk hI' (cycleMove_of_loopStep hact)
  | _ => exact iff_of_true (hI'.kept_of_same hk rfl rfl rfl id) (turnComes_of_ne (by simp))

/-- **Every cycle of a run executes its ready set** exactly as long as its turns come: whatever other
threads and the tasks themselves add and remove meanwhile. -/
theorem cycleKept_iff (policy : SchedulingPolicy) (as : List TaskAction) :
    machine.Always CycleKept (fresh policy) as ↔ machine.Allowed TurnComes (fresh policy) as := by
  have hI : CycleInv (fresh policy).1 (fresh policy).2 := .fresh policy
  have hk : CycleKept (fresh policy) := by
    refine hI.kept_iff.mpr ⟨rfl, fun hfinished => by cases hfinished⟩
  refine Machine.always_iff_allowed (I := fun p : CycleRun => CycleInv p.1 p.2) ?_ ?_ hI hk as
  · intro p a q hI _ hstep
    obtain ⟨hact, hrec⟩ := Machine.withHistory_step.mp hstep
    exact hrec ▸ hI.step hact
  · intro p a q hI hk hstep
    obtain ⟨s, h⟩ := p
    obtain ⟨t, h'⟩ := q
    obtain ⟨hact, hrec⟩ := Machine.withHistory_step.mp hstep
    have hsame : h.record s a t = h' := hrec
    exact hsame ▸ hI.step_iff hk hact

/-! ### The counter of the ids comes to 0 -/

/-- The pool of 128 blocks, one of which has come back. -/
def spentPool : MemoryPool SchedulerTask where
  capacity := poolSize 128
  fresh := 1
  freed := [0]
  blocks := ∅
  fresh_le := by decide
  freed_nodup := List.nodup_singleton 0
  freed_lt := by simp
  mem_blocks b := by
    have hnone : b ∉ (∅ : Table ℕ SchedulerTask) := AList.notMem_empty b
    simp [hnone]

/-- A scheduler without tasks, whose next id is this one. -/
def spent (next : UInt32) : RealTimeScheduler :=
  { RealTimeScheduler.new .roundRobin with taskPool := spentPool, nextTaskId := next }

/-- The first task of it, in block 0. -/
def withTask (next : UInt32) (pool : MemoryPool SchedulerTask) : RealTimeScheduler :=
  { RealTimeScheduler.new .roundRobin with
    taskPool := pool, tasks := AList.insert next.toNat 0 ∅, nextTaskId := next + 1 }

theorem erase_insert_empty {V : Type} (k : ℕ) (v : V) :
    (AList.insert k v (∅ : Table ℕ V)).erase k = ∅ :=
  AList.ext (List.kerase_cons_eq rfl)

theorem removeTask_withTask (next : UInt32) {task : SchedulerTask} {pool : MemoryPool SchedulerTask}
    (hblocks : pool.blocks = AList.insert 0 task ∅) (hidle : task.executing = false)
    (hcapacity : pool.capacity = poolSize 128) (hfresh : pool.fresh = 1) (hfreed : pool.freed = []) :
    ((withTask next pool).removeTask next.toNat).1 = spent (next + 1) := by
  have hid : (withTask next pool).tasks.lookup next.toNat = some 0 := AList.lookup_insert _
  have hblock : (withTask next pool).taskPool.blocks.lookup 0 = some task := by
    change pool.blocks.lookup 0 = some task
    rw [hblocks]
    exact AList.lookup_insert _
  have hmem : 0 ∈ pool.blocks := AList.mem_of_lookup hblock
  have hpool : pool.deallocateObject 0 = spentPool := by
    refine MemoryPool.ext_fields ?_ ?_ ?_ ?_
    · rw [MemoryPool.deallocateObject, dif_pos hmem]
      exact hcapacity
    · rw [MemoryPool.deallocateObject, dif_pos hmem]
      exact hfresh
    · rw [MemoryPool.deallocateObject, dif_pos hmem]
      exact congrArg (0 :: ·) hfreed
    · rw [MemoryPool.deallocateObject_blocks, hblocks]
      exact erase_insert_empty 0 task
  rw [removeTask, hid]
  dsimp only
  rw [hblock]
  dsimp only
  rw [if_neg (by simp [hidle])]
  change ({ withTask next pool with
    taskPool := pool.deallocateObject 0
    tasks := (AList.insert next.toNat 0 ∅ : Table ℕ ℕ).erase next.toNat } : RealTimeScheduler) = _
  rw [hpool, erase_insert_empty]
  rfl

/-- One task more and gone again: the record counts it, and has forgotten it. -/
theorem reachable_spent {next : UInt32} {s : RealTimeScheduler} {n : ℕ}
    (hr : machine.Reachable (s, { issued := n })) (hnext : s.nextTaskId = next)
    {pool : MemoryPool SchedulerTask} {task : SchedulerTask}
    (hadd : (s.addTask 0 "" {} 0).1 = withTask next pool)
    (hblocks : pool.blocks = AList.insert 0 task ∅) (hidle : task.executing = false)
    (hcapacity : pool.capacity = poolSize 128) (hfresh : pool.fresh = 1) (hfreed : pool.freed = []) :
    machine.Reachable (spent (next + 1), { issued := n + 1 }) := by
  have hissue : CycleRecord.record s (.addTask 0 "" {} 0) (withTask next pool) { issued := n } =
      CycleRecord.issue { issued := n } next.toNat := by
    subst hnext
    exact if_neg (Owned.succ_ne _)
  have hforget : CycleRecord.record (withTask next pool) (.removeTask next.toNat) (spent (next + 1))
      (CycleRecord.issue { issued := n } next.toNat) = { issued := n + 1 } := by
    have hserials : Function.update (Function.update (fun _ : ℕ => (none : Option ℕ)) next.toNat
        (some n)) next.toNat none = fun _ => none := by
      rw [Function.update_idem, Function.update_eq_self_iff]
    exact congrArg (fun serials : ℕ → Option ℕ => ({ issued := n + 1, serials } : CycleRecord)) hserials
  refine .step (.removeTask next.toNat) (.step (.addTask 0 "" {} 0) hr trivial
    (t := (withTask next pool, CycleRecord.issue { issued := n } next.toNat)) ?_) trivial ?_
  · exact Machine.withHistory_step.mpr ⟨congrArg some hadd, hissue⟩
  · refine Machine.withHistory_step.mpr ⟨congrArg some ?_, hforget⟩
    exact removeTask_withTask next hblocks hidle hcapacity hfresh hfreed

/-- **The counter takes every value.** -/
theorem exists_spent (n : ℕ) :
    machine.Reachable (spent (UInt32.ofNat (n + 2)), { issued := n + 1 }) := by
  induction n with
  | zero =>
    obtain ⟨block, pool, halloc, hadd⟩ :=
      (RealTimeScheduler.new .roundRobin).addTask_of_room 0 "" {} 0 (by decide)
    cases halloc
    exact reachable_spent (.init (s := fresh .roundRobin) ⟨⟨_, rfl⟩, rfl⟩) rfl
      (congrArg Prod.fst hadd) rfl rfl rfl rfl rfl
  | succ n ih =>
    obtain ⟨block, pool, halloc, hadd⟩ :=
      (spent (UInt32.ofNat (n + 2))).addTask_of_room 0 "" {} 0
        (by change 0 < poolSize 128; decide)
    cases halloc
    have hnext : UInt32.ofNat (n + 2) + 1 = UInt32.ofNat (n + 1 + 2) := by
      rw [show n + 1 + 2 = n + 2 + 1 by omega, UInt32.ofNat_add (n + 2)]
      rfl
    have hr : machine.Reachable (spent (UInt32.ofNat (n + 2) + 1), { issued := n + 1 + 1 }) :=
      reachable_spent ih rfl (congrArg Prod.fst hadd) rfl rfl rfl rfl rfl
    rwa [hnext] at hr

/-- **A task is never executed**: 2³² calls later its id is 0, with which every cycle ends. -/
theorem turn_of_zero : ¬ ∀ p, machine.Reachable p → CycleKept p := by
  intro hall
  have hspent : machine.Reachable (spent 0, { issued := 4294967295 }) :=
    exists_spent 4294967294
  have hrun : (machine.exec (spent 0, { issued := 4294967295 })
      [.addTask 0 "" {} 0, .start true, .loop .advance, .loop .advance, .loop (.select 0 [0]),
        .loop .advance]).any (fun p =>
          p.2.finished && p.2.turns.isEmpty && !p.2.ready.isEmpty) = true := by decide +kernel
  obtain ⟨p, hexec, hp⟩ := (Option.any_eq_true _ _).mp hrun
  simp only [Bool.and_eq_true, Bool.not_eq_true', List.isEmpty_iff, List.isEmpty_eq_false_iff] at hp
  obtain ⟨⟨hfinished, hturns⟩, hready⟩ := hp
  obtain ⟨r, hr⟩ := List.exists_mem_of_ne_nil _ hready
  obtain ⟨r', hr', -⟩ := (hall p (hspent.exec hexec)).complete hfinished r hr
  rw [hturns] at hr'
  exact List.not_mem_nil hr'

end CycleRun

end AxonVex
