import AxonVex.Concurrent.Tasks
import AxonVex.Machinery.Ledger
import AxonVex.Machinery.Machine

/-!
# Scheduling/TaskPool — the blocks of the task pool, and who frees them

A task's block is freed by whoever comes last: `removeTask` and `removeAllTasks`, or the loop when it
finalizes an execution in the middle of which the task was removed.  Every operation on the table is
one critical section of `tasksMutex_`, so a run is a sequence of operations and loop steps in any
order; a ledger beside it follows each task through the block it is in.

* `tasksOwned_iff` — along any run the allocated blocks are the tasks of the table and the removed
  one still executing, every removed task is freed once, and the loop finds its task where it
  claimed it, exactly when no `addTask` is given an id that is in use.
* `addTask_leaks` — after 2³² calls the counter of the ids is back at one that is in use.
-/

namespace AxonVex

open Machinery

/-- What the threads do to a scheduler. -/
inductive TaskAction
  | addTask (unit : UnitPtr) (name : String) (constraints : TimingConstraints) (now : TimePoint)
  | removeTask (taskId : ℕ)
  | removeAllTasks
  | updateTaskConstraints (taskId : ℕ) (constraints : TimingConstraints)
  /-- a step of `schedulerLoop` -/
  | loop (step : RealTimeScheduler.LoopStep)
  /-- the custom scheduler's callback picks an id, whatever it is -/
  | customPick (id : ℕ)
  | start (spawned : Bool)
  | halt
  | pause
  | resume
  /-- a stop has waited for the loop -/
  | join

namespace RealTimeScheduler

variable (s : RealTimeScheduler)

/-- One action; `none` where it waits or does not apply. -/
def act : TaskAction → Option RealTimeScheduler
  | .addTask unit name constraints now => some (s.addTask unit name constraints now).1
  | .removeTask taskId => some (s.removeTask taskId).1
  | .removeAllTasks => some s.removeAllTasks
  | .updateTaskConstraints taskId constraints => some (s.updateTaskConstraints taskId constraints).1
  | .loop step => s.loopStep step
  | .customPick id =>
    match s.worker.pc? with
    | some (.cycle (.custom (left + 1))) =>
      if s.running then
        some (s.goto (if id = 0 then .top else .picked id (.custom left)))
      else none
    | _ => none
  | .start spawned =>
    -- a stale handle is joined first
    if s.loopAlive && !s.running then none else some (s.start false spawned).1
  | .halt => some s.halt
  | .pause => some s.pause
  | .resume => some s.resume
  | .join => if s.loopAlive then none else some { s with worker := .empty }

/-- The block is that of a removed task the loop is still executing. -/
def Pending (b : ℕ) : Prop :=
  s.claimed? = some b ∧ ∃ t, s.taskPool.blocks.lookup b = some t ∧ t.pendingRemoval = true

/-- The blocks whose tasks the action takes out of the table. -/
def removedBlocks : TaskAction → List ℕ
  | .removeTask taskId => (s.tasks.lookup taskId).toList
  | .removeAllTasks => s.tasks.values
  | _ => []

/-- The blocks the action frees. -/
def freedBlocks : TaskAction → List ℕ
  | .loop (.finalize _ _ _) =>
    s.claimed?.toList.filter fun b => (s.taskPool.blocks.lookup b).any (·.pendingRemoval)
  | a => (s.removedBlocks a).filter fun b => !(s.taskPool.blocks.lookup b).any (·.executing)

/-- The block of the task the action adds, read off the table after it. -/
def addedBlock? (t : RealTimeScheduler) : Option ℕ :=
  if t.nextTaskId = s.nextTaskId then none else t.tasks.lookup s.nextTaskId.toNat

/-- The blocks the loop's next step looks into. -/
def readBlocks : List ℕ :=
  match s.worker.pc? with
  | some (.processAsync block _) => [block]
  | some (.processSync block _) => [block]
  | some (.finalizing block _ _) => [block]
  | some .selecting => s.tasks.values
  | some (.cycle _) => s.tasks.values
  | some (.picked id _) => (s.tasks.lookup id).toList
  | some .top => []
  | some .armed => []
  | some (.reporting _ _ _) => []
  | none => []

/-- Removing a task leaves the loop, the ids and the size of the pool. -/
theorem removeTask_frame (taskId : ℕ) :
    (s.removeTask taskId).1.tasks = s.tasks.erase taskId ∧
      (s.removeTask taskId).1.nextTaskId = s.nextTaskId ∧
      (s.removeTask taskId).1.worker = s.worker ∧
      (s.removeTask taskId).1.taskPool.capacity = s.taskPool.capacity := by
  unfold removeTask
  split
  next hnone =>
    exact ⟨(AList.erase_of_notMem (AList.lookup_eq_none.mp hnone)).symm, rfl, rfl, rfl⟩
  next block _ =>
    split
    · exact ⟨rfl, rfl, rfl, rfl⟩
    · split
      · exact ⟨rfl, rfl, rfl, rfl⟩
      · refine ⟨rfl, rfl, rfl, ?_⟩
        unfold MemoryPool.deallocateObject
        split <;> rfl

/-- `addTask` where there is room. -/
theorem addTask_of_room (unit : UnitPtr) (name : String) (constraints : TimingConstraints)
    (now : TimePoint) (hroom : s.taskPool.blocks.keys.length < s.taskPool.capacity) :
    ∃ block pool,
      s.taskPool.allocateObject
        { unit, constraints, name, taskId := s.nextTaskId.toNat
          nextExecution := now + constraints.period, lastExecution := now } = some (block, pool) ∧
      s.addTask unit name constraints now =
        ({ s with
            taskPool := pool
            tasks := s.tasks.insert s.nextTaskId.toNat block
            nextTaskId := s.nextTaskId + 1 }, s.nextTaskId.toNat) := by
  obtain ⟨⟨block, pool⟩, halloc⟩ :=
    Option.isSome_iff_exists.mp (MemoryPool.allocateObject_isSome.mpr hroom)
  exact ⟨block, pool, halloc, by simp only [addTask, halloc]⟩

end RealTimeScheduler

/-- The record of a run: each task by its serial number. -/
structure TaskLedger where
  /-- the tasks in the blocks of the pool -/
  ledger : Ledger ℕ := {}
  /-- the tasks taken out of the table -/
  removed : List ℕ := []
  /-- the task the loop claimed last, while it has the claim -/
  claimedBy : Option ℕ := none

/-- The record after an action. -/
def TaskLedger.record (s : RealTimeScheduler) (a : TaskAction) (t : RealTimeScheduler)
    (h : TaskLedger) : TaskLedger where
  ledger := (match s.addedBlock? t with
    | some b => h.ledger.issue b
    | none => h.ledger).giveBackAll (s.freedBlocks a)
  removed := h.removed ++ (s.removedBlocks a).filterMap h.ledger.holder
  claimedBy := t.claimed?.bind fun b => if s.claimed? = some b then h.claimedBy else h.ledger.holder b

/-- A scheduler and the record of its run. -/
abbrev TaskRun := RealTimeScheduler × TaskLedger

namespace TaskRun

/-- A scheduler as constructed. -/
def fresh (policy : SchedulingPolicy) : TaskRun := (.new policy, {})

/-- **The runs of a scheduler**, from its construction. -/
def machine : Machine TaskRun TaskAction :=
  Machine.withHistory ⟨fun s => ∃ policy, s = .new policy, RealTimeScheduler.act⟩ {} TaskLedger.record

/-- **Blocks and tasks in step.** -/
structure TasksOwned (p : TaskRun) : Prop where
  /-- a block is allocated to a task of the table, or to the removed one still executing -/
  allocated : ∀ b, b ∈ p.1.taskPool.blocks ↔ (∃ id, p.1.tasks.lookup id = some b) ∨ p.1.Pending b
  /-- no two ids share a block -/
  single : ∀ {id id' b}, p.1.tasks.lookup id = some b → p.1.tasks.lookup id' = some b → id = id'
  /-- no task is freed twice, no free block is freed -/
  once : p.2.ledger.returned.Nodup ∧ p.2.ledger.faults = 0
  /-- the tasks freed are those removed, but for the one still executing -/
  freed : ∀ n, n ∈ p.2.ledger.returned ↔
    n ∈ p.2.removed ∧ ¬ ∃ b, p.1.Pending b ∧ p.2.ledger.holder b = some n
  /-- the loop looks into allocated blocks only -/
  present : ∀ b ∈ p.1.readBlocks, b ∈ p.1.taskPool.blocks
  /-- and finds in the block it has claimed the task it claimed -/
  same : ∀ b, p.1.claimed? = some b →
    p.2.claimedBy.isSome = true ∧ p.2.ledger.holder b = p.2.claimedBy

/-- While the loop has its claim on a block, nothing but the loop's own bookkeeping frees it. -/
def FreesUnclaimed (p : TaskRun) (a : TaskAction) : Prop :=
  ∀ b ∈ p.1.freedBlocks a, p.1.claimed? = some b → ∃ x y z, a = .loop (.finalize x y z)

/-- **The condition**: an id that a task is given is not in use. -/
def IdUnused (p : TaskRun) (a : TaskAction) : Prop :=
  ∀ unit name constraints now, a = .addTask unit name constraints now →
    p.1.taskPool.blocks.keys.length < p.1.taskPool.capacity → p.1.nextTaskId.toNat ∉ p.1.tasks

end TaskRun

/-! ## The invariant -/

/-- What decides who frees a task's block. -/
def SchedulerTask.flags (t : SchedulerTask) : Bool × Bool := (t.executing, t.pendingRemoval)

/-- **What every operation keeps**: table, pool, claim and ledger fit together. -/
structure Owned (s : RealTimeScheduler) (h : TaskLedger) : Prop where
  sound : h.ledger.Sound
  /-- the ledger follows the allocated blocks -/
  holds : ∀ b, (h.ledger.holder b).isSome = true ↔ b ∈ s.taskPool.blocks
  table : ∀ {id b}, s.tasks.lookup id = some b →
    ∃ t, s.taskPool.blocks.lookup b = some t ∧ t.pendingRemoval = false
  single : ∀ {id id' b}, s.tasks.lookup id = some b → s.tasks.lookup id' = some b → id = id'
  claimed : ∀ {b}, s.claimed? = some b →
    ∃ t, s.taskPool.blocks.lookup b = some t ∧ t.executing = true
  executing : ∀ {b t}, s.taskPool.blocks.lookup b = some t → t.executing = true →
    s.claimed? = some b
  covered : ∀ {b t}, s.taskPool.blocks.lookup b = some t →
    (∃ id, s.tasks.lookup id = some b) ∨ t.pendingRemoval = true ∧ t.executing = true
  removed : ∀ {b t n}, s.taskPool.blocks.lookup b = some t → h.ledger.holder b = some n →
    (n ∈ h.removed ↔ t.pendingRemoval = true)
  freed : ∀ {n}, n ∈ h.removed → n ∈ h.ledger.returned ∨ ∃ b, h.ledger.holder b = some n
  returned : ∀ {n}, n ∈ h.ledger.returned → n ∈ h.removed
  same : ∀ {b}, s.claimed? = some b → h.claimedBy = h.ledger.holder b

namespace Owned

open RealTimeScheduler MemoryPool

variable {s t : RealTimeScheduler} {h h' : TaskLedger} {b : ℕ} {task : SchedulerTask}

/-- The block of a task that waits for its removal. -/
theorem pending (ho : Owned s h) (hb : s.taskPool.blocks.lookup b = some task)
    (hp : task.pendingRemoval = true) : task.executing = true := by
  rcases ho.covered hb with ⟨id, hid⟩ | ⟨-, he⟩
  · obtain ⟨t, ht, hf⟩ := ho.table hid
    obtain rfl := Option.some.inj (hb.symm.trans ht)
    exact absurd (hp.symm.trans hf) (by simp)
  · exact he

/-- An allocated block has a task in the ledger. -/
theorem exists_holder (ho : Owned s h) (hb : s.taskPool.blocks.lookup b = some task) :
    ∃ n, h.ledger.holder b = some n :=
  Option.isSome_iff_exists.mp ((ho.holds b).mpr (AList.mem_of_lookup hb))

/-- A task of the ledger has an allocated block. -/
theorem exists_task (ho : Owned s h) {n : ℕ} (hb : h.ledger.holder b = some n) :
    ∃ t, s.taskPool.blocks.lookup b = some t :=
  Option.isSome_iff_exists.mp (AList.lookup_isSome.mpr ((ho.holds b).mp (by rw [hb]; rfl)))

/-- Removed tasks have been issued. -/
theorem removed_lt (ho : Owned s h) {n : ℕ} (hn : n ∈ h.removed) : n < h.ledger.issued :=
  (ho.freed hn).elim (ho.sound.past n) fun ⟨_, hb⟩ => ho.sound.below hb

/-- The new scheduler. -/
theorem fresh (policy : SchedulingPolicy) : Owned (.new policy) {} where
  sound := Ledger.sound_empty
  holds b := by simp [RealTimeScheduler.new]
  table hb := absurd hb (by simp [RealTimeScheduler.new])
  single hb := absurd hb (by simp [RealTimeScheduler.new])
  claimed hb := absurd hb (by simp [RealTimeScheduler.new, claimed?])
  executing hb := absurd hb (by simp [RealTimeScheduler.new])
  covered hb := absurd hb (by simp [RealTimeScheduler.new])
  removed hb := absurd hb (by simp [RealTimeScheduler.new])
  freed hn := absurd hn List.not_mem_nil
  returned hn := absurd hn List.not_mem_nil
  same hb := absurd hb (by simp [RealTimeScheduler.new, claimed?])

/-- **It says what the runs promise.** -/
theorem tasksOwned (ho : Owned s h) : TaskRun.TasksOwned (s, h) where
  allocated b := by
    constructor
    · intro hb
      obtain ⟨t, ht⟩ := Option.isSome_iff_exists.mp (AList.lookup_isSome.mpr hb)
      exact (ho.covered ht).imp_right fun ⟨hp, he⟩ => ⟨ho.executing ht he, t, ht, hp⟩
    · rintro (⟨id, hid⟩ | ⟨-, t, ht, -⟩)
      · obtain ⟨t, ht, -⟩ := ho.table hid
        exact AList.mem_of_lookup ht
      · exact AList.mem_of_lookup ht
  single := ho.single
  once := ⟨ho.sound.once, ho.sound.noFault⟩
  freed n := by
    constructor
    · exact fun hn => ⟨ho.returned hn, fun ⟨b, _, hb⟩ => ho.sound.out hb hn⟩
    · rintro ⟨hn, hp⟩
      refine (ho.freed hn).resolve_right fun ⟨b, hb⟩ => hp ⟨b, ?_, hb⟩
      obtain ⟨t, ht⟩ := ho.exists_task hb
      have hpend := (ho.removed ht hb).mp hn
      exact ⟨ho.executing ht (ho.pending ht hpend), t, ht, hpend⟩
  present b hb := by
    have hclaimed (hc : s.claimed? = some b) : b ∈ s.taskPool.blocks := by
      obtain ⟨t, ht, -⟩ := ho.claimed hc
      exact AList.mem_of_lookup ht
    have htable {id : ℕ} (hid : s.tasks.lookup id = some b) : b ∈ s.taskPool.blocks := by
      obtain ⟨t, ht, -⟩ := ho.table hid
      exact AList.mem_of_lookup ht
    change b ∈ s.readBlocks at hb
    unfold readBlocks at hb
    split at hb
    next hpc => exact hclaimed (by rw [claimed?, hpc, List.mem_singleton.mp hb]; rfl)
    next hpc => exact hclaimed (by rw [claimed?, hpc, List.mem_singleton.mp hb]; rfl)
    next hpc => exact hclaimed (by rw [claimed?, hpc, List.mem_singleton.mp hb]; rfl)
    · obtain ⟨id, hid⟩ := AList.mem_values.mp hb
      exact htable hid
    · obtain ⟨id, hid⟩ := AList.mem_values.mp hb
      exact htable hid
    · exact htable (Option.mem_toList.mp hb)
    all_goals exact absurd hb List.not_mem_nil
  same b hb := by
    obtain ⟨t, ht, -⟩ := ho.claimed hb
    obtain ⟨n, hn⟩ := ho.exists_holder ht
    have hs : h.claimedBy = h.ledger.holder b := ho.same hb
    exact ⟨by rw [hs, hn]; rfl, hs.symm⟩

/-! ## Each operation -/

/-- A step that leaves the table, the flags and the claim. -/
theorem of_same (ho : Owned s h) (htasks : t.tasks = s.tasks)
    (hflags : SameOn SchedulerTask.flags s.taskPool t.taskPool) (hclaimed : t.claimed? = s.claimed?)
    (hledger : h'.ledger = h.ledger) (hremoved : h'.removed = h.removed)
    (hsame : ∀ b, s.claimed? = some b → h'.claimedBy = h.claimedBy) : Owned t h' := by
  have hback {b : ℕ} {x : SchedulerTask} (hb : t.taskPool.blocks.lookup b = some x) :
      ∃ y, s.taskPool.blocks.lookup b = some y ∧ y.executing = x.executing ∧
        y.pendingRemoval = x.pendingRemoval := by
    obtain ⟨y, hy, hf⟩ := hflags.symm.exists_lookup hb
    exact ⟨y, hy, congrArg Prod.fst hf, congrArg Prod.snd hf⟩
  have hforth {b : ℕ} {x : SchedulerTask} (hb : s.taskPool.blocks.lookup b = some x) :
      ∃ y, t.taskPool.blocks.lookup b = some y ∧ y.executing = x.executing ∧
        y.pendingRemoval = x.pendingRemoval := by
    obtain ⟨y, hy, hf⟩ := hflags.exists_lookup hb
    exact ⟨y, hy, congrArg Prod.fst hf, congrArg Prod.snd hf⟩
  refine ⟨hledger ▸ ho.sound, fun b => ?_, fun hid => ?_, fun hid hid' => ?_, fun hc => ?_,
    fun hb he => ?_, fun hb => ?_, fun hb hn => ?_, fun hn => ?_, fun hn => ?_, fun hc => ?_⟩
  · rw [hledger, hflags.mem_iff]
    exact ho.holds b
  · obtain ⟨x, hx, hp⟩ := ho.table (htasks ▸ hid)
    obtain ⟨y, hy, -, hp'⟩ := hforth hx
    exact ⟨y, hy, hp'.trans hp⟩
  · exact ho.single (htasks ▸ hid) (htasks ▸ hid')
  · obtain ⟨x, hx, he⟩ := ho.claimed (hclaimed ▸ hc)
    obtain ⟨y, hy, he', -⟩ := hforth hx
    exact ⟨y, hy, he'.trans he⟩
  · obtain ⟨y, hy, he', -⟩ := hback hb
    exact hclaimed ▸ ho.executing hy (he'.trans he)
  · obtain ⟨y, hy, he, hp⟩ := hback hb
    rw [htasks, ← he, ← hp]
    exact ho.covered hy
  · obtain ⟨y, hy, -, hp⟩ := hback hb
    rw [hremoved, ← hp]
    exact ho.removed hy (hledger ▸ hn)
  · rw [hledger]
    exact ho.freed (hremoved ▸ hn)
  · rw [hremoved]
    exact ho.returned (hledger ▸ hn)
  · rw [hledger, hsame _ (hclaimed ▸ hc)]
    exact ho.same (hclaimed ▸ hc)

/-- **A new task** under an id that is not in use. -/
theorem add {pool : MemoryPool SchedulerTask} {id : ℕ} (ho : Owned s h)
    (halloc : s.taskPool.allocateObject task = some (b, pool)) (hid : id ∉ s.tasks)
    (hnew : task.executing = false ∧ task.pendingRemoval = false)
    (htasks : t.tasks = s.tasks.insert id b) (hpool : t.taskPool = pool)
    (hclaimed : t.claimed? = s.claimed?)
    (hledger : h'.ledger = h.ledger.issue b) (hremoved : h'.removed = h.removed)
    (hsame : ∀ b, s.claimed? = some b → h'.claimedBy = h.claimedBy) : Owned t h' := by
  obtain ⟨hfree, hblocks, -⟩ := allocateObject_spec halloc
  have hnone : h.ledger.holder b = none := by
    rw [← Option.not_isSome_iff_eq_none, ho.holds]
    exact hfree
  have hne {c : ℕ} {x : SchedulerTask} (hc : s.taskPool.blocks.lookup c = some x) : c ≠ b := by
    rintro rfl
    exact hfree (AList.mem_of_lookup hc)
  have hlookup {c : ℕ} {x : SchedulerTask} : t.taskPool.blocks.lookup c = some x ↔
      c = b ∧ task = x ∨ c ≠ b ∧ s.taskPool.blocks.lookup c = some x := by
    rw [hpool]
    exact lookup_allocateObject halloc
  have hold {c : ℕ} {x : SchedulerTask} (hc : s.taskPool.blocks.lookup c = some x) :
      t.taskPool.blocks.lookup c = some x := hlookup.mpr (.inr ⟨hne hc, hc⟩)
  have hissued : h.ledger.issued ∉ h.removed := fun hm => lt_irrefl _ (ho.removed_lt hm)
  refine ⟨hledger ▸ ho.sound.issue hnone, fun c => ?_, fun hc => ?_, fun hc hc' => ?_, fun hc => ?_,
    fun hc he => ?_, fun hc => ?_, fun hc hn => ?_, fun hn => ?_, fun hn => ?_, fun hc => ?_⟩
  · rw [hledger, hpool, hblocks, AList.mem_insert]
    by_cases hcb : c = b
    · subst hcb
      simp
    · rw [Ledger.holder_issue_ne hcb, ho.holds]
      simp [hcb]
  · rw [htasks] at hc
    rcases AList.lookup_insert_eq_some.mp hc with ⟨rfl, rfl⟩ | ⟨-, hc⟩
    · exact ⟨task, hlookup.mpr (.inl ⟨rfl, rfl⟩), hnew.2⟩
    · obtain ⟨x, hx, hp⟩ := ho.table hc
      exact ⟨x, hold hx, hp⟩
  · -- the new block is no old task's
    have hold' {i : ℕ} (hi : s.tasks.lookup i = some b) : False := by
      obtain ⟨x, hx, -⟩ := ho.table hi
      exact hne hx rfl
    rw [htasks] at hc hc'
    rcases AList.lookup_insert_eq_some.mp hc with ⟨rfl, rfl⟩ | ⟨-, hi⟩ <;>
      rcases AList.lookup_insert_eq_some.mp hc' with ⟨rfl, hb⟩ | ⟨-, hi'⟩
    · rfl
    · exact (hold' hi').elim
    · exact (hold' (hb ▸ hi)).elim
    · exact ho.single hi hi'
  · obtain ⟨x, hx, he⟩ := ho.claimed (hclaimed ▸ hc)
    exact ⟨x, hold hx, he⟩
  · rcases hlookup.mp hc with ⟨-, rfl⟩ | ⟨-, hc⟩
    · exact absurd (hnew.1.symm.trans he) (by simp)
    · exact hclaimed ▸ ho.executing hc he
  · rcases hlookup.mp hc with ⟨rfl, -⟩ | ⟨-, hc⟩
    · exact .inl ⟨id, by rw [htasks, AList.lookup_insert]⟩
    · refine (ho.covered hc).imp_left fun ⟨i, hi⟩ => ⟨i, ?_⟩
      rw [htasks, AList.lookup_insert_ne, hi]
      rintro rfl
      exact hid (AList.mem_of_lookup hi)
  · rw [hledger] at hn
    rw [hremoved]
    rcases hlookup.mp hc with ⟨rfl, rfl⟩ | ⟨hcb, hc⟩
    · obtain rfl := Option.some.inj (Ledger.holder_issue_self.symm.trans hn)
      exact iff_of_false hissued (by simp [hnew.2])
    · exact ho.removed hc (Ledger.holder_issue_ne hcb ▸ hn)
  · rw [hledger]
    refine (ho.freed (hremoved ▸ hn)).imp_right fun ⟨c, hc⟩ => ⟨c, ?_⟩
    rwa [Ledger.holder_issue_ne]
    rintro rfl
    exact absurd (hnone.symm.trans hc) (by simp)
  · rw [hremoved]
    rw [hledger] at hn
    exact ho.returned hn
  · obtain ⟨x, hx, -⟩ := ho.claimed (hclaimed ▸ hc)
    rw [hledger, Ledger.holder_issue_ne (hne hx), hsame _ (hclaimed ▸ hc)]
    exact ho.same (hclaimed ▸ hc)

/-- A task that leaves the table: in the middle of its execution it stays, marked. -/
def leave (task : SchedulerTask) : Option SchedulerTask :=
  if task.executing then some { task with active := false, pendingRemoval := true } else none

/-- **Tasks leave the table**: the blocks of those not executing are freed. -/
theorem remove (ho : Owned s h) (rs : List ℕ) (hnd : rs.Nodup)
    (hrs : ∀ b ∈ rs, ∃ id, s.tasks.lookup id = some b)
    (htasks : ∀ id b, t.tasks.lookup id = some b ↔ s.tasks.lookup id = some b ∧ b ∉ rs)
    (hblocks : ∀ b, t.taskPool.blocks.lookup b =
      if b ∈ rs then (s.taskPool.blocks.lookup b).bind leave else s.taskPool.blocks.lookup b)
    (hclaimed : t.claimed? = s.claimed?)
    (hledger : h'.ledger = h.ledger.giveBackAll
      (rs.filter fun b => !(s.taskPool.blocks.lookup b).any (·.executing)))
    (hremoved : h'.removed = h.removed ++ rs.filterMap h.ledger.holder)
    (hsame : ∀ b, s.claimed? = some b → h'.claimedBy = h.claimedBy) : Owned t h' := by
  generalize hfs : (rs.filter fun b => !(s.taskPool.blocks.lookup b).any (·.executing)) = fs at hledger
  have hmem {b : ℕ} {x : SchedulerTask} (hb : s.taskPool.blocks.lookup b = some x) :
      b ∈ fs ↔ b ∈ rs ∧ x.executing = false := by
    rw [← hfs, List.mem_filter, hb]
    simp
  have htask {b : ℕ} (hb : b ∈ rs) : ∃ x, s.taskPool.blocks.lookup b = some x := by
    obtain ⟨id, hid⟩ := hrs b hb
    obtain ⟨x, hx, -⟩ := ho.table hid
    exact ⟨x, hx⟩
  have hfsrs {b : ℕ} (hb : b ∈ fs) : b ∈ rs := by
    rw [← hfs] at hb
    exact (List.mem_filter.mp hb).1
  have hfull : ∀ b ∈ fs, (h.ledger.holder b).isSome = true := fun b hb => by
    obtain ⟨x, hx⟩ := htask (hfsrs hb)
    exact (ho.holds b).mpr (AList.mem_of_lookup hx)
  have hfnd : fs.Nodup := hfs ▸ hnd.filter _
  -- what is in a block afterwards was there before
  have hback {b : ℕ} {x : SchedulerTask} (hb : t.taskPool.blocks.lookup b = some x) :
      ∃ y, s.taskPool.blocks.lookup b = some y ∧ x.executing = y.executing ∧ b ∉ fs ∧
        (b ∈ rs ∧ x.pendingRemoval = true ∧ y.executing = true ∨ b ∉ rs ∧ x = y) := by
    rw [hblocks] at hb
    split at hb
    next hbr =>
      obtain ⟨y, hy, hl⟩ := Option.bind_eq_some_iff.mp hb
      unfold leave at hl
      split at hl
      next he =>
        obtain ⟨⟩ := hl
        refine ⟨y, hy, rfl, fun hf => ?_, .inl ⟨hbr, rfl, he⟩⟩
        exact absurd (((hmem hy).mp hf).2.symm.trans he) (by simp)
      · exact absurd hl (by simp)
    next hbr => exact ⟨x, hb, rfl, fun hf => hbr (hfsrs hf), .inr ⟨hbr, rfl⟩⟩
  have hforth {b : ℕ} {y : SchedulerTask} (hb : s.taskPool.blocks.lookup b = some y) (hf : b ∉ fs) :
      ∃ x, t.taskPool.blocks.lookup b = some x ∧ x.executing = y.executing := by
    rw [hblocks]
    split
    next hbr =>
      have he : y.executing = true := by
        by_contra he
        exact hf ((hmem hb).mpr ⟨hbr, by simpa using he⟩)
      exact ⟨{ y with active := false, pendingRemoval := true }, by
        rw [hb, Option.bind_some, leave, if_pos he], rfl⟩
    · exact ⟨y, hb, rfl⟩
  have hholder {b : ℕ} (hf : b ∉ fs) : h'.ledger.holder b = h.ledger.holder b := by
    rw [hledger, Ledger.holder_giveBackAll_of_notMem hf]
  have hret : h'.ledger.returned = h.ledger.returned ++ fs.filterMap h.ledger.holder := by
    rw [hledger, Ledger.returned_giveBackAll hfnd hfull]
  refine ⟨hledger ▸ ho.sound.giveBackAll hfnd hfull, fun b => ?_, fun hid => ?_, fun hid hid' => ?_,
    fun hc => ?_, fun hb he => ?_, fun hb => ?_, fun {b x n} hb hn => ?_, fun {n} hn => ?_,
    fun {n} hn => ?_, fun hc => ?_⟩
  · by_cases hf : b ∈ fs
    · rw [hledger, Ledger.holder_giveBackAll_of_mem hf]
      refine iff_of_false (by simp) fun hb => ?_
      obtain ⟨x, hx⟩ := Option.isSome_iff_exists.mp (AList.lookup_isSome.mpr hb)
      obtain ⟨-, -, -, hnf, -⟩ := hback hx
      exact hnf hf
    · rw [hholder hf, ho.holds]
      constructor <;> intro hb <;>
        obtain ⟨x, hx⟩ := Option.isSome_iff_exists.mp (AList.lookup_isSome.mpr hb)
      · obtain ⟨y, hy, -⟩ := hforth hx hf
        exact AList.mem_of_lookup hy
      · obtain ⟨y, hy, -⟩ := hback hx
        exact AList.mem_of_lookup hy
  · obtain ⟨hid, hbr⟩ := (htasks _ _).mp hid
    obtain ⟨x, hx, hp⟩ := ho.table hid
    exact ⟨x, by rw [hblocks, if_neg hbr, hx], hp⟩
  · exact ho.single ((htasks _ _).mp hid).1 ((htasks _ _).mp hid').1
  · obtain ⟨y, hy, he⟩ := ho.claimed (hclaimed ▸ hc)
    have hf : _ ∉ fs := fun hf => absurd (((hmem hy).mp hf).2.symm.trans he) (by simp)
    obtain ⟨x, hx, he'⟩ := hforth hy hf
    exact ⟨x, hx, he'.trans he⟩
  · obtain ⟨y, hy, he', -⟩ := hback hb
    exact hclaimed ▸ ho.executing hy (he'.symm.trans he)
  · obtain ⟨y, hy, he, -, ⟨-, hp, hey⟩ | ⟨hbr, rfl⟩⟩ := hback hb
    · exact .inr ⟨hp, he.trans hey⟩
    · exact (ho.covered hy).imp_left fun ⟨id, hid⟩ => ⟨id, (htasks _ _).mpr ⟨hid, hbr⟩⟩
  · obtain ⟨y, hy, -, hf, hcase⟩ := hback hb
    rw [hholder hf] at hn
    rw [hremoved, List.mem_append, List.mem_filterMap]
    rcases hcase with ⟨hbr, hp, -⟩ | ⟨hbr, rfl⟩
    · exact iff_of_true (.inr ⟨b, hbr, hn⟩) hp
    · rw [← ho.removed hy hn]
      refine ⟨fun hm => hm.resolve_right ?_, .inl⟩
      rintro ⟨c, hc, hcn⟩
      exact hbr (ho.sound.single hcn hn ▸ hc)
  · rw [hret, List.mem_append, List.mem_filterMap]
    have hkeep {b : ℕ} (hb : h.ledger.holder b = some n) :
        (n ∈ h.ledger.returned ∨ ∃ a ∈ fs, h.ledger.holder a = some n) ∨
          ∃ b, h'.ledger.holder b = some n := by
      by_cases hf : b ∈ fs
      · exact .inl (.inr ⟨b, hf, hb⟩)
      · exact .inr ⟨b, (hholder hf).trans hb⟩
    rw [hremoved, List.mem_append, List.mem_filterMap] at hn
    rcases hn with hn | ⟨b, -, hb⟩
    · rcases ho.freed hn with hn | ⟨b, hb⟩
      · exact .inl (.inl hn)
      · exact hkeep hb
    · exact hkeep hb
  · rw [hremoved, List.mem_append, List.mem_filterMap]
    rw [hret, List.mem_append, List.mem_filterMap] at hn
    rcases hn with hn | ⟨b, hf, hb⟩
    · exact .inl (ho.returned hn)
    · exact .inr ⟨b, hfsrs hf, hb⟩
  · obtain ⟨y, hy, he⟩ := ho.claimed (hclaimed ▸ hc)
    have hf : _ ∉ fs := fun hf => absurd (((hmem hy).mp hf).2.symm.trans he) (by simp)
    rw [hholder hf, hsame _ (hclaimed ▸ hc)]
    exact ho.same (hclaimed ▸ hc)

/-- **A claim**: the loop marks a task of the table. -/
theorem claim (ho : Owned s h) {id : ℕ} (hid : s.tasks.lookup id = some b)
    (hnone : s.claimed? = none) (hclaimed : t.claimed? = some b) (htasks : t.tasks = s.tasks)
    (hpool : t.taskPool = s.taskPool.update b fun x => { x with executing := true })
    (hledger : h'.ledger = h.ledger) (hremoved : h'.removed = h.removed)
    (hsame : h'.claimedBy = h.ledger.holder b) : Owned t h' := by
  have hblocks (c : ℕ) : t.taskPool.blocks.lookup c =
      if c = b then (s.taskPool.blocks.lookup b).map fun x => { x with executing := true }
      else s.taskPool.blocks.lookup c := by
    rw [hpool, update_blocks]
    split
    next hcb => rw [hcb, AList.lookup_modify_self]
    next hcb => rw [AList.lookup_modify_ne hcb]
  -- a task says what it said, but that it is executing
  have hback {c : ℕ} {x : SchedulerTask} (hc : t.taskPool.blocks.lookup c = some x) :
      ∃ y, s.taskPool.blocks.lookup c = some y ∧ y.pendingRemoval = x.pendingRemoval ∧
        (x.executing = true → c = b ∨ y.executing = true) ∧ (c = b → x.executing = true) := by
    rw [hblocks] at hc
    split at hc
    next hcb =>
      subst hcb
      obtain ⟨y, hy, rfl⟩ := Option.map_eq_some_iff.mp hc
      exact ⟨y, hy, rfl, fun _ => .inl rfl, fun _ => rfl⟩
    next hcb => exact ⟨x, hc, rfl, .inr, fun he => absurd he hcb⟩
  have hmem (c : ℕ) : c ∈ t.taskPool.blocks ↔ c ∈ s.taskPool.blocks := by
    rw [hpool, update_blocks, AList.mem_modify]
  have hforth {c : ℕ} {y : SchedulerTask} (hc : s.taskPool.blocks.lookup c = some y) :
      ∃ x, t.taskPool.blocks.lookup c = some x ∧ x.pendingRemoval = y.pendingRemoval := by
    obtain ⟨x, hx⟩ := Option.isSome_iff_exists.mp
      (AList.lookup_isSome.mpr ((hmem c).mpr (AList.mem_of_lookup hc)))
    obtain ⟨y', hy', hp, -⟩ := hback hx
    obtain rfl := Option.some.inj (hc.symm.trans hy')
    exact ⟨x, hx, hp.symm⟩
  refine ⟨hledger ▸ ho.sound, fun c => ?_, fun hc => ?_, fun hc hc' => ?_, fun {c} hc => ?_,
    fun {c x} hc he => ?_, fun hc => ?_, fun hc hn => ?_, fun hn => ?_, fun hn => ?_, fun hc => ?_⟩
  · rw [hledger, hmem]
    exact ho.holds c
  · obtain ⟨y, hy, hp⟩ := ho.table (htasks ▸ hc)
    obtain ⟨x, hx, hp'⟩ := hforth hy
    exact ⟨x, hx, hp'.trans hp⟩
  · exact ho.single (htasks ▸ hc) (htasks ▸ hc')
  · obtain rfl := Option.some.inj (hclaimed.symm.trans hc)
    obtain ⟨y, hy, -⟩ := ho.table hid
    obtain ⟨x, hx, -⟩ := hforth hy
    obtain ⟨-, -, -, -, he⟩ := hback hx
    exact ⟨x, hx, he rfl⟩
  · obtain ⟨y, hy, -, hex, -⟩ := hback hc
    rcases hex he with rfl | he'
    · exact hclaimed
    · exact absurd (hnone.symm.trans (ho.executing hy he')) (by simp)
  · obtain ⟨y, hy, hp, -⟩ := hback hc
    rw [htasks]
    refine (ho.covered hy).imp_right fun ⟨_, he⟩ => ?_
    exact absurd (hnone.symm.trans (ho.executing hy he)) (by simp)
  · obtain ⟨y, hy, hp, -⟩ := hback hc
    rw [hremoved, ← hp]
    exact ho.removed hy (hledger ▸ hn)
  · rw [hledger]
    exact ho.freed (hremoved ▸ hn)
  · rw [hremoved]
    exact ho.returned (hledger ▸ hn)
  · obtain rfl := Option.some.inj (hclaimed.symm.trans hc)
    rw [hsame, hledger]

/-- **The end of an execution**: the claim is released, and a task that waits for its removal is
freed. -/
theorem finalize {final : SchedulerTask} (ho : Owned s h) (hb : s.claimed? = some b)
    (htask : s.taskPool.blocks.lookup b = some task)
    (hfinal : final.executing = false ∧ final.pendingRemoval = task.pendingRemoval)
    (hclaimed : t.claimed? = none) (htasks : t.tasks = s.tasks)
    (hblocks : ∀ c, t.taskPool.blocks.lookup c =
      if c = b then (if task.pendingRemoval then none else some final)
      else s.taskPool.blocks.lookup c)
    (hledger : h'.ledger = h.ledger.giveBackAll (if task.pendingRemoval then [b] else []))
    (hremoved : h'.removed = h.removed) : Owned t h' := by
  -- nothing else is executing
  have hidle {c : ℕ} {x : SchedulerTask} (hc : t.taskPool.blocks.lookup c = some x) :
      x.executing = false := by
    rw [hblocks] at hc
    split at hc
    · split at hc
      · cases hc
      · exact Option.some.inj hc ▸ hfinal.1
    next hcb =>
      by_contra he
      rw [Bool.not_eq_false] at he
      exact hcb (Option.some.inj ((ho.executing hc he).symm.trans hb))
  cases hp : task.pendingRemoval with
  | true =>
    simp only [hp, if_true] at hblocks hledger
    obtain ⟨n, hn⟩ := ho.exists_holder htask
    have hfull : ∀ c ∈ [b], (h.ledger.holder c).isSome = true := by
      simp [hn]
    have hnd : [b].Nodup := List.nodup_singleton b
    have hback {c : ℕ} {x : SchedulerTask} (hc : t.taskPool.blocks.lookup c = some x) :
        c ≠ b ∧ s.taskPool.blocks.lookup c = some x := by
      rw [hblocks] at hc
      split at hc
      · cases hc
      next hcb => exact ⟨hcb, hc⟩
    have hholder {c : ℕ} (hcb : c ≠ b) : h'.ledger.holder c = h.ledger.holder c := by
      rw [hledger, Ledger.holder_giveBackAll_of_notMem (by simpa using hcb)]
    have hret : h'.ledger.returned = h.ledger.returned ++ [n] := by
      rw [hledger, Ledger.returned_giveBackAll hnd hfull]
      simp [hn]
    have hnb {id : ℕ} (hid : s.tasks.lookup id = some b) : False := by
      obtain ⟨x, hx, hpx⟩ := ho.table hid
      obtain rfl := Option.some.inj (htask.symm.trans hx)
      exact absurd (hp.symm.trans hpx) (by simp)
    refine ⟨hledger ▸ ho.sound.giveBackAll hnd hfull, fun c => ?_, fun {id c} hc => ?_,
      fun hc hc' => ho.single (htasks ▸ hc) (htasks ▸ hc'), fun hc => absurd (hclaimed.symm.trans hc) (by simp),
      fun hc he => absurd ((hidle hc).symm.trans he) (by simp), fun hc => ?_, fun hc hm => ?_,
      fun {m} hm => ?_, fun {m} hm => ?_, fun hc => absurd (hclaimed.symm.trans hc) (by simp)⟩
    · by_cases hcb : c = b
      · subst hcb
        rw [hledger, Ledger.holder_giveBackAll_of_mem (by simp), ← AList.lookup_isSome, hblocks,
          if_pos rfl]
        simp
      · rw [hholder hcb, ho.holds, ← AList.lookup_isSome, ← AList.lookup_isSome, hblocks, if_neg hcb]
    · have hid : s.tasks.lookup id = some c := htasks ▸ hc
      obtain ⟨x, hx, hpx⟩ := ho.table hid
      refine ⟨x, ?_, hpx⟩
      rw [hblocks, if_neg (fun hcb => hnb (hcb ▸ hid)), hx]
    · obtain ⟨hcb, hx⟩ := hback hc
      rw [htasks]
      exact ho.covered hx
    · obtain ⟨hcb, hx⟩ := hback hc
      rw [hremoved]
      exact ho.removed hx (hholder hcb ▸ hm)
    · rw [hret, List.mem_append, List.mem_singleton]
      rcases ho.freed (hremoved ▸ hm) with hm | ⟨c, hc⟩
      · exact .inl (.inl hm)
      · by_cases hcb : c = b
        · exact .inl (.inr (Option.some.inj (hc.symm.trans (hcb ▸ hn))))
        · exact .inr ⟨c, (hholder hcb).trans hc⟩
    · rw [hremoved]
      rw [hret, List.mem_append, List.mem_singleton] at hm
      rcases hm with hm | rfl
      · exact ho.returned hm
      · exact (ho.removed htask hn).mpr hp
  | false =>
    simp only [hp, Bool.false_eq_true, if_false, Ledger.giveBackAll_nil] at hblocks hledger
    have hback {c : ℕ} {x : SchedulerTask} (hc : t.taskPool.blocks.lookup c = some x) :
        ∃ y, s.taskPool.blocks.lookup c = some y ∧ y.pendingRemoval = x.pendingRemoval := by
      rw [hblocks] at hc
      split at hc
      next hcb => exact ⟨task, hcb ▸ htask, Option.some.inj hc ▸ hfinal.2.symm⟩
      · exact ⟨x, hc, rfl⟩
    have hmem (c : ℕ) : c ∈ t.taskPool.blocks ↔ c ∈ s.taskPool.blocks := by
      rw [← AList.lookup_isSome, ← AList.lookup_isSome, hblocks]
      split
      next hcb => rw [hcb, htask]; simp
      · rfl
    have hforth {c : ℕ} {y : SchedulerTask} (hc : s.taskPool.blocks.lookup c = some y) :
        ∃ x, t.taskPool.blocks.lookup c = some x ∧ x.pendingRemoval = y.pendingRemoval := by
      obtain ⟨x, hx⟩ := Option.isSome_iff_exists.mp
        (AList.lookup_isSome.mpr ((hmem c).mpr (AList.mem_of_lookup hc)))
      obtain ⟨y', hy', hpy⟩ := hback hx
      obtain rfl := Option.some.inj (hc.symm.trans hy')
      exact ⟨x, hx, hpy.symm⟩
    refine ⟨hledger ▸ ho.sound, fun c => ?_, fun hc => ?_,
      fun hc hc' => ho.single (htasks ▸ hc) (htasks ▸ hc'), fun hc => absurd (hclaimed.symm.trans hc) (by simp),
      fun hc he => absurd ((hidle hc).symm.trans he) (by simp), fun {c x} hc => ?_, fun hc hm => ?_,
      fun hm => ?_, fun hm => ?_, fun hc => absurd (hclaimed.symm.trans hc) (by simp)⟩
    · rw [hledger, hmem]
      exact ho.holds c
    · obtain ⟨y, hy, hpy⟩ := ho.table (htasks ▸ hc)
      obtain ⟨x, hx, hpx⟩ := hforth hy
      exact ⟨x, hx, hpx.trans hpy⟩
    · obtain ⟨y, hy, hpy⟩ := hback hc
      rw [htasks]
      rcases ho.covered hy with hid | ⟨hpend, he⟩
      · exact .inl hid
      · -- a task that waits for its removal is the claimed one, and that one does not wait
        obtain rfl := Option.some.inj ((ho.executing hy he).symm.trans hb)
        obtain rfl := Option.some.inj (hy.symm.trans htask)
        exact absurd (hpend.symm.trans hp) (by simp)
    · obtain ⟨y, hy, hpy⟩ := hback hc
      rw [hremoved, ← hpy]
      exact ho.removed hy (hledger ▸ hm)
    · rw [hledger]
      exact ho.freed (hremoved ▸ hm)
    · rw [hremoved]
      exact ho.returned (hledger ▸ hm)

/-! ## One action -/

variable {a : TaskAction}

/-- The record keeps the task of a claim that goes on. -/
theorem record_claimedBy (hc : t.claimed? = s.claimed?) :
    ∀ b, s.claimed? = some b → (h.record s a t).claimedBy = h.claimedBy := by
  intro b hb
  simp [TaskLedger.record, hc, hb]

/-- An action that adds no task, removes none and frees none. -/
theorem quiet (ho : Owned s h) (hfreed : s.freedBlocks a = []) (hrem : s.removedBlocks a = [])
    (htasks : t.tasks = s.tasks) (hnext : t.nextTaskId = s.nextTaskId)
    (hflags : SameOn SchedulerTask.flags s.taskPool t.taskPool) (hclaimed : t.claimed? = s.claimed?) :
    Owned t (h.record s a t) :=
  ho.of_same htasks hflags hclaimed
    (by simp [TaskLedger.record, addedBlock?, hnext, hfreed])
    (by simp [TaskLedger.record, hrem]) (record_claimedBy hclaimed)

theorem succ_ne (n : UInt32) : n + 1 ≠ n := by
  intro hn
  have := congrArg UInt32.toNat hn
  rw [UInt32.toNat_add] at this
  have hlt := n.toNat_lt
  simp only [UInt32.toNat_one] at this
  omega

/-- `addTask`. -/
theorem step_addTask (ho : Owned s h) (unit : UnitPtr) (name : String)
    (constraints : TimingConstraints) (now : TimePoint)
    (hG : TaskRun.IdUnused (s, h) (.addTask unit name constraints now)) :
    Owned (s.addTask unit name constraints now).1
      (h.record s (.addTask unit name constraints now) (s.addTask unit name constraints now).1) := by
  unfold addTask
  dsimp only
  split
  · exact ho.quiet rfl rfl rfl rfl (.refl _) rfl
  next block pool halloc =>
    have hid : s.nextTaskId.toNat ∉ s.tasks := hG unit name constraints now rfl
      (allocateObject_isSome.mp (Option.isSome_iff_exists.mpr ⟨_, halloc⟩))
    refine ho.add halloc hid ⟨rfl, rfl⟩ rfl rfl rfl ?_ ?_ (record_claimedBy rfl)
    · simp [TaskLedger.record, addedBlock?, succ_ne, freedBlocks, removedBlocks]
    · simp [TaskLedger.record, removedBlocks]

/-- Removing a task touches its own block only. -/
theorem lookup_removeTask {taskId : ℕ} (hid : s.tasks.lookup taskId = some b) (c : ℕ) :
    (s.removeTask taskId).1.taskPool.blocks.lookup c =
      if c = b then (s.taskPool.blocks.lookup c).bind leave else s.taskPool.blocks.lookup c := by
  unfold removeTask
  simp only [hid]
  cases ht : s.taskPool.blocks.lookup b with
  | none =>
    by_cases hc : c = b
    · subst hc
      simp [ht]
    · simp [hc]
  | some task =>
    by_cases hc : c = b
    · subst hc
      by_cases he : task.executing = true <;> simp [he, ht, leave]
    · by_cases he : task.executing = true <;> simp [he, hc, AList.lookup_modify_ne hc]

/-- `removeTask`. -/
theorem step_removeTask (ho : Owned s h) (taskId : ℕ) :
    Owned (s.removeTask taskId).1 (h.record s (.removeTask taskId) (s.removeTask taskId).1) := by
  cases hid : s.tasks.lookup taskId with
  | none =>
    have hsame : (s.removeTask taskId).1 = s := by rw [removeTask, hid]
    rw [hsame]
    exact ho.quiet (by simp [freedBlocks, removedBlocks, hid]) (by simp [removedBlocks, hid]) rfl rfl
      (.refl _) rfl
  | some b =>
    obtain ⟨task, ht, -⟩ := ho.table hid
    have hother {id c : ℕ} (hc : s.tasks.lookup id = some c) : id ≠ taskId ↔ c ∉ [b] := by
      rw [List.mem_singleton, not_iff_not]
      constructor
      · rintro rfl
        exact Option.some.inj (hc.symm.trans hid)
      · rintro rfl
        exact ho.single hc hid
    obtain ⟨htasks, hnext, hworker, -⟩ := s.removeTask_frame taskId
    have hclaimed : (s.removeTask taskId).1.claimed? = s.claimed? := by rw [claimed?, claimed?, hworker]
    have hblocks (c : ℕ) : (s.removeTask taskId).1.taskPool.blocks.lookup c =
        if c ∈ [b] then (s.taskPool.blocks.lookup c).bind leave else s.taskPool.blocks.lookup c := by
      simp only [lookup_removeTask hid, List.mem_singleton]
    refine ho.remove [b] (List.nodup_singleton b) (fun c hc => ?_) (fun id c => ?_) hblocks
      hclaimed ?_ ?_ (record_claimedBy hclaimed)
    · exact ⟨taskId, by rw [List.mem_singleton.mp hc, hid]⟩
    · rw [htasks, AList.lookup_erase_eq_some, and_comm]
      exact and_congr_right fun hc => hother hc
    · simp [TaskLedger.record, addedBlock?, hnext, freedBlocks, removedBlocks, hid]
    · simp [TaskLedger.record, removedBlocks, hid]

/-- The blocks of the table are different. -/
theorem nodup_values (ho : Owned s h) : s.tasks.values.Nodup := by
  refine List.Nodup.map_on (fun e he e' he' heq => ?_) s.tasks.nodupKeys.nodup
  obtain ⟨id, b⟩ := e
  obtain ⟨id', b'⟩ := e'
  obtain rfl : b = b' := heq
  rw [ho.single (AList.mem_lookup_iff.mpr he) (AList.mem_lookup_iff.mpr he')]

/-- A task that is released leaves its own block only. -/
theorem lookup_releaseTask (p : MemoryPool SchedulerTask) (b c : ℕ) :
    (releaseTask p b).blocks.lookup c =
      if c = b then (p.blocks.lookup c).bind leave else p.blocks.lookup c := by
  unfold releaseTask
  cases ht : p.blocks.lookup b with
  | none =>
    by_cases hc : c = b
    · subst hc
      simp [ht]
    · simp [hc]
  | some task =>
    by_cases hc : c = b
    · subst hc
      by_cases he : task.executing = true <;> simp [he, ht, leave]
    · by_cases he : task.executing = true <;> simp [he, hc, AList.lookup_modify_ne hc]

/-- Releasing several tasks, each once. -/
theorem lookup_foldl_releaseTask (bs : List ℕ) (hnd : bs.Nodup) (p : MemoryPool SchedulerTask)
    (c : ℕ) : (bs.foldl releaseTask p).blocks.lookup c =
      if c ∈ bs then (p.blocks.lookup c).bind leave else p.blocks.lookup c := by
  induction bs generalizing p with
  | nil => simp
  | cons b bs ih =>
    obtain ⟨hb, hnd⟩ := List.nodup_cons.mp hnd
    rw [List.foldl_cons, ih hnd, lookup_releaseTask]
    by_cases hc : c = b
    · subst hc
      simp [hb]
    · simp [hc]

/-- `removeAllTasks`. -/
theorem step_removeAllTasks (ho : Owned s h) :
    Owned s.removeAllTasks (h.record s .removeAllTasks s.removeAllTasks) := by
  refine ho.remove s.tasks.values ho.nodup_values (fun b hb => AList.mem_values.mp hb)
    (fun id b => ?_) (fun b => lookup_foldl_releaseTask _ ho.nodup_values _ b) rfl ?_ ?_ (record_claimedBy rfl)
  · refine iff_of_false (by simp [removeAllTasks]) ?_
    rintro ⟨hid, hb⟩
    exact hb (AList.mem_values.mpr ⟨id, hid⟩)
  · simp [TaskLedger.record, addedBlock?, removeAllTasks, freedBlocks, removedBlocks]
  · simp [TaskLedger.record, removedBlocks]

/-- The bookkeeping step is taken at its own place in the loop only. -/
theorem exists_of_finalize {x y z : TimePoint} (hstep : s.loopStep (.finalize x y z) = some t) :
    ∃ block success plan, s.worker.pc? = some (.finalizing block success plan) ∧
      s.finalizeTaskExecution block plan ⟨success, x, y⟩ z = t := by
  cases hpc : s.worker.pc? with
  | none => simp [loopStep, hpc] at hstep
  | some pc =>
    cases pc with
    | finalizing block success plan =>
      exact ⟨block, success, plan, rfl, by simpa [loopStep, hpc] using hstep⟩
    | _ => simp [loopStep, hpc] at hstep

/-- The bookkeeping at the end of an execution. -/
theorem step_finalize (ho : Owned s h) {x y z : TimePoint}
    (hstep : s.loopStep (.finalize x y z) = some t) :
    Owned t (h.record s (.loop (.finalize x y z)) t) := by
  obtain ⟨block, success, plan, hpc, rfl⟩ := exists_of_finalize hstep
  have hclaimed : s.claimed? = some block := by rw [claimed?, hpc]; rfl
  obtain ⟨task, ht, -⟩ := ho.claimed hclaimed
  have hspec : ∃ final, final.executing = false ∧ final.pendingRemoval = task.pendingRemoval ∧
      (s.finalizeTaskExecution block plan ⟨success, x, y⟩ z).claimed? = none ∧
      (s.finalizeTaskExecution block plan ⟨success, x, y⟩ z).tasks = s.tasks ∧
      (s.finalizeTaskExecution block plan ⟨success, x, y⟩ z).nextTaskId = s.nextTaskId ∧
      ∀ c, (s.finalizeTaskExecution block plan ⟨success, x, y⟩ z).taskPool.blocks.lookup c =
        if c = block then (if task.pendingRemoval then none else some final)
        else s.taskPool.blocks.lookup c := by
    refine ⟨(finalizeTask task ⟨success, x, y⟩ z).1, ?_, ?_, ?_, ?_, ?_, fun c => ?_⟩
    · unfold finalizeTask
      split <;> rfl
    · exact congrArg Prod.snd (key_finalizeTask task ⟨success, x, y⟩ z)
    · simp only [finalizeTaskExecution, ht, claimed?, WorkerThread.pc?_running, Option.bind_some]
      split <;> rfl
    · simp only [finalizeTaskExecution, ht]
    · simp only [finalizeTaskExecution, ht]
    · simp only [finalizeTaskExecution, ht]
      by_cases hc : c = block
      · subst hc
        cases hp : task.pendingRemoval <;> simp [ht]
      · cases hp : task.pendingRemoval <;> simp [hc, AList.lookup_modify_ne hc]
  obtain ⟨final, he, hp, hnone, htasks, hnext, hblocks⟩ := hspec
  refine ho.finalize hclaimed ht ⟨he, hp⟩ hnone htasks hblocks ?_ ?_
  · have hfreed : s.freedBlocks (.loop (.finalize x y z)) =
        if task.pendingRemoval then [block] else [] := by
      simp only [freedBlocks, hclaimed, Option.toList_some, List.filter_singleton, ht,
        Option.any_some]
      cases task.pendingRemoval <;> rfl
    simp [TaskLedger.record, addedBlock?, hnext, hfreed]
  · simp [TaskLedger.record, removedBlocks]

/-- The flags the reactivation pass leaves. -/
theorem flags_reactivateAll (now : TimePoint) :
    SameOn SchedulerTask.flags s.taskPool (s.reactivateAll now).taskPool :=
  sameOn_foldl_update (fun task => by unfold reactivate; split <;> rfl) _ _

/-- The other steps of the loop. -/
theorem step_loop (ho : Owned s h) {step : LoopStep} (hstep : s.loopStep step = some t) :
    Owned t (h.record s (.loop step) t) := by
  by_cases hfin : ∃ x y z, step = .finalize x y z
  · obtain ⟨x, y, z, rfl⟩ := hfin
    exact ho.step_finalize hstep
  · have hfreed : s.freedBlocks (.loop step) = [] := by
      cases step <;> first | rfl | exact absurd ⟨_, _, _, rfl⟩ hfin
    cases loopMove_of_loopStep hstep with
    | exit hpc _ =>
      refine ho.quiet hfreed rfl rfl rfl (.refl _) ?_
      rcases hpc with hpc | hpc <;> simp [claimed?, hpc, LoopPc.claimed?]
    | arm hpc _ _ => exact ho.quiet hfreed rfl rfl rfl (.refl _) (by simp [claimed?, hpc, goto, LoopPc.claimed?])
    | wake hpc _ => exact ho.quiet hfreed rfl rfl rfl (.refl _) (by simp [claimed?, hpc, goto, LoopPc.claimed?])
    | select now plan last hpc =>
      exact ho.quiet hfreed rfl rfl rfl (flags_reactivateAll now)
        (by simp [claimed?, hpc, LoopPc.claimed?])
    | endCycle plan hpc => exact ho.quiet hfreed rfl rfl rfl (.refl _) (by simp [claimed?, hpc, goto, LoopPc.claimed?])
    | pick id plan plan' hpc _ _ =>
      exact ho.quiet hfreed rfl rfl rfl (.refl _) (by simp [claimed?, hpc, goto, LoopPc.claimed?])
    | claim id plan hpc =>
      have hnone : s.claimed? = none := by simp [claimed?, hpc, LoopPc.claimed?]
      have hgoto : (s.goto (.cycle plan)).claimed? = s.claimed? := by
        rw [hnone]
        rfl
      unfold RealTimeScheduler.claim
      split
      next block task hid _ =>
        split
        · refine ho.claim hid hnone rfl rfl rfl ?_ ?_ ?_
          · simp [TaskLedger.record, addedBlock?, hfreed]
          · simp [TaskLedger.record, removedBlocks]
          · simp [TaskLedger.record, claimed?, hpc, LoopPc.claimed?]
        · exact ho.quiet hfreed rfl rfl rfl (.refl _) hgoto
      · exact ho.quiet hfreed rfl rfl rfl (.refl _) hgoto
    | asyncDone block plan hpc =>
      exact ho.quiet hfreed rfl rfl rfl (.refl _) (by simp [claimed?, hpc, goto, LoopPc.claimed?])
    | bodyDone block success plan hpc =>
      refine ho.quiet hfreed rfl rfl rfl (.refl _) ?_
      rcases hpc with hpc | hpc <;> simp [claimed?, hpc, goto, LoopPc.claimed?]
    | finalize block plan result now hpc =>
      -- from there only the bookkeeping goes on
      exfalso
      cases step with
      | finalize x y z => exact hfin ⟨x, y, z, rfl⟩
      | _ => exact absurd hstep (by simp [loopStep, hpc])
    | report unit times plan hpc =>
      exact ho.quiet hfreed rfl rfl rfl (.refl _) (by simp [claimed?, hpc, goto, LoopPc.claimed?])

/-- **Every action the condition allows keeps table, pool, claim and ledger together.** -/
theorem step (ho : Owned s h) (hG : TaskRun.IdUnused (s, h) a) (hstep : s.act a = some t) :
    Owned t (h.record s a t) := by
  cases a with
  | addTask unit name constraints now =>
    obtain ⟨⟩ := hstep
    exact ho.step_addTask unit name constraints now hG
  | removeTask taskId =>
    obtain ⟨⟩ := hstep
    exact ho.step_removeTask taskId
  | removeAllTasks =>
    obtain ⟨⟩ := hstep
    exact ho.step_removeAllTasks
  | updateTaskConstraints taskId constraints =>
    obtain ⟨⟩ := hstep
    unfold updateTaskConstraints
    split
    · exact ho.quiet rfl rfl rfl rfl (.refl _) rfl
    · exact ho.quiet rfl rfl rfl rfl (sameOn_update fun _ _ => rfl) rfl
  | loop step => exact ho.step_loop hstep
  | customPick id =>
    simp only [act] at hstep
    split at hstep
    next left hpc =>
      split at hstep
      · obtain ⟨⟩ := hstep
        refine ho.quiet rfl rfl rfl rfl (.refl _) ?_
        simp only [claimed?, hpc, goto, WorkerThread.pc?_running, Option.bind_some]
        split <;> rfl
      · cases hstep
    · cases hstep
  | start spawned =>
    simp only [act] at hstep
    split at hstep
    · cases hstep
    next hwait =>
      obtain ⟨⟩ := hstep
      unfold RealTimeScheduler.start
      split
      · exact ho.quiet rfl rfl rfl rfl (.refl _) rfl
      next hrun =>
        -- there is no loop, and so no claim
        have hnone : s.claimed? = none := by
          rw [Bool.false_or, Bool.not_eq_true] at hrun
          rw [hrun, Bool.not_false, Bool.and_true, Bool.not_eq_true, loopAlive,
            WorkerThread.not_alive_iff] at hwait
          rcases hwait with hw | hw <;> simp [claimed?, hw]
        split <;> exact ho.quiet rfl rfl rfl rfl (.refl _) (by rw [hnone]; rfl)
  | join =>
    simp only [act] at hstep
    split at hstep
    · cases hstep
    next halive =>
      obtain ⟨⟩ := hstep
      refine ho.quiet rfl rfl rfl rfl (.refl _) ?_
      rw [Bool.not_eq_true, loopAlive, WorkerThread.not_alive_iff] at halive
      rcases halive with hw | hw <;> simp [claimed?, hw]
  | _ =>
    obtain ⟨⟩ := hstep
    exact ho.quiet rfl rfl rfl rfl (.refl _) rfl

/-- A task that is given an id in use leaves the other's block allocated, neither in the table nor
waiting. -/
theorem exists_leaked (ho : Owned s h) (unit : UnitPtr) (name : String)
    (constraints : TimingConstraints) (now : TimePoint)
    (hroom : s.taskPool.blocks.keys.length < s.taskPool.capacity)
    (hid : s.nextTaskId.toNat ∈ s.tasks) :
    ∃ old ∈ (s.addTask unit name constraints now).1.taskPool.blocks,
      ¬ ((∃ id, (s.addTask unit name constraints now).1.tasks.lookup id = some old) ∨
        (s.addTask unit name constraints now).1.Pending old) := by
  obtain ⟨old, hold⟩ := Option.isSome_iff_exists.mp (AList.lookup_isSome.mpr hid)
  obtain ⟨task, ht, hpend⟩ := ho.table hold
  obtain ⟨block, pool, halloc, hadd⟩ := s.addTask_of_room unit name constraints now hroom
  rw [hadd]
  obtain ⟨hfree, -, -⟩ := allocateObject_spec halloc
  have hne : old ≠ block := by
    rintro rfl
    exact hfree (AList.mem_of_lookup ht)
  have hlook : pool.blocks.lookup old = some task :=
    (lookup_allocateObject halloc).mpr (.inr ⟨hne, ht⟩)
  refine ⟨old, AList.mem_of_lookup hlook, ?_⟩
  rintro (⟨id, hi⟩ | ⟨-, x, hx, hpx⟩)
  · rcases AList.lookup_insert_eq_some.mp hi with ⟨-, hb⟩ | ⟨hne', hi⟩
    · exact hne hb.symm
    · exact hne' (ho.single hi hold)
  · obtain rfl := Option.some.inj (hlook.symm.trans hx)
    exact absurd (hpx.symm.trans hpend) (by simp)

/-- A task that is given an id in use leaks the other's block. -/
theorem leaks (ho : Owned s h) (unit : UnitPtr) (name : String) (constraints : TimingConstraints)
    (now : TimePoint) (hroom : s.taskPool.blocks.keys.length < s.taskPool.capacity)
    (hid : s.nextTaskId.toNat ∈ s.tasks) (h' : TaskLedger) :
    ¬ TaskRun.TasksOwned ((s.addTask unit name constraints now).1, h') := by
  intro hp
  obtain ⟨old, hmem, hleaked⟩ := ho.exists_leaked unit name constraints now hroom hid
  exact hleaked ((hp.allocated old).mp hmem)

/-- What an action frees is not being executed. -/
theorem freesUnclaimed (ho : Owned s h) (a : TaskAction) : TaskRun.FreesUnclaimed (s, h) a := by
  intro b hb hc
  obtain ⟨task, ht, he⟩ := ho.claimed hc
  unfold freedBlocks at hb
  split at hb
  · exact ⟨_, _, _, rfl⟩
  · simp [ht, he] at hb

/-- Without a claim, there are no more blocks than tasks. -/
theorem length_blocks_le (ho : Owned s h) (hnone : s.claimed? = none) :
    s.taskPool.blocks.keys.length ≤ s.tasks.keys.length := by
  have hsub : s.taskPool.blocks.keys ⊆ s.tasks.values := by
    intro b hb
    obtain ⟨task, ht⟩ := Option.isSome_iff_exists.mp (AList.lookup_isSome.mpr (AList.mem_keys.mpr hb))
    rcases ho.covered ht with hid | ⟨-, he⟩
    · exact AList.mem_values.mpr hid
    · exact absurd (hnone.symm.trans (ho.executing ht he)) (by simp)
  calc s.taskPool.blocks.keys.length
      ≤ s.tasks.values.length := (List.subperm_of_subset s.taskPool.blocks.keys_nodup hsub).length_le
    _ = s.tasks.keys.length := by simp [AList.values, AList.keys, List.keys]

end Owned

/-! ## Runs -/

namespace TaskRun

open RealTimeScheduler MemoryPool

theorem owned_step (p : TaskRun) (a : TaskAction) (q : TaskRun) (ho : Owned p.1 p.2)
    (hG : IdUnused p a) (hstep : machine.step p a = some q) : Owned q.1 q.2 := by
  obtain ⟨hact, hrec⟩ := Machine.withHistory_step.mp hstep
  exact hrec ▸ ho.step hG hact

/-- **A run keeps blocks and tasks in step exactly if no task is given an id in use**; and then
nothing frees the block that is being executed. -/
theorem tasksOwned_iff (policy : SchedulingPolicy) (as : List TaskAction) :
    machine.Always TasksOwned (fresh policy) as ∧ machine.Allowed FreesUnclaimed (fresh policy) as ↔
      machine.Allowed IdUnused (fresh policy) as := by
  have hfresh : Owned (fresh policy).1 (fresh policy).2 := Owned.fresh policy
  have hiff : machine.Always TasksOwned (fresh policy) as ↔
      machine.Allowed IdUnused (fresh policy) as := by
    refine Machine.always_iff_allowed_of_invariant (I := fun p : TaskRun => Owned p.1 p.2) owned_step
      (fun p ho => ho.tasksOwned) ?_ hfresh as
    rintro p a q ho hstep hq unit name constraints now rfl hroom hid
    obtain ⟨hact, -⟩ := Machine.withHistory_step.mp hstep
    have hq1 : (p.1.addTask unit name constraints now).1 = q.1 := Option.some.inj hact
    exact ho.leaks unit name constraints now hroom hid q.2 (hq1 ▸ hq)
  rw [hiff]
  refine ⟨And.left, fun hall => ⟨hall, ?_⟩⟩
  exact hall.of_invariant owned_step (fun p a ho _ => ho.freesUnclaimed a) hfresh

/-! ### The counter of the ids comes round -/

/-- One task is scheduled, under the id 1, and there is no loop. -/
structure FirstOnly (p : TaskRun) : Prop where
  owned : Owned p.1 p.2
  table : ∀ id, id ∈ p.1.tasks ↔ id = 1
  capacity : p.1.taskPool.capacity = 128
  worker : p.1.worker = .empty

theorem FirstOnly.room {p : TaskRun} (hp : FirstOnly p) :
    p.1.taskPool.blocks.keys.length < p.1.taskPool.capacity := by
  have hle := hp.owned.length_blocks_le (by simp [claimed?, hp.worker])
  have hkeys : p.1.tasks.keys.length ≤ [1].length :=
    (List.subperm_of_subset p.1.tasks.keys_nodup fun id hid =>
      List.mem_singleton.mpr ((hp.table id).mp (AList.mem_keys.mpr hid))).length_le
  have := hp.capacity
  simp only [List.length_singleton] at hkeys
  omega

/-- One task more and gone again: the ids go on by one. -/
theorem FirstOnly.cycle {p : TaskRun} (hp : FirstOnly p) (hr : machine.Reachable p)
    (hnext : p.1.nextTaskId ≠ 1) :
    ∃ q, machine.Reachable q ∧ FirstOnly q ∧ q.1.nextTaskId = p.1.nextTaskId + 1 := by
  obtain ⟨s, h⟩ := p
  have hne : s.nextTaskId.toNat ≠ 1 := fun he => hnext (UInt32.toNat.inj he)
  have hid : s.nextTaskId.toNat ∉ s.tasks := fun hm => hne ((hp.table _).mp hm)
  obtain ⟨block, pool, halloc, hadd⟩ := s.addTask_of_room 0 "" {} 0 hp.room
  have howned := hp.owned.step_addTask 0 "" {} 0
    fun _ _ _ _ _ _ => hid
  obtain ⟨htasks, hids, hworker, hcap⟩ :=
    (s.addTask 0 "" {} 0).1.removeTask_frame s.nextTaskId.toNat
  refine ⟨_, .step (.removeTask s.nextTaskId.toNat) (.step (.addTask 0 "" {} 0) hr trivial rfl)
    trivial rfl, ⟨howned.step_removeTask _, fun id => ?_, ?_, ?_⟩, ?_⟩
  · change id ∈ ((s.addTask 0 "" {} 0).1.removeTask s.nextTaskId.toNat).1.tasks ↔ id = 1
    rw [htasks, hadd, AList.mem_erase, AList.mem_insert, ← hp.table id]
    constructor
    · exact fun ⟨hne', hm⟩ => hm.resolve_left hne'
    · exact fun hm => ⟨fun he => hid (he ▸ hm), .inr hm⟩
  · rw [← hp.capacity, ← (allocateObject_spec halloc).2.2]
    exact hcap.trans (by rw [hadd])
  · exact hworker.trans (by rw [hadd]; exact hp.worker)
  · exact hids.trans (by rw [hadd])

/-- With the first task left where it is, the counter takes every value. -/
theorem exists_firstOnly (n : ℕ) (hn : n < UInt32.size) :
    ∃ p, machine.Reachable p ∧ FirstOnly p ∧ p.1.nextTaskId = UInt32.ofNat (n + 2) := by
  induction n with
  | zero =>
    have hfresh : Owned (RealTimeScheduler.new .roundRobin) {} := Owned.fresh .roundRobin
    have hnew := hfresh.step_addTask 0 "" {} 0
      fun _ _ _ _ _ _ => by simp [RealTimeScheduler.new]
    refine ⟨_, .step (.addTask 0 "" {} 0) (.init (s := fresh .roundRobin) ⟨⟨_, rfl⟩, rfl⟩) trivial
      rfl, ⟨hnew, fun id => ?_, rfl, rfl⟩, rfl⟩
    change id ∈ (AList.insert 1 0 ∅ : AList fun _ : ℕ => ℕ) ↔ id = 1
    rw [AList.mem_insert]
    exact or_iff_left (AList.notMem_empty id)
  | succ n ih =>
    obtain ⟨p, hr, hp, hnext⟩ := ih (by omega)
    have hne : p.1.nextTaskId ≠ 1 := by
      intro he
      have h1 := congrArg UInt32.toNat (hnext.symm.trans he)
      simp only [UInt32.toNat_ofNat', UInt32.toNat_one] at h1
      simp only [UInt32.size] at hn
      omega
    obtain ⟨q, hq, hfirst, hqnext⟩ := hp.cycle hr hne
    exact ⟨q, hq, hfirst, by rw [hqnext, hnext, show n + 1 + 2 = n + 2 + 1 by omega, UInt32.ofNat_add (n + 2)]; rfl⟩

/-- **A long-lived task's block is lost**: 2³² calls later its id is given to another task. -/
theorem addTask_leaks : ¬ ∀ p, machine.Reachable p → TasksOwned p := by
  intro hall
  obtain ⟨p, hr, hp, hnext⟩ := exists_firstOnly (UInt32.size - 1) (by decide)
  have hone : p.1.nextTaskId = 1 := by
    rw [hnext]
    decide
  have hid : p.1.nextTaskId.toNat ∈ p.1.tasks := (hp.table _).mpr (by rw [hone]; rfl)
  exact hp.owned.leaks 0 "" {} 0 hp.room hid _
    (hall _ (.step (.addTask 0 "" {} 0) hr trivial rfl))

end TaskRun

end AxonVex
