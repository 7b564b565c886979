import AxonVex.Ownership.Registries
import AxonVex.Scheduling.TaskPool

/-!
# Scheduling/UnitTasks — the tasks a timing controller keeps for its units

A timing controller **tracks** its units when the table of the scheduler and the controller's own
map from units to task ids name the same tasks.  Scheduling a unit that has no task keeps this while
the pool has room and the next id is unused; removing a unit keeps it, whether or not its task is
being executed; so does every step of the loop.

* `Tracks.existsUnique` — a unit that is mapped has exactly one task.
* `Tracks.scheduleAll` — units that fit in the pool are scheduled one after the other.
-/

namespace AxonVex

open Machinery

namespace RealTimeScheduler

open MemoryPool

variable {s t : RealTimeScheduler} {h : TaskLedger} {id : ℕ}

/-- What a task is for, and under which constraints. -/
def plan (t : SchedulerTask) : UnitPtr × TimingConstraints := (t.unit, t.constraints)

/-- The plan of the task behind an id. -/
def planOf (s : RealTimeScheduler) (id : ℕ) : Option (UnitPtr × TimingConstraints) :=
  (s.task? id).map plan

theorem planOf_of_lookup {b : ℕ} (hid : s.tasks.lookup id = some b) :
    s.planOf id = (s.taskPool.blocks.lookup b).map plan := by
  rw [planOf, task?, hid, Option.bind_some]

theorem planOf_eq_none (hid : s.tasks.lookup id = none) : s.planOf id = none := by
  rw [planOf, task?, hid]
  rfl

/-- The same ids name tasks with the same plan. -/
def SameTable (s t : RealTimeScheduler) : Prop := ∀ id, t.planOf id = s.planOf id

/-- The same table over a pool that differs in the schedule only. -/
theorem sameTable_of_sameOn (htasks : t.tasks = s.tasks)
    (hpool : SameOn plan s.taskPool t.taskPool) : SameTable s t := by
  intro id
  cases hid : s.tasks.lookup id with
  | none => rw [planOf_eq_none hid, planOf_eq_none (htasks ▸ hid)]
  | some b => rw [planOf_of_lookup hid, planOf_of_lookup (htasks ▸ hid), hpool b]

theorem plan_reactivate (now : TimePoint) (task : SchedulerTask) :
    plan (reactivate now task) = plan task := by
  unfold reactivate
  split <;> rfl

theorem plan_finalizeTask (task : SchedulerTask) (result : TaskExecutionResult) (now : TimePoint) :
    plan (finalizeTask task result now).1 = plan task := by
  unfold finalizeTask
  split <;> rfl

/-- **No step of the loop changes what the table says.** -/
theorem sameTable_of_loopMove (ho : Owned s h) (hm : LoopMove s t) : SameTable s t := by
  have htasks : t.tasks = s.tasks := TimingController.tasks_of_loopMove hm
  cases hm with
  | select now plan last hpc =>
    exact sameTable_of_sameOn rfl (sameOn_foldl_update (plan_reactivate now) _ _)
  | claim id plan hpc =>
    refine sameTable_of_sameOn htasks ?_
    unfold claim
    split
    · split
      · exact sameOn_update fun _ _ => rfl
      · exact .refl _
    · exact .refl _
  | finalize block plan result now hpc =>
    intro id
    cases hid : s.tasks.lookup id with
    | none => rw [planOf_eq_none hid, planOf_eq_none (htasks ▸ hid)]
    | some b =>
      -- a task of the table does not wait for its removal
      obtain ⟨task, ht, hp⟩ := ho.table hid
      rw [planOf_of_lookup hid, planOf_of_lookup (htasks ▸ hid)]
      unfold finalizeTaskExecution
      split
      · rfl
      next old hold =>
        by_cases hb : b = block
        · subst hb
          obtain rfl := Option.some.inj (ht.symm.trans hold)
          simp [hp, ht, plan_finalizeTask]
        · by_cases hp' : old.pendingRemoval = true <;> simp [hp', hb, AList.lookup_modify_ne hb]
  | _ => exact sameTable_of_sameOn rfl (.refl _)

/-- A task that is added is planned under its own id, and the others stay. -/
theorem planOf_addTask (unit : UnitPtr) (ho : Owned s h) (name : String) (constraints : TimingConstraints)
    (now : TimePoint) (hroom : s.taskPool.blocks.keys.length < s.taskPool.capacity) (id : ℕ) :
    (s.addTask unit name constraints now).1.planOf id =
      if id = s.nextTaskId.toNat then some (unit, constraints) else s.planOf id := by
  obtain ⟨block, pool, halloc, hadd⟩ := s.addTask_of_room unit name constraints now hroom
  rw [hadd]
  by_cases hne : id = s.nextTaskId.toNat
  · subst hne
    rw [if_pos rfl, planOf_of_lookup (AList.lookup_insert _),
      (lookup_allocateObject halloc).mpr (.inl ⟨rfl, rfl⟩)]
    rfl
  · rw [if_neg hne]
    cases hid : s.tasks.lookup id with
    | none => rw [planOf_eq_none hid, planOf_eq_none ((AList.lookup_insert_ne hne).trans hid)]
    | some b =>
      obtain ⟨task, ht, -⟩ := ho.table hid
      have hb : b ≠ block := fun he =>
        (allocateObject_spec halloc).1 (he ▸ AList.mem_of_lookup ht)
      rw [planOf_of_lookup hid, planOf_of_lookup ((AList.lookup_insert_ne hne).trans hid), ht,
        (lookup_allocateObject halloc).mpr (.inr ⟨hb, ht⟩)]

/-- A task that is removed takes its own plan with it. -/
theorem planOf_removeTask (ho : Owned s h) (taskId id : ℕ) :
    (s.removeTask taskId).1.planOf id = if id = taskId then none else s.planOf id := by
  obtain ⟨htasks, -⟩ := s.removeTask_frame taskId
  by_cases hne : id = taskId
  · rw [if_pos hne, planOf_eq_none (by rw [htasks, hne, AList.lookup_erase])]
  · have hlook : (s.removeTask taskId).1.tasks.lookup id = s.tasks.lookup id := by
      rw [htasks, AList.lookup_erase_ne hne]
    rw [if_neg hne]
    cases hid : s.tasks.lookup id with
    | none => rw [planOf_eq_none hid, planOf_eq_none (hlook.trans hid)]
    | some b =>
      rw [planOf_of_lookup hid, planOf_of_lookup (hlook.trans hid)]
      cases hrem : s.tasks.lookup taskId with
      | none => rw [removeTask, hrem]
      | some b' =>
        have hb : b ≠ b' := by
          rintro rfl
          exact hne (ho.single hid hrem)
        rw [Owned.lookup_removeTask hrem, if_neg hb]

end RealTimeScheduler

namespace TimingController

open RealTimeScheduler MemoryPool

variable {c : TimingController} {unit v : UnitPtr} {s : RealTimeScheduler}

/-- The task at `id` is the unit's. -/
def HasTask (c : TimingController) (unit : UnitPtr) (id : ℕ) : Prop :=
  ∃ t, c.scheduler.task? id = some t ∧ t.unit = unit

theorem hasTask_iff {id : ℕ} : c.HasTask unit id ↔ ∃ k, c.scheduler.planOf id = some (unit, k) := by
  constructor
  · rintro ⟨t, ht, rfl⟩
    exact ⟨t.constraints, by rw [planOf, ht]; rfl⟩
  · rintro ⟨k, hk⟩
    obtain ⟨t, ht, hp⟩ := Option.map_eq_some_iff.mp hk
    exact ⟨t, ht, congrArg Prod.fst hp⟩

/-- The constraints of the task the unit is mapped to. -/
def constraintsOf (c : TimingController) (unit : UnitPtr) : Option TimingConstraints :=
  ((c.unitToTaskId.lookup unit).bind c.scheduler.planOf).map Prod.snd

/-- **The table and the map name the same tasks.** -/
structure Tracks (c : TimingController) : Prop where
  owned : ∃ h, Owned c.scheduler h
  mapped : ∀ {id unit k}, c.scheduler.planOf id = some (unit, k) →
    c.unitToTaskId.lookup unit = some id
  live : ∀ {id unit}, c.unitToTaskId.lookup unit = some id →
    ∃ k, c.scheduler.planOf id = some (unit, k)

/-- **A mapped unit has exactly one task.** -/
theorem Tracks.existsUnique (hc : c.Tracks) (hu : (c.unitToTaskId.lookup unit).isSome = true) :
    ∃! id, c.HasTask unit id := by
  obtain ⟨id, hid⟩ := Option.isSome_iff_exists.mp hu
  refine ⟨id, hasTask_iff.mpr (hc.live hid), fun id' hid' => ?_⟩
  obtain ⟨k, hk⟩ := hasTask_iff.mp hid'
  exact Option.some.inj ((hc.mapped hk).symm.trans hid)

/-- A step that leaves the table as it is. -/
theorem Tracks.of_sameTable (hc : c.Tracks) (ho : ∃ h, Owned s h) (hs : SameTable c.scheduler s) :
    Tracks { c with scheduler := s } where
  owned := ho
  mapped hid := hc.mapped ((hs _).symm.trans hid)
  live hid := (hc.live hid).imp fun _ hk => (hs _).trans hk

theorem constraintsOf_of_sameTable (hs : SameTable c.scheduler s) (unit : UnitPtr) :
    constraintsOf { c with scheduler := s } unit = c.constraintsOf unit := by
  rw [constraintsOf, constraintsOf, show s.planOf = c.scheduler.planOf from funext hs]

/-! ## Scheduling and removing a unit -/

/-- The constraints a task gets: the defaults in place of a period of zero. -/
def finalConstraints (c : TimingController) (constraints : TimingConstraints) : TimingConstraints :=
  if constraints.period = 0 then createDefaultConstraints c.executionFrequency else constraints

/-- Scheduling a unit adds a task, and maps the unit to it where the id is not zero. -/
theorem scheduleProcessingUnit_eq (unit : UnitPtr) (name : String) (constraints : TimingConstraints)
    (now : TimePoint) : (c.scheduleProcessingUnit unit name constraints now).1 = { c with
      scheduler := (c.scheduler.addTask unit name (c.finalConstraints constraints) now).1
      unitToTaskId :=
        if (c.scheduler.addTask unit name (c.finalConstraints constraints) now).2 ≠ 0 then
          c.unitToTaskId.insert unit
            (c.scheduler.addTask unit name (c.finalConstraints constraints) now).2
        else c.unitToTaskId } := by
  unfold scheduleProcessingUnit finalConstraints
  dsimp only
  generalize c.scheduler.addTask unit name _ now = r
  split_ifs <;> rfl

/-- What scheduling a unit does, where the pool has a block and the id is not zero. -/
theorem scheduleProcessingUnit_of_room (unit : UnitPtr) (name : String)
    (constraints : TimingConstraints) (now : TimePoint)
    (hroom : c.scheduler.taskPool.blocks.keys.length < c.scheduler.taskPool.capacity)
    (hpos : c.scheduler.nextTaskId ≠ 0) :
    (c.scheduleProcessingUnit unit name constraints now).1 = { c with
      scheduler := (c.scheduler.addTask unit name (c.finalConstraints constraints) now).1
      unitToTaskId := c.unitToTaskId.insert unit c.scheduler.nextTaskId.toNat } := by
  obtain ⟨_, _, _, hadd⟩ :=
    c.scheduler.addTask_of_room unit name (c.finalConstraints constraints) now hroom
  have hid : (c.scheduler.addTask unit name (c.finalConstraints constraints) now).2 =
      c.scheduler.nextTaskId.toNat := by rw [hadd]
  have hne : c.scheduler.nextTaskId.toNat ≠ 0 := fun h => hpos (UInt32.toNat.inj h)
  rw [scheduleProcessingUnit_eq, hid, if_pos hne]

/-- **A unit without a task gets one**, and the others keep theirs. -/
theorem Tracks.schedule (hc : c.Tracks) (name : String) (constraints : TimingConstraints)
    (now : TimePoint)
    (hroom : c.scheduler.taskPool.blocks.keys.length < c.scheduler.taskPool.capacity)
    (hid : c.scheduler.nextTaskId.toNat ∉ c.scheduler.tasks) (hpos : c.scheduler.nextTaskId ≠ 0)
    (hnew : c.unitToTaskId.lookup unit = none) :
    (c.scheduleProcessingUnit unit name constraints now).1.Tracks ∧
      ∀ v, (c.scheduleProcessingUnit unit name constraints now).1.constraintsOf v =
        if v = unit then some (c.finalConstraints constraints) else c.constraintsOf v := by
  obtain ⟨h, ho⟩ := hc.owned
  have hplan := planOf_addTask unit ho name (c.finalConstraints constraints) now hroom
  have hmapped {id : ℕ} {v : UnitPtr} (hv : c.unitToTaskId.lookup v = some id) :
      v ≠ unit ∧ id ≠ c.scheduler.nextTaskId.toNat := by
    constructor
    · rintro rfl
      exact absurd (hnew.symm.trans hv) (by simp)
    · rintro rfl
      obtain ⟨k, hk⟩ := hc.live hv
      rw [planOf_eq_none (AList.lookup_eq_none.mpr hid)] at hk
      cases hk
  rw [scheduleProcessingUnit_of_room unit name constraints now hroom hpos]
  refine ⟨⟨⟨_, ho.step_addTask unit name _ now fun _ _ _ _ _ _ => hid⟩, fun {id v k} hk => ?_,
    fun {id v} hv => ?_⟩, fun v => ?_⟩
  · rw [AList.lookup_insert_eq_some]
    rw [show _ = _ from hplan id] at hk
    split at hk
    next he =>
      obtain ⟨rfl, -⟩ := pair_inj hk
      exact .inl ⟨rfl, he.symm⟩
    · exact .inr ⟨(hmapped (hc.mapped hk)).1, hc.mapped hk⟩
  · rcases AList.lookup_insert_eq_some.mp hv with ⟨rfl, rfl⟩ | ⟨-, hv⟩
    · exact ⟨_, (hplan _).trans (if_pos rfl)⟩
    · obtain ⟨k, hk⟩ := hc.live hv
      exact ⟨k, (hplan _).trans ((if_neg (hmapped hv).2).trans hk)⟩
  · by_cases hv : v = unit
    · subst hv
      rw [if_pos rfl, constraintsOf, AList.lookup_insert, Option.bind_some, hplan, if_pos rfl]
      rfl
    · rw [if_neg hv, constraintsOf, constraintsOf, AList.lookup_insert_ne hv]
      cases hlook : c.unitToTaskId.lookup v with
      | none => rfl
      | some id => rw [Option.bind_some, Option.bind_some, hplan, if_neg (hmapped hlook).2]

/-- **A unit that is removed has no task**, and the others keep theirs. -/
theorem Tracks.remove (hc : c.Tracks) (unit : UnitPtr) :
    (c.removeProcessingUnit unit).1.Tracks ∧
      (c.removeProcessingUnit unit).1.unitToTaskId = c.unitToTaskId.erase unit ∧
      ∀ v ≠ unit, (c.removeProcessingUnit unit).1.constraintsOf v = c.constraintsOf v := by
  obtain ⟨h, ho⟩ := hc.owned
  unfold removeProcessingUnit
  split
  next hnone =>
    exact ⟨hc, (AList.erase_of_notMem (AList.lookup_eq_none.mp hnone)).symm, fun _ _ => rfl⟩
  next taskId htask =>
    have hplan := planOf_removeTask ho taskId
    have hne {id : ℕ} {v : UnitPtr} (hv : c.unitToTaskId.lookup v = some id) (hvu : v ≠ unit) :
        id ≠ taskId := by
      rintro rfl
      obtain ⟨k, hk⟩ := hc.live hv
      obtain ⟨k', hk'⟩ := hc.live htask
      exact hvu (Prod.mk.inj (Option.some.inj (hk.symm.trans hk'))).1
    refine ⟨⟨⟨_, ho.step_removeTask taskId⟩, fun {id v k} hk => ?_, fun {id v} hv => ?_⟩, rfl,
      fun v hv => ?_⟩
    · rw [show _ = _ from hplan id] at hk
      split at hk
      · cases hk
      next hid =>
        refine AList.lookup_erase_eq_some.mpr ⟨?_, hc.mapped hk⟩
        rintro rfl
        exact hid (Option.some.inj ((hc.mapped hk).symm.trans htask))
    · obtain ⟨hvu, hv⟩ := AList.lookup_erase_eq_some.mp hv
      exact (hc.live hv).imp fun k hk => (hplan id).trans ((if_neg (hne hv hvu)).trans hk)
    · rw [constraintsOf, constraintsOf, AList.lookup_erase_ne hv]
      cases hlook : c.unitToTaskId.lookup v with
      | none => rfl
      | some id => rw [Option.bind_some, Option.bind_some, hplan, if_neg (hne hlook hv)]

/-- A unit has a task's constraints exactly while it is mapped. -/
theorem Tracks.isSome_constraintsOf (hc : c.Tracks) :
    (c.constraintsOf unit).isSome = (c.unitToTaskId.lookup unit).isSome := by
  rw [constraintsOf, Option.isSome_map]
  cases hu : c.unitToTaskId.lookup unit with
  | none => rfl
  | some id =>
    obtain ⟨k, hk⟩ := hc.live hu
    rw [Option.bind_some, hk]
    rfl

theorem Tracks.lookup_eq_none (hc : c.Tracks) :
    c.unitToTaskId.lookup unit = none ↔ c.constraintsOf unit = none := by
  rw [← Option.not_isSome_iff_eq_none, ← Option.not_isSome_iff_eq_none, hc.isSome_constraintsOf]

/-- The units, one after the other. -/
def scheduleAll (c : TimingController) (units : List ProcessingUnit)
    (constraints : TimingConstraints) (now : TimePoint) : TimingController :=
  units.foldl (fun c u => (c.scheduleProcessingUnit u.ptr u.name constraints now).1) c

/-- **Units that fit in the pool are all scheduled**, under the same constraints. -/
theorem Tracks.scheduleAll {units : List ProcessingUnit} (hc : c.Tracks) (hids : c.IdsFresh)
    (hnd : (units.map (·.ptr)).Nodup) (hnew : ∀ u ∈ units, c.constraintsOf u.ptr = none)
    (hroom : c.scheduler.taskPool.blocks.keys.length + units.length ≤ c.scheduler.taskPool.capacity)
    (constraints : TimingConstraints) (now : TimePoint) :
    (c.scheduleAll units constraints now).Tracks ∧
      ∀ v, (c.scheduleAll units constraints now).constraintsOf v =
        if v ∈ units.map (·.ptr) then some (c.finalConstraints constraints)
        else c.constraintsOf v := by
  induction units generalizing c with
  | nil => exact ⟨hc, fun v => by simp [TimingController.scheduleAll]⟩
  | cons u units ih =>
    rw [List.length_cons] at hroom
    rw [List.map_cons, List.nodup_cons] at hnd
    have hlt : c.scheduler.taskPool.blocks.keys.length < c.scheduler.taskPool.capacity := by omega
    have hpos : c.scheduler.nextTaskId ≠ 0 := fun h => hids.nextTaskId_ne (congrArg UInt32.toNat h)
    obtain ⟨hd, hk⟩ := hc.schedule u.name constraints now hlt
      (fun hm => lt_irrefl _ (hids.below _ hm)) hpos
      (hc.lookup_eq_none.mpr (hnew u List.mem_cons_self))
    have hframe := scheduleProcessingUnit_of_room u.ptr u.name constraints now hlt hpos
    obtain ⟨block, pool, halloc, hadd⟩ :=
      c.scheduler.addTask_of_room u.ptr u.name (c.finalConstraints constraints) now hlt
    obtain ⟨hres, hall⟩ := ih hd (hids.schedule u.ptr u.name constraints now) hnd.2
      (fun v hv => by
        rw [hk, if_neg, hnew v (List.mem_cons_of_mem _ hv)]
        exact fun he => hnd.1 (List.mem_map.mpr ⟨v, hv, he⟩))
      (by
        have hlen := length_allocateObject halloc
        have hcap := (allocateObject_spec halloc).2.2
        rw [hframe, hadd]
        dsimp only
        omega)
    refine ⟨hres, fun v => ?_⟩
    have hfinal : (c.scheduleProcessingUnit u.ptr u.name constraints now).1.finalConstraints
        constraints = c.finalConstraints constraints := by rw [hframe]; rfl
    refine (hall v).trans ?_
    rw [hk, hfinal]
    simp only [List.map_cons, List.mem_cons]
    by_cases hv : v ∈ units.map (·.ptr)
    · rw [if_pos hv, if_pos (.inr hv)]
    · rw [if_neg hv]
      by_cases hvu : v = u.ptr
      · rw [if_pos hvu, if_pos (.inl hvu)]
      · rw [if_neg hvu, if_neg (not_or.mpr ⟨hvu, hv⟩)]

/-! ## A controller without tasks -/

/-- No unit has been scheduled yet. -/
structure Fresh (c : TimingController) : Prop where
  owned : Owned c.scheduler {}
  unmapped : c.unitToTaskId = ∅
  first : c.scheduler.nextTaskId = 1
  capacity : c.scheduler.taskPool.capacity = 128

theorem fresh_new (objectId : ℕ) (policy : SchedulingPolicy) : Fresh (.new objectId policy) :=
  ⟨Owned.fresh policy, rfl, rfl, rfl⟩

/-- A ledger that holds nothing knows of no block. -/
theorem Fresh.blocks (hc : c.Fresh) : c.scheduler.taskPool.blocks = ∅ := by
  refine AList.ext (List.eq_nil_iff_forall_not_mem.mpr fun e he => ?_)
  have hmem : e.1 ∈ c.scheduler.taskPool.blocks := AList.mem_keys.mpr (List.mem_map_of_mem he)
  exact absurd ((hc.owned.holds e.1).mpr hmem) (by simp)

theorem Fresh.claimed (hc : c.Fresh) : c.scheduler.claimed? = none := by
  rw [Option.eq_none_iff_forall_ne_some]
  intro b hb
  obtain ⟨t, ht, -⟩ := hc.owned.claimed hb
  exact absurd ht (by simp [hc.blocks])

theorem Fresh.planOf (hc : c.Fresh) (id : ℕ) : c.scheduler.planOf id = none := by
  cases hid : c.scheduler.tasks.lookup id with
  | none => exact planOf_eq_none hid
  | some b =>
    obtain ⟨t, ht, -⟩ := hc.owned.table hid
    exact absurd ht (by simp [hc.blocks])

/-- **A new controller tracks its units**: there are none. -/
theorem Fresh.tracks (hc : c.Fresh) : c.Tracks where
  owned := ⟨_, hc.owned⟩
  mapped hk := absurd ((hc.planOf _).symm.trans hk) (by simp)
  live hid := absurd hid (by simp [hc.unmapped])

theorem Fresh.constraintsOf (hc : c.Fresh) (unit : UnitPtr) : c.constraintsOf unit = none := by
  simp [TimingController.constraintsOf, hc.unmapped]

theorem Fresh.idsFresh (hc : c.Fresh) : c.IdsFresh where
  below id hid := by
    obtain ⟨b, hb⟩ := Option.isSome_iff_exists.mp (AList.lookup_isSome.mpr hid)
    obtain ⟨t, ht, -⟩ := hc.owned.table hb
    exact absurd ht (by simp [hc.blocks])
  counted := by rw [hc.first, hc.blocks]; rfl
  small := hc.capacity ▸ poolSize_le 128

/-- The loop leaves the counter of the ids and the size of the pool. -/
theorem loopMove_frame {t : RealTimeScheduler} (hm : LoopMove s t) :
    t.nextTaskId = s.nextTaskId ∧ t.taskPool.capacity = s.taskPool.capacity := by
  cases hm with
  | select now plan last hpc =>
    refine ⟨rfl, ?_⟩
    have hfold (bs : List ℕ) (p : MemoryPool SchedulerTask) :
        (bs.foldl (fun p b => p.update b (reactivate now)) p).capacity = p.capacity := by
      induction bs generalizing p with
      | nil => rfl
      | cons b bs ih => exact ih _
    exact hfold _ _
  | claim id plan hpc =>
    unfold claim
    split
    · split <;> exact ⟨rfl, rfl⟩
    · exact ⟨rfl, rfl⟩
  | finalize block plan result now hpc =>
    unfold finalizeTaskExecution
    split
    · exact ⟨rfl, rfl⟩
    · refine ⟨rfl, ?_⟩
      dsimp only
      split
      · unfold MemoryPool.deallocateObject
        split <;> rfl
      · rfl
  | _ => exact ⟨rfl, rfl⟩

/-- The loop of a controller without tasks turns, and leaves it without tasks. -/
theorem Fresh.loopStep (hc : c.Fresh) {step : LoopStep} (hstep : c.scheduler.loopStep step = some s) :
    Fresh { c with scheduler := s } := by
  obtain ⟨hnext, hcap⟩ := loopMove_frame (loopMove_of_loopStep hstep)
  have hrecord : TaskLedger.record c.scheduler (.loop step) s {} = {} := by
    have hfreed : c.scheduler.freedBlocks (.loop step) = [] := by
      cases step <;> simp [freedBlocks, removedBlocks, hc.claimed]
    simp [TaskLedger.record, addedBlock?, hnext, hfreed, removedBlocks]
  exact ⟨hrecord ▸ hc.owned.step_loop hstep, hc.unmapped, hnext.trans hc.first,
    hcap.trans hc.capacity⟩

/-- A change of flags, or of a loop without a claim. -/
theorem Fresh.of_tasks (hc : c.Fresh) (htasks : s.tasks = c.scheduler.tasks)
    (hpool : s.taskPool = c.scheduler.taskPool) (hnext : s.nextTaskId = c.scheduler.nextTaskId)
    (hclaimed : s.claimed? = c.scheduler.claimed?) : Fresh { c with scheduler := s } :=
  ⟨hc.owned.of_same htasks (hpool ▸ .refl _) hclaimed rfl rfl fun _ _ => rfl, hc.unmapped,
    hnext.trans hc.first, hpool ▸ hc.capacity⟩

/-- Started, it has no tasks either. -/
theorem Fresh.start (hc : c.Fresh) (onSchedulerThread spawned : Bool) :
    (c.start onSchedulerThread spawned).1.Fresh := by
  obtain ⟨s, hs, htasks, hpool, hnext, hclaimed⟩ := start_tasks (c := c) onSchedulerThread spawned
  rw [hs]
  refine hc.of_tasks htasks hpool hnext ?_
  rw [hc.claimed, Option.eq_none_iff_forall_ne_some]
  exact fun b hb => absurd (hclaimed b hb) (by simp [hc.claimed])

/-- A stop and a start, on the scheduler's own thread or while it has no claim. -/
theorem restart_tasks {onThread : Bool} (spawned : Bool)
    (hq : onThread = true ∨ c.scheduler.claimed? = none) :
    ∃ s, ((c.stop onThread).start onThread spawned).1 = { c with scheduler := s } ∧
      s.tasks = c.scheduler.tasks ∧ s.taskPool = c.scheduler.taskPool ∧
      s.nextTaskId = c.scheduler.nextTaskId ∧ s.claimed? = c.scheduler.claimed? := by
  refine ⟨((c.scheduler.stop onThread).start onThread spawned).1, rfl, ?_⟩
  cases onThread with
  | true => exact ⟨rfl, rfl, rfl, rfl⟩
  | false =>
    rw [hq.resolve_left (by simp)]
    cases spawned <;> exact ⟨rfl, rfl, rfl, rfl⟩

/-- Restarted, a controller tracks its units as before. -/
theorem Tracks.of_tasks (hc : c.Tracks) (htasks : s.tasks = c.scheduler.tasks)
    (hpool : s.taskPool = c.scheduler.taskPool) (hclaimed : s.claimed? = c.scheduler.claimed?) :
    Tracks { c with scheduler := s } ∧
      ∀ v, TimingController.constraintsOf { c with scheduler := s } v = c.constraintsOf v := by
  obtain ⟨h, ho⟩ := hc.owned
  have hsame : SameTable c.scheduler s := sameTable_of_sameOn htasks (hpool ▸ .refl _)
  exact ⟨hc.of_sameTable ⟨h, ho.of_same htasks (hpool ▸ .refl _) hclaimed rfl rfl fun _ _ => rfl⟩
    hsame, constraintsOf_of_sameTable hsame⟩

/-- The loop keeps the controller's track of its units. -/
theorem Tracks.loopStep (hc : c.Tracks) {step : LoopStep}
    (hstep : c.scheduler.loopStep step = some s) :
    Tracks { c with scheduler := s } ∧
      ∀ v, TimingController.constraintsOf { c with scheduler := s } v = c.constraintsOf v := by
  obtain ⟨h, ho⟩ := hc.owned
  have hsame := sameTable_of_loopMove ho (loopMove_of_loopStep hstep)
  exact ⟨hc.of_sameTable ⟨_, ho.step_loop hstep⟩ hsame, constraintsOf_of_sameTable hsame⟩

/-- Nothing to remove. -/
theorem Fresh.remove (hc : c.Fresh) (unit : UnitPtr) : (c.removeProcessingUnit unit).1 = c := by
  simp [removeProcessingUnit, hc.unmapped]

end TimingController

end AxonVex
