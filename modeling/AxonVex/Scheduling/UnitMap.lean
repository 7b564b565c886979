import AxonVex.Scheduling.UnitTasks

/-!
# Scheduling/UnitMap — the map from units to tasks, in every run

    tasks_        : id ──▸ task ──▸ unit
    unitToTaskId_ : unit ──▸ id

A unit is scheduled under a new id, and the map forgets the old one: scheduling a unit twice leaves a
task that no removal of the unit finds.  The two name the same tasks exactly as long as no mapped unit
is scheduled and no task is given the id 0 or one in use (`unitsMapped_iff`).  While they do, removing
a unit leaves no task of it (`UnitsMapped.removed`).
-/

namespace AxonVex

open Machinery

/-- What callers, and the loop, do to a timing controller. -/
inductive UnitAction
  | scheduleProcessingUnit (unit : UnitPtr) (name : String) (constraints : TimingConstraints)
      (now : TimePoint)
  | removeProcessingUnitById (taskId : ℕ) (found : Option UnitPtr)
  | removeProcessingUnit (unit : UnitPtr)
  | reset (onSchedulerThread : Bool)
  /-- a step of the loop, or a call that leaves the tasks -/
  | scheduler (action : TaskAction)

namespace TaskAction

/-- The action takes no task out of the table, and adds none. -/
def keepsTasks : TaskAction → Bool
  | .addTask _ _ _ _ => false
  | .removeTask _ => false
  | .removeAllTasks => false
  | _ => true

end TaskAction

namespace TimingController

open RealTimeScheduler MemoryPool

variable (c : TimingController)

/-- One action; `none` where it waits or does not apply. -/
def unitStep : UnitAction → Option TimingController
  | .scheduleProcessingUnit unit name constraints now =>
    some (c.scheduleProcessingUnit unit name constraints now).1
  | .removeProcessingUnitById taskId found =>
    if c.mayFind taskId found then some (c.removeProcessingUnitById taskId found).1 else none
  | .removeProcessingUnit unit => some (c.removeProcessingUnit unit).1
  | .reset onSchedulerThread =>
    -- elsewhere the loop is joined first
    if !onSchedulerThread && c.scheduler.loopAlive then none else some (c.reset onSchedulerThread)
  | .scheduler action =>
    if action.keepsTasks then (c.scheduler.act action).map fun s => { c with scheduler := s } else none

/-- **The runs of a timing controller.** -/
def unitMachine (objectId : ℕ) (policy : SchedulingPolicy) : Machine TimingController UnitAction :=
  ⟨fun c => c = .new objectId policy, unitStep⟩

/-- No task of the scheduler refers to the unit, but for the one whose execution has outlasted its
removal. -/
def Forgotten (unit : UnitPtr) : Prop :=
  ∀ b x, c.scheduler.taskPool.blocks.lookup b = some x → x.unit = unit → c.scheduler.Pending b

/-- **The map names the live tasks**, each unit its own. -/
structure UnitsMapped : Prop where
  mapped : ∀ id x, c.scheduler.task? id = some x → c.unitToTaskId.lookup x.unit = some id
  live : ∀ unit id, c.unitToTaskId.lookup unit = some id →
    ∃ x, c.scheduler.task? id = some x ∧ x.unit = unit
  /-- a task that is not in the table is at the end of its execution -/
  left : ∀ b, b ∈ c.scheduler.taskPool.blocks →
    (∃ id, c.scheduler.tasks.lookup id = some b) ∨ c.scheduler.Pending b
  /-- once `removeProcessingUnit(unit)` has returned, the unit is forgotten -/
  removed : ∀ unit, (c.removeProcessingUnit unit).1.Forgotten unit

/-- **The condition**: where the pool has room, the unit is not mapped, and the id it is given is
neither 0 nor in use. -/
def SchedulesAnew (a : UnitAction) : Prop :=
  ∀ unit name constraints now, a = .scheduleProcessingUnit unit name constraints now →
    c.scheduler.taskPool.blocks.keys.length < c.scheduler.taskPool.capacity →
      c.unitToTaskId.lookup unit = none ∧ c.scheduler.nextTaskId ≠ 0 ∧
        c.scheduler.nextTaskId.toNat ∉ c.scheduler.tasks

/-- The invariant of such runs. -/
structure UnitInv : Prop where
  tracks : c.Tracks
  positive : 0 ∉ c.scheduler.tasks

variable {c} {d : TimingController} {a : UnitAction} {unit : UnitPtr} {s t : RealTimeScheduler}
  {h : TaskLedger}

/-! ## Actions that leave the tasks -/

/-- The unit of the task behind an id. -/
def unitOf (s : RealTimeScheduler) (id : ℕ) : Option UnitPtr := (s.planOf id).map Prod.fst

theorem unitOf_of_lookup {id b : ℕ} (hid : s.tasks.lookup id = some b) :
    unitOf s id = (s.taskPool.blocks.lookup b).map (·.unit) := by
  rw [unitOf, planOf_of_lookup hid, Option.map_map]
  rfl

theorem unitOf_congr (htasks : t.tasks = s.tasks)
    (hunits : SameOn (fun x : SchedulerTask => x.unit) s.taskPool t.taskPool) (id : ℕ) :
    unitOf t id = unitOf s id := by
  cases hid : s.tasks.lookup id with
  | none => rw [unitOf, unitOf, planOf_eq_none hid, planOf_eq_none (htasks ▸ hid)]
  | some b => rw [unitOf_of_lookup hid, unitOf_of_lookup (htasks ▸ hid), hunits b]

/-- **They leave the table, and whose its tasks are.** -/
theorem unitOf_of_act {action : TaskAction} (ho : Owned s h) (hkeep : action.keepsTasks = true)
    (hact : s.act action = some t) : t.tasks = s.tasks ∧ ∀ id, unitOf t id = unitOf s id := by
  have hsame (htasks : t.tasks = s.tasks) (hpool : t.taskPool = s.taskPool) :
      t.tasks = s.tasks ∧ ∀ id, unitOf t id = unitOf s id :=
    ⟨htasks, unitOf_congr htasks (hpool ▸ .refl _)⟩
  cases action with
  | addTask unit name constraints now => cases hkeep
  | removeTask taskId => cases hkeep
  | removeAllTasks => cases hkeep
  | updateTaskConstraints taskId constraints =>
    obtain ⟨⟩ := hact
    unfold updateTaskConstraints
    split
    · exact ⟨rfl, fun _ => rfl⟩
    · exact ⟨rfl, unitOf_congr rfl (sameOn_update fun _ _ => rfl)⟩
  | loop step =>
    have hmove := loopMove_of_loopStep hact
    refine ⟨TimingController.tasks_of_loopMove hmove, fun id => ?_⟩
    rw [unitOf, unitOf, sameTable_of_loopMove ho hmove id]
  | customPick id =>
    simp only [act] at hact
    split at hact
    · obtain ⟨-, rfl⟩ := guarded hact
      exact hsame rfl rfl
    · cases hact
  | start spawned =>
    obtain ⟨-, ⟨⟩⟩ := Option.ite_none_left_eq_some.mp hact
    unfold RealTimeScheduler.start
    split_ifs <;> exact ⟨rfl, fun _ => rfl⟩
  | halt =>
    obtain ⟨⟩ := hact
    exact hsame rfl rfl
  | pause =>
    obtain ⟨⟩ := hact
    exact hsame rfl rfl
  | resume =>
    obtain ⟨⟩ := hact
    exact hsame rfl rfl
  | join =>
    obtain ⟨-, ⟨⟩⟩ := Option.ite_none_left_eq_some.mp hact
    exact hsame rfl rfl

/-- A step that leaves whose the tasks are. -/
theorem Tracks.of_unitOf (hc : c.Tracks) (ho : ∃ h, Owned s h)
    (hunits : ∀ id, unitOf s id = unitOf c.scheduler id) : Tracks { c with scheduler := s } where
  owned := ho
  mapped {id unit k} hid := by
    have hunit : unitOf c.scheduler id = some unit := by
      rw [← hunits id, unitOf, hid]
      rfl
    obtain ⟨⟨v, k'⟩, hplan, rfl⟩ := Option.map_eq_some_iff.mp hunit
    exact hc.mapped hplan
  live {id unit} hid := by
    obtain ⟨k, hk⟩ := hc.live hid
    have hunit : unitOf s id = some unit := by
      rw [hunits id, unitOf, hk]
      rfl
    obtain ⟨⟨v, k'⟩, hplan, rfl⟩ := Option.map_eq_some_iff.mp hunit
    exact ⟨k', hplan⟩

/-! ## The other actions -/

/-- The id of a removed task leads to its unit, so the removal by id is that by unit. -/
theorem Tracks.removeById (hc : c.Tracks) {taskId : ℕ} {found : Option UnitPtr}
    (hfound : c.mayFind taskId found = true) :
    (c.removeProcessingUnitById taskId found).1 = c ∨
      ∃ unit, (c.removeProcessingUnitById taskId found).1 = (c.removeProcessingUnit unit).1 := by
  obtain ⟨h, ho⟩ := hc.owned
  cases hid : c.scheduler.tasks.lookup taskId with
  | none =>
    refine .inl ?_
    have hnone : c.scheduler.removeTask taskId = (c.scheduler, false) := by rw [removeTask, hid]
    rw [removeProcessingUnitById, hnone]
    rfl
  | some b =>
    obtain ⟨x, hx, -⟩ := ho.table hid
    have hplan : c.scheduler.planOf taskId = some (x.unit, x.constraints) := by
      rw [planOf_of_lookup hid, hx]
      rfl
    have hunit := hc.mapped hplan
    have hremoved : (c.scheduler.removeTask taskId).2 = true := by
      rw [removeTask, hid]
      dsimp only
      rw [hx]
      dsimp only
      split <;> rfl
    refine .inr ⟨x.unit, ?_⟩
    cases found with
    | none =>
      have hmem : taskId ∈ c.unitToTaskId.values := AList.mem_values.mpr ⟨x.unit, hunit⟩
      simp [mayFind, hmem] at hfound
    | some v =>
      have hv : c.unitToTaskId.lookup v = some taskId := beq_iff_eq.mp hfound
      obtain ⟨k, hk⟩ := hc.live hv
      obtain ⟨rfl, -⟩ := Prod.mk.inj (Option.some.inj (hplan.symm.trans hk))
      rw [removeProcessingUnit, hunit, removeProcessingUnitById]
      dsimp only
      rw [if_pos hremoved]
      rfl

/-- Scheduling where there is no room does nothing. -/
theorem scheduleProcessingUnit_of_full (name : String) (constraints : TimingConstraints)
    (now : TimePoint)
    (hfull : ¬ c.scheduler.taskPool.blocks.keys.length < c.scheduler.taskPool.capacity) :
    (c.scheduleProcessingUnit unit name constraints now).1 = c := by
  have hnone (x : SchedulerTask) : c.scheduler.taskPool.allocateObject x = none := by
    rw [← Option.not_isSome_iff_eq_none, allocateObject_isSome]
    exact hfull
  simp [scheduleProcessingUnit, addTask, hnone]

theorem Tracks.reset (hc : c.Tracks) {onSchedulerThread : Bool}
    (hjoined : onSchedulerThread = false → c.scheduler.loopAlive = false) :
    (c.reset onSchedulerThread).Tracks := by
  obtain ⟨h, ho⟩ := hc.owned
  have hstopped : ∃ h', Owned (c.scheduler.stop onSchedulerThread) h' := by
    have hhalted := ho.step (a := .halt) (fun _ _ _ _ ha => by cases ha) rfl
    cases onSchedulerThread with
    | true => exact ⟨_, hhalted⟩
    | false =>
      have hjoin : c.scheduler.halt.act .join = some (c.scheduler.stop false) :=
        if_neg (by rw [loopAlive] at hjoined; simp [loopAlive, halt, hjoined rfl])
      exact ⟨_, hhalted.step (fun _ _ _ _ ha => by cases ha) hjoin⟩
  obtain ⟨h', ho'⟩ := hstopped
  refine ⟨⟨_, ho'.step_removeAllTasks.of_same rfl (.refl _) rfl rfl rfl fun _ _ => rfl⟩,
    fun {id unit k} hid => ?_, fun {id unit} hid => ?_⟩
  · have hnone : (c.reset onSchedulerThread).scheduler.planOf id = none := planOf_eq_none rfl
    cases hnone.symm.trans hid
  · cases hid

/-- Whoever is not mapped is forgotten. -/
theorem Tracks.forgotten (hc : c.Tracks) (hu : c.unitToTaskId.lookup unit = none) :
    c.Forgotten unit := by
  obtain ⟨h, ho⟩ := hc.owned
  intro b x hb hx
  refine ((ho.tasksOwned.allocated b).mp (AList.mem_of_lookup hb)).resolve_left ?_
  rintro ⟨id, hid⟩
  have hplan : c.scheduler.planOf id = some (unit, x.constraints) := by
    rw [planOf_of_lookup hid, hb, ← hx]
    rfl
  cases hu.symm.trans (hc.mapped hplan)

theorem Tracks.unitsMapped (hc : c.Tracks) : c.UnitsMapped where
  mapped id x hid := by
    have hplan : c.scheduler.planOf id = some (x.unit, x.constraints) := by rw [planOf, hid]; rfl
    exact hc.mapped hplan
  live unit id hid := by
    obtain ⟨k, hk⟩ := hc.live hid
    exact hasTask_iff.mpr ⟨k, hk⟩
  left b := by
    obtain ⟨h, ho⟩ := hc.owned
    exact (ho.tasksOwned.allocated b).mp
  removed unit := by
    obtain ⟨hremoved, hmap, -⟩ := hc.remove unit
    refine hremoved.forgotten ?_
    rw [hmap, AList.lookup_erase]

/-! ## Runs -/

/-- **One step under the condition.** -/
theorem UnitInv.step (hc : c.UnitInv) (hG : c.SchedulesAnew a) (hstep : c.unitStep a = some d) :
    d.UnitInv := by
  obtain ⟨h, ho⟩ := hc.tracks.owned
  have hremove (unit : UnitPtr) : (c.removeProcessingUnit unit).1.UnitInv := by
    refine ⟨(hc.tracks.remove unit).1, fun hzero => hc.positive ?_⟩
    unfold removeProcessingUnit at hzero
    split at hzero
    · exact hzero
    · rw [(c.scheduler.removeTask_frame _).1] at hzero
      exact (AList.mem_erase.mp hzero).2
  cases a with
  | scheduleProcessingUnit unit name constraints now =>
    obtain ⟨⟩ := hstep
    by_cases hroom : c.scheduler.taskPool.blocks.keys.length < c.scheduler.taskPool.capacity
    · obtain ⟨hnew, hpos, hid⟩ := hG unit name constraints now rfl hroom
      refine ⟨(hc.tracks.schedule name constraints now hroom hid hpos hnew).1, fun hzero => ?_⟩
      obtain ⟨block, pool, -, hadd⟩ :=
        c.scheduler.addTask_of_room unit name (c.finalConstraints constraints) now hroom
      rw [scheduleProcessingUnit_of_room unit name constraints now hroom hpos, hadd] at hzero
      rcases (AList.mem_insert _).mp hzero with hid0 | hold
      · exact hpos (UInt32.toNat.inj hid0.symm)
      · exact hc.positive hold
    · rw [scheduleProcessingUnit_of_full name constraints now hroom]
      exact hc
  | removeProcessingUnitById taskId found =>
    obtain ⟨hfound, ⟨⟩⟩ := Option.ite_none_right_eq_some.mp hstep
    rcases hc.tracks.removeById hfound with hsame | ⟨unit, hsame⟩
    · rw [hsame]
      exact hc
    · rw [hsame]
      exact hremove unit
  | removeProcessingUnit unit =>
    obtain ⟨⟩ := hstep
    exact hremove unit
  | reset onSchedulerThread =>
    obtain ⟨hjoined, ⟨⟩⟩ := Option.ite_none_left_eq_some.mp hstep
    refine ⟨hc.tracks.reset fun hthread => ?_, AList.notMem_empty 0⟩
    rw [hthread, Bool.not_false, Bool.true_and, Bool.not_eq_true] at hjoined
    exact hjoined
  | scheduler action =>
    obtain ⟨hkeep, hd⟩ := Option.ite_none_right_eq_some.mp hstep
    obtain ⟨t, hact, rfl⟩ := Option.map_eq_some_iff.mp hd
    obtain ⟨htasks, hunits⟩ := unitOf_of_act ho hkeep hact
    have hown := ho.step (fun _ _ _ _ ha => by rw [ha] at hkeep; cases hkeep) hact
    refine ⟨hc.tracks.of_unitOf ⟨_, hown⟩ hunits, ?_⟩
    rw [show (TimingController.scheduler { c with scheduler := t }).tasks = _ from htasks]
    exact hc.positive

/-- **One step outside of it.** -/
theorem schedulesAnew_of_unitsMapped (hc : c.UnitInv) (hstep : c.unitStep a = some d)
    (hd : d.UnitsMapped) : c.SchedulesAnew a := by
  obtain ⟨h, ho⟩ := hc.tracks.owned
  rintro unit name constraints now rfl hroom
  obtain ⟨⟩ := hstep
  have hscheduler : (c.scheduleProcessingUnit unit name constraints now).1.scheduler =
      (c.scheduler.addTask unit name (c.finalConstraints constraints) now).1 := by
    rw [scheduleProcessingUnit_eq]
  have hplan := planOf_addTask unit ho name (c.finalConstraints constraints) now hroom
  have hmapped {id : ℕ} {v : UnitPtr} {k : TimingConstraints}
      (hid : (c.scheduleProcessingUnit unit name constraints now).1.scheduler.planOf id =
        some (v, k)) :
      (c.scheduleProcessingUnit unit name constraints now).1.unitToTaskId.lookup v = some id := by
    obtain ⟨x, hx, rfl⟩ := hasTask_iff.mpr ⟨k, hid⟩
    exact hd.mapped id x hx
  rw [hscheduler] at hmapped
  -- an id in use leaves a task that nothing leads to
  have hid : c.scheduler.nextTaskId.toNat ∉ c.scheduler.tasks := by
    intro hused
    obtain ⟨old, hmem, hleaked⟩ :=
      ho.exists_leaked unit name (c.finalConstraints constraints) now hroom hused
    have hleft := hd.left old
    rw [hscheduler] at hleft
    exact hleaked (hleft hmem)
  have hzero : c.scheduler.nextTaskId ≠ 0 := by
    intro hnext
    have hnew : (c.scheduler.addTask unit name (c.finalConstraints constraints) now).1.planOf 0 =
        some (unit, c.finalConstraints constraints) := by
      rw [hplan, hnext]
      exact if_pos rfl
    have hlook := hmapped hnew
    have hkept : (c.scheduleProcessingUnit unit name constraints now).1.unitToTaskId =
        c.unitToTaskId := by
      obtain ⟨_, _, -, hadd⟩ :=
        c.scheduler.addTask_of_room unit name (c.finalConstraints constraints) now hroom
      rw [scheduleProcessingUnit_eq, hadd, hnext]
      rfl
    rw [hkept] at hlook
    obtain ⟨k, hk⟩ := hc.tracks.live hlook
    rw [planOf_eq_none (AList.lookup_eq_none.mpr hc.positive)] at hk
    cases hk
  refine ⟨?_, hzero, hid⟩
  rw [← Option.not_isSome_iff_eq_none, Option.isSome_iff_exists]
  rintro ⟨id, hold⟩
  -- the unit's older task is still there
  obtain ⟨k, hk⟩ := hc.tracks.live hold
  have hne : id ≠ c.scheduler.nextTaskId.toNat := by
    rintro rfl
    rw [planOf_eq_none (AList.lookup_eq_none.mpr hid)] at hk
    cases hk
  have hlook := hmapped ((hplan id).trans ((if_neg hne).trans hk))
  rw [scheduleProcessingUnit_of_room unit name constraints now hroom hzero, AList.lookup_insert]
    at hlook
  exact hne (Option.some.inj hlook).symm

/-- **Along any run the map names the live tasks exactly as long as every unit is scheduled anew.** -/
theorem unitsMapped_iff (objectId : ℕ) (policy : SchedulingPolicy) (as : List UnitAction) :
    (unitMachine objectId policy).Always UnitsMapped (.new objectId policy) as ↔
      (unitMachine objectId policy).Allowed SchedulesAnew (.new objectId policy) as := by
  have hnew : UnitInv (.new objectId policy) :=
    ⟨(fresh_new objectId policy).tracks, AList.notMem_empty 0⟩
  exact Machine.always_iff_allowed_of_invariant (fun _ _ _ hc hG hstep => hc.step hG hstep)
    (fun _ hc => hc.tracks.unitsMapped) (fun _ _ _ => schedulesAnew_of_unitsMapped) hnew as

/-- A unit is scheduled twice, and removed. -/
def scheduledTwice : List UnitAction :=
  [.scheduleProcessingUnit 7 "unit" { period := 10 } 0,
    .scheduleProcessingUnit 7 "unit" { period := 10 } 0, .removeProcessingUnit 7]

/-- **Its first task is left**, and nothing leads to it. -/
theorem scheduledTwice_left : ¬ ∀ (objectId : ℕ) (policy : SchedulingPolicy) (as : List UnitAction),
    (unitMachine objectId policy).Always UnitsMapped (.new objectId policy) as := by
  intro hall
  have hrun : ((unitMachine 0 .priorityBased).exec (.new 0 .priorityBased) scheduledTwice).any
      (fun c => (c.scheduler.task? 1).any (fun x => x.unit == 7) &&
        c.unitToTaskId.lookup 7 == none) = true := by
    decide +kernel
  obtain ⟨c, hexec, hleft⟩ := (Option.any_eq_true _ _).mp hrun
  obtain ⟨htask, hunmapped⟩ := Bool.and_eq_true_iff.mp hleft
  obtain ⟨x, hx, hunit⟩ := (Option.any_eq_true _ _).mp htask
  have hmapped := ((hall 0 .priorityBased scheduledTwice).exec hexec).mapped 1 x hx
  rw [beq_iff_eq.mp hunit, beq_iff_eq.mp hunmapped] at hmapped
  cases hmapped

end TimingController

end AxonVex
