import AxonVex.Scheduling.Admission

/-!
# Scheduling/Constraints — under which constraints a unit is scheduled

A unit is registered with timing constraints.  `registerProcessingUnit()` passes them on when the
system already runs; a unit that is registered before the start (every unit of a layout is) waits for
`startComponents()`, which makes up constraints from the tick rate of the system and has never seen
the others.  A record beside the run keeps what each unit was registered with.

* `scheduled_as_registered` — a unit with a non-zero period is scheduled under its own constraints in
  every run whose starts find no unit with others than the default ones.
* `start_forgets_constraints` — a unit with a period of 5 ms, registered before the start, is scheduled
  every 100 µs.
-/

namespace AxonVex

open Machinery

/-- The constraints each unit was registered with. -/
abbrev Given := Table UnitPtr TimingConstraints

/-- The constraints a layout registers its units with. -/
def AxonVexSystem.LayoutCall.given (g : Given) : LayoutCall → Given
  | .register unit constraints _ => g.insert unit.ptr constraints
  | .unregister _ => g
  | .assignInput _ _ _ => g
  | .assignOutput _ _ _ => g
  | .removeInput _ => g
  | .removeOutput _ => g

/-- A system in a run, and the constraints its units were registered with. -/
abbrev ConstraintRun := SystemRun × Given

namespace ConstraintRun

open AxonVexSystem SystemRun

/-- The record after an action. -/
def record (r : SystemRun) (a : Action) (_ : SystemRun) (g : Given) : Given :=
  match a with
  | .call _ (.registerProcessingUnit unit constraints _) =>
    if (r.system.unitRegistry.add unit).isSome then g.insert unit.ptr constraints else g
  | .call _ (.initializeSystem env) => env.layout.foldl LayoutCall.given g
  | _ => g

/-- A system as constructed. -/
def fresh (config : SystemConfiguration) (objectSize : ℕ) : ConstraintRun :=
  (SystemRun.fresh config objectSize, ∅)

/-- **The runs of a system**, with the record. -/
def machine : Machine ConstraintRun Action := Machine.withHistory SystemRun.machine ∅ record

/-- **Every unit registered with a non-zero period is scheduled, and under its own constraints.** -/
def AsRegistered (p : ConstraintRun) : Prop :=
  ∀ u ∈ p.1.system.unitRegistry.all, ∀ k, p.2.lookup u.ptr = some k → k.period ≠ 0 →
    ∃ c, p.1.system.timingController = some c ∧ (∃ id, c.HasTask u.ptr id) ∧
      ∀ id t, c.scheduler.task? id = some t → t.unit = u.ptr → t.constraints = k

/-- **The condition**: the units fit in the task pool, and a start that the table accepts finds no
unit that was registered with a non-zero period and other constraints than those the start gives. -/
structure DefaultsAtStart (p : ConstraintRun) (a : Action) : Prop where
  fits : UnitsFit p.1 a
  default : ∀ caller env, a = .call caller (.start env) →
    validTransition p.1.system.state .starting = true →
    ∀ c, p.1.system.timingController = some c →
    ∀ u ∈ p.1.system.unitRegistry.all, ∀ k, p.2.lookup u.ptr = some k → k.period ≠ 0 →
      k = c.finalConstraints p.1.system.defaultConstraints

/-- What every run under the condition keeps. -/
structure Kept (p : ConstraintRun) : Prop where
  scheduled : UnitsScheduled p.1
  same : p.1.system.isActive = true → ∀ c, p.1.system.timingController = some c →
    ∀ ptr k k', p.2.lookup ptr = some k → k.period ≠ 0 → c.constraintsOf ptr = some k' → k' = k

variable {p q : ConstraintRun} {a : Action}

theorem le_of_mem_claimPtrs {n m : UnitPtr} {ps : List UnitPtr} (h : claimPtrs n ps = some m) :
    ∀ ptr ∈ ps, n ≤ ptr := by
  induction ps generalizing n with
  | nil => exact fun ptr hp => absurd hp List.not_mem_nil
  | cons p ps ih =>
    unfold claimPtrs at h
    split at h
    next hle =>
      intro ptr hp
      rcases List.mem_cons.mp hp with rfl | hp
      · exact hle
      · exact hle.trans ((Nat.le_succ p).trans (ih h ptr hp))
    · cases h

/-- Nothing is recorded of a unit that was there before. -/
theorem record_lookup {r t : SystemRun} (h : r.step a = some t) {ptr : UnitPtr}
    (hp : ptr < r.nextPtr) (g : Given) : (record r a t g).lookup ptr = g.lookup ptr := by
  unfold record
  split
  next caller unit constraints now =>
    have hle := le_of_register h
    split
    · exact AList.lookup_insert_ne fun he => absurd hp (by rw [he]; exact not_lt.mpr hle)
    · rfl
  next caller env =>
    obtain ⟨u, m, res, -, hn, -⟩ := invoke_of_step h
    have hle := le_of_mem_claimPtrs hn
    clear hn
    have hfold (calls : List LayoutCall) (g : Given)
        (hall : ∀ q ∈ calls.flatMap LayoutCall.newUnits, r.nextPtr ≤ q) :
        (calls.foldl LayoutCall.given g).lookup ptr = g.lookup ptr := by
      induction calls generalizing g with
      | nil => rfl
      | cons c calls ih =>
        rw [List.flatMap_cons] at hall
        rw [List.foldl_cons, ih _ fun q hq => hall q (List.mem_append_right _ hq)]
        cases c with
        | register unit constraints now =>
          refine AList.lookup_insert_ne fun he => ?_
          have := hall unit.ptr (List.mem_append_left _ (List.mem_singleton_self _))
          exact absurd hp (by rw [he]; exact not_lt.mpr this)
        | _ => rfl
    exact hfold env.layout g hle
  · rfl

/-- **Where a task's constraints come from**: the task was there before, or its unit has just been
registered, or the system has just been started. -/
theorem constraints_origin {r t : SystemRun} (hI : UnitsScheduled r) (hG : UnitsFit r a)
    (h : r.step a = some t) (ha : t.system.isActive = true) {c' : TimingController}
    (hc' : t.system.timingController = some c') {ptr : UnitPtr} {k : TimingConstraints}
    (hk : c'.constraintsOf ptr = some k) :
    (r.system.isActive = true ∧ ∃ c, r.system.timingController = some c ∧
        c.constraintsOf ptr = some k) ∨
      (∃ caller unit constraints now c,
        a = .call caller (.registerProcessingUnit unit constraints now) ∧
        (r.system.unitRegistry.add unit).isSome = true ∧ ptr = unit.ptr ∧
        k = TimingController.finalConstraints c (r.system.registeredConstraints constraints)) ∨
      ∃ caller env c, a = .call caller (.start env) ∧
        validTransition r.system.state .starting = true ∧ r.system.timingController = some c ∧
        (∃ u ∈ r.system.unitRegistry.all, u.ptr = ptr) ∧
        k = c.finalConstraints r.system.defaultConstraints := by
  have hsame (hs : t.system.state = r.system.state) : r.system.isActive = true := by
    rwa [isActive, ← hs]
  have hkept {c : TimingController} (hact : r.system.isActive = true)
      (hc : r.system.timingController = some c) (hcc : c'.constraintsOf ptr = c.constraintsOf ptr) :
      r.system.isActive = true ∧ ∃ c, r.system.timingController = some c ∧
        c.constraintsOf ptr = some k := ⟨hact, c, hc, hcc ▸ hk⟩
  have hflagged {f : TimingController → TimingController}
      (ht : t.system.timingController = r.system.timingController.map f)
      (hv : r.system.isActive = true ∨ r.system.state = .error)
      (hf : ∀ c : TimingController, (f c).constraintsOf ptr = c.constraintsOf ptr) :
      r.system.isActive = true ∧ ∃ c, r.system.timingController = some c ∧
        c.constraintsOf ptr = some k := by
    obtain ⟨c, hc, rfl⟩ := Option.map_eq_some_iff.mp (ht.symm.trans hc')
    rcases hv with hact | herr
    · exact hkept hact hc (hf c)
    · -- out of `ERROR`, nothing is scheduled
      have hfresh := hI.idle (by rw [isActive, herr]; rfl) (by rw [herr]; decide) c hc
      exact absurd (hk.symm.trans ((hf c).trans (hfresh.constraintsOf ptr))) (by simp)
  cases scheduleMove_of_step h with
  | same hs hr ht => exact .inl (hkept (hsame hs) (ht.symm.trans hc') rfl)
  | loop hc hl hs hr ht =>
    obtain rfl := Option.some.inj (ht.symm.trans hc')
    obtain ⟨hct, -⟩ := hI.tracks (hsame hs) _ hc
    exact .inl (hkept (hsame hs) hc ((hct.loopStep hl).2 ptr))
  | @restarted _ _ c onThread spawned hc hq hs hr ht =>
    obtain ⟨s, hs', htasks, hpool, -, hclaimed⟩ :=
      TimingController.restart_tasks (c := c) spawned hq
    obtain rfl := Option.some.inj ((hs' ▸ ht).symm.trans hc')
    obtain ⟨hct, -⟩ := hI.tracks (hsame hs) _ hc
    exact .inl (hkept (hsame hs) hc ((hct.of_tasks htasks hpool hclaimed).2 ptr))
  | @registered caller unit constraints now id _ hadd hs ht =>
    have hadmitted : (r.system.unitRegistry.add unit).isSome = true := by rw [hadd]; rfl
    split at ht
    next hrun =>
      have hstate : r.system.state = .running := by simpa [isRunning] using hrun
      obtain ⟨c, hc, hroom, hid, hpos⟩ := hG.admits caller unit constraints now rfl hadmitted hstate
      obtain ⟨hct, hown⟩ := hI.tracks (hsame hs) c hc
      rw [hc, Option.map_some] at ht
      obtain rfl := Option.some.inj (ht.symm.trans hc')
      have hnew : c.constraintsOf unit.ptr = none := by
        rw [← Option.not_isSome_iff_eq_none, ← hown]
        exact fun ho => absurd (hI.registries.below _ ho) (not_lt.mpr (le_of_register h))
      have hall := (hct.schedule unit.name (r.system.registeredConstraints constraints) now hroom hid
        hpos (hct.lookup_eq_none.mpr hnew)).2 ptr
      by_cases hp : ptr = unit.ptr
      · rw [if_pos hp] at hall
        exact .inr (.inl ⟨caller, unit, constraints, now, c, rfl, hadmitted, hp,
          Option.some.inj (hk.symm.trans hall)⟩)
      · rw [if_neg hp] at hall
        exact .inl (hkept (hsame hs) hc hall)
    · exact .inl (hkept (hsame hs) (ht.symm.trans hc') rfl)
  | @unregistered _ id unit _ hrem hs ht =>
    obtain ⟨c, hc, rfl⟩ := Option.map_eq_some_iff.mp (ht.symm.trans hc')
    obtain ⟨hct, -⟩ := hI.tracks (hsame hs) c hc
    obtain ⟨hct', hmap, hcc⟩ := hct.remove unit.ptr
    refine .inl (hkept (hsame hs) hc (hcc ptr ?_))
    rintro rfl
    have hmapped : ((c.removeProcessingUnit unit.ptr).1.constraintsOf unit.ptr).isSome = false := by
      rw [hct'.isSome_constraintsOf, hmap, AList.lookup_erase]
      rfl
    rw [hk] at hmapped
    exact absurd hmapped (by simp)
  | paused hv hs hr ht => exact .inl (hflagged ht (active_or_error (.inl hv)) fun _ => rfl)
  | resumed hv hs hr ht => exact .inl (hflagged ht (active_or_error (.inr hv)) fun _ => rfl)
  | startedNothing hv hc hu hs hr ht => exact absurd (ht.symm.trans hc') (by simp)
  | startFailed hc hv hs hr ht => exact absurd ha (by rw [isActive, hs]; decide)
  | @started caller env _ c hc hv hs hr ht =>
    obtain rfl := Option.some.inj (ht.symm.trans hc')
    have hall := (hI.scheduleAll hv hc (hG.starts caller env rfl hv) (caller == Thread.scheduler)
      env.spawned env.now).2 ptr
    rw [hk] at hall
    split at hall
    next hp =>
      exact .inr (.inr ⟨caller, env, c, rfl, hv, hc, List.mem_map.mp hp, Option.some.inj hall⟩)
    · exact absurd hall (by simp)
  | emergencyShutdown hs _ => exact absurd ha (by rw [isActive, hs]; decide)
  | replaced hs hr ht =>
    obtain rfl := Option.some.inj (ht.symm.trans hc')
    exact absurd hk (by simp [(TimingController.fresh_new _ _).constraintsOf])
  | prepared hs ht => exact absurd (hs.symm.trans ha) (by simp)

theorem Kept.step (hI : Kept p) (hG : DefaultsAtStart p a) (h : machine.step p a = some q) :
    Kept q := by
  obtain ⟨hstep, hrec⟩ := Machine.withHistory_step.mp h
  refine ⟨hI.scheduled.step hG.fits hstep, fun ha c' hc' ptr k k' hk hp hk' => ?_⟩
  rw [← hrec] at hk
  rcases constraints_origin hI.scheduled hG.fits hstep ha hc' hk' with
    ⟨hact, c, hc, hold⟩ | ⟨caller, unit, constraints, now, c, rfl, hadmitted, rfl, rfl⟩ |
      ⟨caller, env, c, rfl, hv, hc, ⟨u, hu, rfl⟩, rfl⟩
  · have howned : p.1.system.unitRegistry.Owns ptr := by
      rw [(hI.scheduled.tracks hact c hc).2, hold]
      rfl
    rw [record_lookup hstep (hI.scheduled.registries.below ptr howned)] at hk
    exact hI.same hact c hc ptr k k' hk hp hold
  · -- what has just been recorded is what has just been passed on
    simp only [record, hadmitted, if_true, AList.lookup_insert, Option.some.injEq] at hk
    subst hk
    rw [registeredConstraints, if_neg hp, TimingController.finalConstraints, if_neg hp]
  · exact (hG.default caller env rfl hv c hc u hu k hk hp).symm

theorem kept_fresh (config : SystemConfiguration) (objectSize : ℕ) : Kept (fresh config objectSize) :=
  ⟨unitsScheduled_fresh config objectSize, fun ha => absurd (show false = true from ha) (by decide)⟩

theorem kept (h : machine.ReachableUnder DefaultsAtStart p) : Kept p := by
  refine h.invariant ⟨fun p hp => ?_, fun _ _ _ hI hG ht => hI.step hG ht⟩
  obtain ⟨⟨config, objectSize, -, hr⟩, hg⟩ := hp
  obtain rfl : p = fresh config objectSize := Prod.ext hr hg
  exact kept_fresh config objectSize

/-- **In every run under the condition, units are scheduled as they were registered**, from the
start on. -/
theorem scheduled_as_registered (h : machine.ReachableUnder DefaultsAtStart p)
    (ha : p.1.system.isActive = true) : p.AsRegistered := by
  have hI := kept h
  intro u hu k hk hp
  obtain ⟨c, hc, ⟨id, hid, -⟩, hmapped⟩ := hI.scheduled.eachScheduled ha u hu
  obtain ⟨hct, -⟩ := hI.scheduled.tracks ha c hc
  refine ⟨c, hc, ⟨id, hid⟩, ?_⟩
  rintro id t ht hunit
  have hplan : c.scheduler.planOf id = some (t.unit, t.constraints) := by
    rw [RealTimeScheduler.planOf, ht]
    rfl
  refine hI.same ha c hc u.ptr k t.constraints hk hp ?_
  rw [TimingController.constraintsOf, ← hunit, hct.mapped hplan, Option.bind_some, hplan]
  rfl

/-! ## Two runs -/

/-- A period of 5 ms. -/
def everyFiveMillis : TimingConstraints := { period := 5000, deadline := 5000, wcet := 500 }

/-- The unit is registered while the system runs. -/
def registeredRunning : List Action :=
  [.call (.external 0) (.initializeSystem {}), .call (.external 0) (.start {}),
    .call (.external 0) (.registerProcessingUnit (.new 0 "camera") everyFiveMillis 0)]

/-- `DefaultsAtStart` for runs that start without units, computed. -/
def startsEmpty (p : ConstraintRun) : Action → Bool
  | .call _ (.start _) => p.1.system.unitRegistry.all.isEmpty
  | .call _ (.registerProcessingUnit _ _ _) =>
    p.1.system.state == .running && p.1.system.timingController.any fun c =>
      decide (c.scheduler.taskPool.blocks.keys.length < c.scheduler.taskPool.capacity) &&
        c.scheduler.tasks.keys.isEmpty && c.scheduler.nextTaskId != 0
  | .call _ (.initializeSystem _) => !p.1.system.isActive
  | _ => false

theorem defaultsAtStart_of_startsEmpty (p : ConstraintRun) (a : Action)
    (h : startsEmpty p a = true) : DefaultsAtStart p a := by
  unfold startsEmpty at h
  split at h
  next caller env =>
    have hall : p.1.system.unitRegistry.all = [] := List.isEmpty_iff.mp h
    refine ⟨⟨fun _ _ _ _ => ?_, by simp, by simp, by simp, by simp⟩, fun _ _ _ _ _ _ u hu => ?_⟩
    · have hunits : p.1.system.unitRegistry.units.entries = [] := List.map_eq_nil_iff.mp hall
      simp [UnitRegistry.count, AList.keys, hunits]
    · exact absurd hu (by simp [hall])
  next caller unit constraints now =>
    simp only [Bool.and_eq_true, beq_iff_eq, Option.any_eq_true, decide_eq_true_eq, bne_iff_ne,
      List.isEmpty_iff] at h
    obtain ⟨hstate, c, hc, ⟨hroom, hempty⟩, hpos⟩ := h
    refine ⟨⟨by simp, fun _ _ _ _ _ _ _ => ⟨c, hc, hroom, ?_, hpos⟩, ?_, by simp, by simp⟩, by simp⟩
    · exact fun hm => absurd (AList.mem_keys.mp hm) (by simp [hempty])
    · exact fun _ _ _ _ _ _ => by rw [hstate]; decide
  next caller env =>
    refine ⟨⟨by simp, by simp, by simp, by simp, fun _ _ _ ha => ?_⟩, by simp⟩
    exact absurd ha (by simpa using h)
  · cases h

theorem init_constraints : machine.init (fresh {} 0) := ⟨⟨{}, 0, by decide, rfl⟩, rfl⟩

set_option maxRecDepth 4000 in
/-- It is scheduled every 5 ms. -/
theorem scheduled_as_registered_running : ∃ p, machine.ReachableUnder DefaultsAtStart p ∧
    p.1.system.unitRegistry.count = 1 ∧ p.2.lookup 0 = some everyFiveMillis ∧ p.AsRegistered := by
  have hchecks : machine.checks startsEmpty (fresh {} 0) registeredRunning = true := by decide
  have hrun : (machine.exec (fresh {} 0) registeredRunning).any (fun p => p.1.system.isActive &&
      p.1.system.unitRegistry.count == 1 && p.2.lookup 0 == some everyFiveMillis) = true := by
    decide
  obtain ⟨p, hp, hs⟩ := (Option.any_eq_true _ _).mp hrun
  simp only [Bool.and_eq_true, beq_iff_eq] at hs
  obtain ⟨⟨hact, hcount⟩, hgiven⟩ := hs
  have hreach : machine.ReachableUnder DefaultsAtStart p :=
    (Machine.ReachableUnder.init init_constraints).exec
      (Machine.allowed_of_checks defaultsAtStart_of_startsEmpty hchecks) (Option.mem_def.mp hp)
  exact ⟨p, hreach, hcount, hgiven, scheduled_as_registered hreach hact⟩

set_option maxRecDepth 4000 in
/-- **Registered before the start, it is scheduled under the default constraints.** -/
theorem start_forgets_constraints :
    ¬ ∀ p, machine.Reachable p → p.1.system.isActive = true → p.AsRegistered := by
  intro hall
  have hrun : (machine.exec (fresh {} 0) [.call (.external 0) (.initializeSystem {}),
      .call (.external 0) (.registerProcessingUnit (.new 0 "camera") everyFiveMillis 0),
      .call (.external 0) (.start {})]).any (fun p => p.1.system.isActive &&
        p.1.system.unitRegistry.all.any (fun u => u.ptr == 0) &&
        p.2.lookup 0 == some everyFiveMillis && p.1.system.timingController.any fun c =>
          (c.scheduler.task? 1).any fun t => t.unit == 0 && t.constraints.period == 100) = true := by
    decide
  obtain ⟨p, hp, hs⟩ := (Option.any_eq_true _ _).mp hrun
  simp only [Bool.and_eq_true, beq_iff_eq, List.any_eq_true, Option.any_eq_true] at hs
  obtain ⟨⟨⟨hact, u, hu, hptr⟩, hgiven⟩, c, hc, t, ht, hunit, hperiod⟩ := hs
  have hreach : machine.Reachable p :=
    Machine.Reachable.exec (.init init_constraints) (Option.mem_def.mp hp)
  obtain ⟨c', hc', -, hk⟩ := hall p hreach hact u hu everyFiveMillis (hptr ▸ hgiven) (by decide)
  obtain rfl := Option.some.inj (hc.symm.trans hc')
  have hconstraints := hk 1 t ht (hunit.trans hptr.symm)
  exact absurd (hperiod.symm.trans (congrArg TimingConstraints.period hconstraints)) (by decide)

end ConstraintRun

end AxonVex
