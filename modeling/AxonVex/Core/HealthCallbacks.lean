import AxonVex.Core.EventBus
import AxonVex.Core.HealthMonitor
import Mathlib.Order.Bounds.Basic

/-!
# Core/HealthCallbacks — one health check, and the callbacks that take part in it

    check() ─▸ snapshot of healthCallbacks_ ─▸ callback … callback ─▸ publish(event) ─▸ onCriticalHealth_

A callback is user code: it may register and reset callbacks, and it returns a report or throws.  The
loop runs over a copy, so every callback that was registered when the check began is invoked once;
one event is published, with the highest rating there was; and recovery is called for when that is
`CRITICAL` or worse.

`check()` raises the rating with every error it finds.  The loop does not: the error of a callback
that throws, and the errors in a report, are appended and the rating stays (`healthCheck_consistent_iff`).
-/

namespace AxonVex

/-- `healthCallbacks_`, by number, and `nextCallbackId_`. -/
structure HealthRegistry (K : Type*) where
  healthCallbacks_ : List (Option K) := []
  nextCallbackId_ : UInt32 := 1
  deriving DecidableEq, Repr

namespace HealthRegistry

variable {K : Type*}

/-- `resize(size)`, with empty functions. -/
def resize (callbacks : List (Option K)) (size : ℕ) : List (Option K) :=
  callbacks.take size ++ List.replicate (size - callbacks.length) none

/-- `registerHealthCallback(cb)`: the registry, and the number. -/
def registerHealthCallback (r : HealthRegistry K) (cb : Option K) : HealthRegistry K × UInt32 :=
  match cb with
  | none => (r, 0)
  | some k =>
    let id := r.nextCallbackId_
    let callbacks :=
      if r.healthCallbacks_.length ≤ id.toNat then resize r.healthCallbacks_ (id + 1).toNat
      else r.healthCallbacks_
    (⟨callbacks.set id.toNat (some k), id + 1⟩, id)

/-- `resetCallbacks()`. -/
def resetCallbacks (_ : HealthRegistry K) : HealthRegistry K := {}

end HealthRegistry

/-- What a callback does; `W` is whatever else it changes. -/
inductive HealthCode (K W : Type*)
  | returns (world : W) (health : SystemHealth)
  | throws (world : W)
  /-- it goes on with the number -/
  | registers (cb : Option K) (next : UInt32 → HealthCode K W)
  | resets (next : HealthCode K W)

namespace HealthCode

variable {K W : Type*}

/-- The registry and the world afterwards, and the report, if it does not throw. -/
def run (r : HealthRegistry K) : HealthCode K W → HealthRegistry K × W × Option SystemHealth
  | returns world health => (r, world, some health)
  | throws world => (r, world, none)
  | registers cb next =>
    (next (r.registerHealthCallback cb).2).run (r.registerHealthCallback cb).1
  | resets next => next.run r.resetCallbacks

end HealthCode

/-- What a health check is seen to do. -/
inductive HealthEffect (K : Type*)
  | invoked (callback : K)
  | published (event : SystemEvent)
  /-- `onCriticalHealth_(errorDesc)` -/
  | recovers (errorDesc : String)
  deriving DecidableEq

namespace HealthEffect

variable {K : Type*}

def invoked? : HealthEffect K → Option K
  | invoked callback => some callback
  | _ => none

def published? : HealthEffect K → Option SystemEvent
  | published event => some event
  | _ => none

def recovers? : HealthEffect K → Option String
  | recovers errorDesc => some errorDesc
  | _ => none

end HealthEffect

/-- What a health check depends on. -/
structure HealthSetting (K W : Type*) where
  maxMemoryPoolSize : ℕ
  enableAutoRecovery : Bool
  /-- `onCriticalHealth_` is not empty -/
  onCriticalHealth : Bool
  /-- what a callback does, in a world -/
  code : K → W → HealthCode K W
  /-- `providers_.getState()` -/
  getState : W → SystemState
  /-- `healthCheckTimer_.getElapsedMilliseconds()`, as text -/
  duration : String

/-- A health check on its way. -/
structure HealthRun (K W : Type*) where
  registry : HealthRegistry K
  world : W
  health : SystemHealth
  effects : List (HealthEffect K) := []

namespace HealthSetting

variable {K W : Type*} (m : HealthSetting K W)

/-- One round of the loop. -/
def round (c : HealthRun K W) : Option K → HealthRun K W
  | none => c
  | some k =>
    let out := (m.code k c.world).run c.registry
    { registry := out.1
      world := out.2.1
      health := c.health.merge out.2.2
      effects := c.effects ++ [.invoked k] }

/-- The event of a health check. -/
def event (c : HealthRun K W) : SystemEvent where
  type := .healthCheck
  oldState := m.getState c.world
  newState := m.getState c.world
  description := "Health check completed: " ++ c.health.overallStatus.toString
  metadata := [("overall_status", c.health.overallStatus.toString),
    ("warning_count", toString c.health.warnings.length),
    ("error_count", toString c.health.errors.length), ("duration_ms", m.duration)]

/-- `errorDesc`. -/
def errorDesc (health : SystemHealth) : String :=
  health.errors.foldl (fun desc error => desc ++ ("\n- " ++ error))
    ("Health check failed: " ++ health.overallStatus.toString)

/-- The recovery hook, if it comes to that. -/
def recovery (health : SystemHealth) : List (HealthEffect K) :=
  if health.callsForRecovery then
    if m.enableAutoRecovery then
      if m.onCriticalHealth then [.recovers (errorDesc health)] else []
    else []
  else []

/-- `performHealthCheck()`, with what the providers read. -/
def performHealthCheck (p : HealthProviders) (registry : HealthRegistry K) (world : W) :
    HealthRun K W :=
  let health := HealthMonitor.check m.maxMemoryPoolSize p
  let callbacks := registry.healthCallbacks_
  let c := callbacks.foldl m.round { registry, world, health }
  { c with effects := c.effects ++ [.published (m.event c)] ++ m.recovery c.health }

/-! ## What is to be expected -/

/-- What the callbacks report, one after the other; one that throws reports nothing. -/
def reports (registry : HealthRegistry K) (world : W) :
    List (Option K) → List (Option SystemHealth)
  | [] => []
  | none :: callbacks => reports registry world callbacks
  | some k :: callbacks =>
    let out := (m.code k world).run registry
    out.2.2 :: reports out.1 out.2.1 callbacks

end HealthSetting

namespace SystemHealth

/-- The ratings there are: the built-in one, and those of the reports. -/
def ratings (health : SystemHealth) (reports : List (Option SystemHealth)) : Set HealthStatus :=
  {status | status = health.overallStatus ∨ ∃ user, some user ∈ reports ∧ status = user.overallStatus}

/-- The errors of a report, or the one for a callback that threw. -/
def errorsOf : Option SystemHealth → List String
  | some user => user.errors
  | none => ["Health check callback failed"]

/-- All errors, in order. -/
def collected (health : SystemHealth) (reports : List (Option SystemHealth)) : List String :=
  health.errors ++ reports.flatMap errorsOf

/-- **What a health check promises**, with this rating. -/
structure Consistent {K W : Type*} (m : HealthSetting K W) (health : SystemHealth)
    (reports : List (Option SystemHealth)) (callbacks : List (Option K))
    (effects : List (HealthEffect K)) (status : HealthStatus) : Prop where
  /-- each callback of the snapshot is invoked once -/
  invokes : effects.filterMap HealthEffect.invoked? = callbacks.filterMap id
  /-- one event is published, with the status -/
  publishes : ∃ event, effects.filterMap HealthEffect.published? = [event] ∧
    event.type = .healthCheck ∧
    event.description = "Health check completed: " ++ status.toString ∧
    ("overall_status", status.toString) ∈ event.metadata
  /-- the status is the highest rating -/
  highest : IsGreatest (health.ratings reports) status
  /-- and above `HEALTHY` if there is anything amiss -/
  amiss : none ∈ reports ∨ health.collected reports ≠ [] → .healthy < status
  /-- recovery is called for once if it is enabled and the status is `CRITICAL` or `FAILURE` -/
  recovers : (effects.filterMap HealthEffect.recovers?).length = 1 ↔
    m.onCriticalHealth = true ∧ m.enableAutoRecovery = true ∧
      (status = .critical ∨ status = .failure)
  /-- and never more than once -/
  once : (effects.filterMap HealthEffect.recovers?).length ≤ 1
  /-- with every error in the description -/
  describes : ∀ errorDesc ∈ effects.filterMap HealthEffect.recovers?,
    ∀ error ∈ health.collected reports, ∃ before after, errorDesc = before ++ "\n- " ++ error ++ after

/-- **The condition**: the built-in rating or a report's is above `HEALTHY`; or no callback throws,
and no report has an error. -/
def Rated (health : SystemHealth) (reports : List (Option SystemHealth)) : Prop :=
  health.overallStatus ≠ .healthy ∨ (∃ user, some user ∈ reports ∧ user.overallStatus ≠ .healthy) ∨
    ∀ report ∈ reports, errorsOf report = []

end SystemHealth

namespace SystemHealth

variable {health : SystemHealth} {reports : List (Option SystemHealth)} {status : HealthStatus}

/-! ## The merge of all reports -/

theorem errors_merge (health : SystemHealth) (report : Option SystemHealth) :
    (health.merge report).errors = health.errors ++ errorsOf report := by
  cases report with
  | none => rfl
  | some user => rfl

/-- Every error is collected, in order. -/
theorem errors_foldl_merge (health : SystemHealth) (reports : List (Option SystemHealth)) :
    (reports.foldl merge health).errors = health.collected reports := by
  induction reports generalizing health with
  | nil => exact (List.append_nil _).symm
  | cons report reports ih =>
    rw [List.foldl_cons, ih, collected, errors_merge, collected, List.flatMap_cons,
      List.append_assoc]

/-- **The rating is the highest there was.** -/
theorem isGreatest_foldl_merge (health : SystemHealth) (reports : List (Option SystemHealth)) :
    IsGreatest (health.ratings reports) (reports.foldl merge health).overallStatus := by
  induction reports generalizing health with
  | nil =>
    refine ⟨.inl rfl, ?_⟩
    rintro status (rfl | ⟨user, hmem, -⟩)
    · exact le_rfl
    · cases hmem
  | cons report reports ih =>
    obtain ⟨hmem, hupper⟩ := ih (health.merge report)
    rw [List.foldl_cons]
    constructor
    · rcases hmem with hmerge | ⟨user, huser, hstatus⟩
      · cases report with
        | none => exact .inl hmerge
        | some user =>
          -- the merged rating is one of the two
          rcases max_choice health.overallStatus user.overallStatus with hmax | hmax
          · exact .inl (hmerge.trans hmax)
          · exact .inr ⟨user, List.mem_cons_self, hmerge.trans hmax⟩
      · exact .inr ⟨user, List.mem_cons_of_mem _ huser, hstatus⟩
    · rintro status (rfl | ⟨user, huser, rfl⟩)
      · exact (health.le_overallStatus_merge report).trans (hupper (.inl rfl))
      · rcases List.mem_cons.mp huser with rfl | huser
        · have hmerge : user.overallStatus ≤ (health.merge (some user)).overallStatus :=
            le_max_right ..
          exact hmerge.trans (hupper (.inl rfl))
        · exact hupper (.inr ⟨user, huser, rfl⟩)

/-- `HEALTHY` is the lowest rating. -/
theorem healthy_lt_iff : .healthy < status ↔ status ≠ .healthy := by
  cases status <;> decide

/-- **The errors and the rating agree** exactly if the reports are rated, when the built-in rating
agrees with its own errors. -/
theorem amiss_iff (hhealth : health.errors ≠ [] → health.overallStatus ≠ .healthy)
    (hstatus : IsGreatest (health.ratings reports) status) :
    (none ∈ reports ∨ health.collected reports ≠ [] → .healthy < status) ↔
      health.Rated reports := by
  obtain ⟨hmem, hupper⟩ := hstatus
  constructor
  · intro hamiss
    by_cases hplain : ∀ report ∈ reports, errorsOf report = []
    · exact .inr (.inr hplain)
    · have hcollected : health.collected reports ≠ [] := by
        intro hnil
        obtain ⟨-, hflat⟩ := List.append_eq_nil_iff.mp hnil
        exact hplain (List.flatMap_eq_nil_iff.mp hflat)
      have hne : status ≠ .healthy := healthy_lt_iff.mp (hamiss (.inr hcollected))
      rcases hmem with rfl | ⟨user, huser, rfl⟩
      · exact .inl hne
      · exact .inr (.inl ⟨user, huser, hne⟩)
  · rintro hrated hamiss
    rcases hrated with hne | ⟨user, huser, hne⟩ | hplain
    · exact (healthy_lt_iff.mpr hne).trans_le (hupper (.inl rfl))
    · exact (healthy_lt_iff.mpr hne).trans_le (hupper (.inr ⟨user, huser, rfl⟩))
    · -- nothing was reported amiss: it is in the built-in errors
      have hflat : reports.flatMap errorsOf = [] := List.flatMap_eq_nil_iff.mpr hplain
      rcases hamiss with hthrew | hcollected
      · exact absurd (hplain none hthrew) (List.cons_ne_nil _ _)
      · rw [collected, hflat, List.append_nil] at hcollected
        exact (healthy_lt_iff.mpr (hhealth hcollected)).trans_le (hupper (.inl rfl))

end SystemHealth

/-- `check()` rates every error it finds. -/
theorem HealthMonitor.check_rates {maxMemoryPoolSize : ℕ} {p : HealthProviders}
    (h : (check maxMemoryPoolSize p).errors ≠ []) :
    (check maxMemoryPoolSize p).overallStatus ≠ .healthy := by
  by_cases hstate : p.getState = .error ∨ p.getState = .fatalError
  · rw [check_of_error hstate]
    decide
  · by_cases hmemory : (9 / 10 : ℚ) < p.getMemoryUsage / maxMemoryPoolSize
    · have hcritical : HealthStatus.critical ≤ (check maxMemoryPoolSize p).overallStatus := by
        simp only [check, if_neg hstate, if_pos hmemory]
        split_ifs
        · exact (le_max_right _ _).trans (le_max_left _ _)
        · exact le_max_right _ _
      intro hhealthy
      rw [hhealthy] at hcritical
      exact absurd hcritical (by decide)
    · -- what is left are warnings
      refine absurd ?_ h
      simp only [check, if_neg hstate, if_neg hmemory]
      split_ifs <;> rfl

namespace HealthSetting

variable {K W : Type*} (m : HealthSetting K W)

/-! ## The loop -/

/-- **The loop** invokes the callbacks in their order, and merges what they report. -/
theorem foldl_round (callbacks : List (Option K)) (c : HealthRun K W) :
    (callbacks.foldl m.round c).effects =
        c.effects ++ (callbacks.filterMap id).map HealthEffect.invoked ∧
      (callbacks.foldl m.round c).health =
        (m.reports c.registry c.world callbacks).foldl .merge c.health := by
  induction callbacks generalizing c with
  | nil => exact ⟨(List.append_nil _).symm, rfl⟩
  | cons callback callbacks ih =>
    obtain ⟨heffects, hhealth⟩ := ih (m.round c callback)
    rw [List.foldl_cons]
    cases callback with
    | none => exact ⟨heffects, hhealth⟩
    | some k =>
      refine ⟨heffects.trans ?_, hhealth⟩
      have hround : (m.round c (some k)).effects = c.effects ++ [.invoked k] := rfl
      rw [hround, List.append_assoc]
      rfl

/-- The effects of a whole check. -/
def effects (callbacks : List K) (e : SystemEvent) (health : SystemHealth) :
    List (HealthEffect K) :=
  callbacks.map HealthEffect.invoked ++ [.published e] ++ m.recovery health

/-- **What a health check does**, all told. -/
theorem effects_performHealthCheck (p : HealthProviders) (registry : HealthRegistry K) (world : W) :
    ∃ c : HealthRun K W,
      c.health = (m.reports registry world registry.healthCallbacks_).foldl .merge
        (HealthMonitor.check m.maxMemoryPoolSize p) ∧
      (m.performHealthCheck p registry world).effects =
        m.effects (registry.healthCallbacks_.filterMap id) (m.event c) c.health := by
  obtain ⟨heffects, hhealth⟩ := m.foldl_round registry.healthCallbacks_
    { registry, world, health := HealthMonitor.check m.maxMemoryPoolSize p }
  refine ⟨_, hhealth, ?_⟩
  exact congrArg (· ++ _ ++ _) heffects

/-! ## What is seen of it -/

variable {m} {health : SystemHealth} (callbacks : List K) (e : SystemEvent)

theorem invoked_effects : (effects m callbacks e health).filterMap HealthEffect.invoked? =
    callbacks := by
  have hrecovery : (m.recovery health).filterMap HealthEffect.invoked? = [] := by
    unfold recovery
    split_ifs <;> rfl
  rw [effects, List.filterMap_append, List.filterMap_append, hrecovery, List.filterMap_map]
  have hall : callbacks.filterMap (HealthEffect.invoked? ∘ HealthEffect.invoked) = callbacks :=
    List.filterMap_some
  rw [hall]
  exact (List.append_nil _).trans (List.append_nil _)

theorem published_effects : (effects m callbacks e health).filterMap HealthEffect.published? =
    [e] := by
  have hrecovery : (m.recovery health).filterMap HealthEffect.published? = [] := by
    unfold recovery
    split_ifs <;> rfl
  have hinvoked : (callbacks.map HealthEffect.invoked).filterMap HealthEffect.published? = [] := by
    rw [List.filterMap_map, List.filterMap_eq_nil_iff]
    exact fun k _ => rfl
  rw [effects, List.filterMap_append, List.filterMap_append, hrecovery, hinvoked]
  rfl

theorem recovers_effects : (effects m callbacks e health).filterMap HealthEffect.recovers? =
    if m.onCriticalHealth ∧ m.enableAutoRecovery ∧ health.callsForRecovery then [errorDesc health]
    else [] := by
  have hinvoked : (callbacks.map HealthEffect.invoked).filterMap HealthEffect.recovers? = [] := by
    rw [List.filterMap_map, List.filterMap_eq_nil_iff]
    exact fun k _ => rfl
  rw [effects, List.filterMap_append, List.filterMap_append, hinvoked]
  unfold recovery
  split_ifs with hcalls hauto hhook hall hall hall hall
  · rfl
  · exact absurd ⟨hhook, hauto, hcalls⟩ hall
  · exact absurd hall.1 hhook
  · rfl
  · exact absurd hall.2.1 hauto
  · rfl
  · exact absurd hall.2.2 hcalls
  · rfl

/-- What has been written stays. -/
theorem exists_foldl_append (errors : List String) (desc : String) :
    ∃ after, errors.foldl (fun desc error => desc ++ ("\n- " ++ error)) desc = desc ++ after := by
  induction errors generalizing desc with
  | nil => exact ⟨"", String.append_empty.symm⟩
  | cons error errors ih =>
    obtain ⟨after, hafter⟩ := ih (desc ++ ("\n- " ++ error))
    refine ⟨"\n- " ++ error ++ after, ?_⟩
    rw [List.foldl_cons, hafter, String.append_assoc]

/-- Every error is written. -/
theorem exists_of_mem {error : String} {errors : List String} (h : error ∈ errors)
    (desc : String) : ∃ before after,
      errors.foldl (fun desc error => desc ++ ("\n- " ++ error)) desc =
        before ++ "\n- " ++ error ++ after := by
  induction errors generalizing desc with
  | nil => cases h
  | cons first errors ih =>
    rw [List.foldl_cons]
    rcases List.mem_cons.mp h with rfl | h
    · obtain ⟨after, hafter⟩ := exists_foldl_append errors (desc ++ ("\n- " ++ error))
      refine ⟨desc, after, ?_⟩
      rw [hafter, String.append_assoc, String.append_assoc, String.append_assoc,
        String.append_assoc]
    · exact ih h _

end HealthSetting

open HealthSetting

/-- **A health check is consistent** — its invocations, its event, its rating, its errors and its
call for recovery — exactly if the built-in rating or a report's is above `HEALTHY`, or no callback
throws and no report has an error. -/
theorem healthCheck_consistent_iff {K W : Type*} (m : HealthSetting K W) (p : HealthProviders)
    (registry : HealthRegistry K) (world : W) :
    (∃ status, (HealthMonitor.check m.maxMemoryPoolSize p).Consistent m
      (m.reports registry world registry.healthCallbacks_) registry.healthCallbacks_
      (m.performHealthCheck p registry world).effects status) ↔
      (HealthMonitor.check m.maxMemoryPoolSize p).Rated
        (m.reports registry world registry.healthCallbacks_) := by
  obtain ⟨c, hhealth, heffects⟩ := m.effects_performHealthCheck p registry world
  have hgreatest := SystemHealth.isGreatest_foldl_merge (HealthMonitor.check m.maxMemoryPoolSize p)
    (m.reports registry world registry.healthCallbacks_)
  rw [← hhealth] at hgreatest
  have hamiss := SystemHealth.amiss_iff (HealthMonitor.check_rates (p := p)) hgreatest
  have hcalls : (m.onCriticalHealth ∧ m.enableAutoRecovery ∧ c.health.callsForRecovery) ↔
      m.onCriticalHealth = true ∧ m.enableAutoRecovery = true ∧
        (c.health.overallStatus = .critical ∨ c.health.overallStatus = .failure) := by
    rw [SystemHealth.callsForRecovery, Bool.or_eq_true, beq_iff_eq, beq_iff_eq]
  constructor
  · rintro ⟨status, hconsistent⟩
    obtain rfl : status = c.health.overallStatus := hconsistent.highest.unique hgreatest
    exact hamiss.mp hconsistent.amiss
  · intro hrated
    refine ⟨c.health.overallStatus, ?_, ?_, hgreatest, hamiss.mpr hrated, ?_, ?_, ?_⟩
    · rw [heffects, invoked_effects]
    · refine ⟨m.event c, ?_, rfl, rfl, List.mem_cons_self⟩
      rw [heffects, published_effects]
    · rw [heffects, recovers_effects]
      split_ifs with hall
      · exact iff_of_true rfl (hcalls.mp hall)
      · exact iff_of_false (by simp) fun h => hall (hcalls.mpr h)
    · rw [heffects, recovers_effects]
      split_ifs <;> simp
    · intro desc hdesc error herror
      rw [heffects, recovers_effects] at hdesc
      split_ifs at hdesc
      · obtain rfl := List.mem_singleton.mp hdesc
        rw [← SystemHealth.errors_foldl_merge, ← hhealth] at herror
        exact exists_of_mem herror _
      · cases hdesc

namespace HealthSetting

/-- Every callback throws. -/
def throwing : HealthSetting ℕ Unit where
  maxMemoryPoolSize := 1
  enableAutoRecovery := true
  onCriticalHealth := true
  code _ world := .throws world
  getState _ := .running
  duration := "0.000000"

/-- Nothing is the matter. -/
def wellProviders : HealthProviders where
  getState := .running
  timingControllerHealthy := true
  configurationHealthy := true
  loggerHealthy := true
  getMemoryUsage := 0
  getSuccessRate := 1

/-- One callback is registered. -/
def oneCallback : HealthRegistry ℕ := (({} : HealthRegistry ℕ).registerHealthCallback (some 7)).1

end HealthSetting

/-- **The callback throws, and the event says `HEALTHY`.** -/
theorem healthy_with_error : ¬ ∀ (m : HealthSetting ℕ Unit) (p : HealthProviders)
    (registry : HealthRegistry ℕ) (world : Unit),
    ∃ status, (HealthMonitor.check m.maxMemoryPoolSize p).Consistent m
      (m.reports registry world registry.healthCallbacks_) registry.healthCallbacks_
      (m.performHealthCheck p registry world).effects status := by
  intro hall
  obtain ⟨status, hconsistent⟩ := hall throwing wellProviders oneCallback ()
  have hwell : (HealthMonitor.check throwing.maxMemoryPoolSize wellProviders).overallStatus =
      .healthy := by
    decide +kernel
  have hreports : throwing.reports oneCallback () oneCallback.healthCallbacks_ = [none] := rfl
  rw [hreports] at hconsistent
  have hlt := hconsistent.amiss (.inl List.mem_cons_self)
  rcases hconsistent.highest.1 with rfl | ⟨user, huser, -⟩
  · rw [hwell] at hlt
    exact absurd hlt (lt_irrefl _)
  · cases List.mem_singleton.mp huser

end AxonVex
