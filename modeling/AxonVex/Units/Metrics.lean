import AxonVex.Core.Scheduler
import Mathlib.Algebra.BigOperators.Group.List.Basic
import Mathlib.Algebra.Order.BigOperators.Group.List
import Mathlib.Algebra.Order.Ring.Int
import Mathlib.Data.List.Induction

/-!
# Units/Metrics — execution times, and the metrics made of them

    sync, async:   count  total  avg  max                      updateSync/AsyncExecutionStats
    metrics:       total  total / count  max of the two maxima  min of the two maxima

`getPerformanceMetrics` has no minimum to report: what it gives as one is the smaller of the maxima of
the two kinds.  It is the least of the recorded times exactly if one kind only ever took that long
(`reported_iff`).

A sum of times is a 64-bit number, and `none` is one that overflows.
-/

namespace AxonVex

namespace Units

/-- `std::chrono::microseconds::max()`. -/
def durationMax : Microseconds := 9223372036854775807

/-- The sum of two durations that are not negative. -/
def addDurations (a b : Microseconds) : Option Microseconds :=
  if a + b ≤ durationMax then some (a + b) else none

/-- The statistics of one kind of execution, as the fields with `Sync` or `Async` in their names. -/
structure KindStats where
  executionCount : ℕ := 0
  totalTime : Microseconds := 0
  avgTime : Microseconds := 0
  maxTime : Microseconds := 0
  deriving DecidableEq, Repr

/-- The common body of the two updates. -/
def KindStats.update (k : KindStats) (executionTime : Microseconds) : Option KindStats :=
  let count := k.executionCount + 1
  (addDurations k.totalTime executionTime).map fun total =>
    { executionCount := count
      totalTime := total
      avgTime := total.tdiv count
      maxTime := if executionTime > k.maxTime then executionTime else k.maxTime }

structure ExecutionStats where
  sync : KindStats := {}
  async : KindStats := {}
  deriving DecidableEq, Repr

structure PerformanceMetrics where
  executionTime : Microseconds := 0
  averageExecutionTime : Microseconds := 0
  maxExecutionTime : Microseconds := 0
  minExecutionTime : Microseconds := durationMax
  executionCount : ℕ := 0
  deriving DecidableEq, Repr

namespace ExecutionStats

variable (stats : ExecutionStats)

def updateSyncExecutionStats (executionTime : Microseconds) : Option ExecutionStats :=
  (stats.sync.update executionTime).map fun sync => { stats with sync }

def updateAsyncExecutionStats (executionTime : Microseconds) : Option ExecutionStats :=
  (stats.async.update executionTime).map fun async => { stats with async }

/-- `resetExecutionStats`. -/
def reset : ExecutionStats := {}

/-- A maximum that takes part in the minimum: that of a kind which has taken no time does not. -/
def minCandidate (maxTime : Microseconds) : Microseconds :=
  if maxTime > 0 then maxTime else durationMax

def getPerformanceMetrics : Option PerformanceMetrics :=
  let count := stats.sync.executionCount + stats.async.executionCount
  if count > 0 then
    (addDurations stats.sync.totalTime stats.async.totalTime).map fun totalTime =>
      { executionCount := count
        executionTime := totalTime
        averageExecutionTime := totalTime.tdiv count
        maxExecutionTime := max stats.sync.maxTime stats.async.maxTime
        minExecutionTime := min (minCandidate stats.sync.maxTime) (minCandidate stats.async.maxTime) }
  else some { executionCount := count }

end ExecutionStats

/-! ## Recorded times -/

inductive ExecutionKind
  | sync
  | async
  deriving DecidableEq, Repr

/-- An execution whose time is recorded. -/
structure RecordedTime where
  kind : ExecutionKind
  time : Microseconds
  nonneg : 0 ≤ time

/-- The statistics of this kind. -/
def ExecutionStats.ofKind (stats : ExecutionStats) : ExecutionKind → KindStats
  | .sync => stats.sync
  | .async => stats.async

/-- The update that records an execution. -/
def ExecutionStats.record (stats : ExecutionStats) (x : RecordedTime) : Option ExecutionStats :=
  match x.kind with
  | .sync => stats.updateSyncExecutionStats x.time
  | .async => stats.updateAsyncExecutionStats x.time

/-- **The statistics of these executions**, the first of them after a reset. -/
def ExecutionStats.after (xs : List RecordedTime) : Option ExecutionStats :=
  xs.foldlM record {}

/-- The times, of both kinds. -/
def times (xs : List RecordedTime) : List Microseconds := xs.map (·.time)

/-- The times of one kind. -/
def timesOf (kind : ExecutionKind) (xs : List RecordedTime) : List Microseconds :=
  (xs.filter fun x => x.kind = kind).map (·.time)

/-- The metrics `m` are those of the times `ts`. -/
structure Describes (m : PerformanceMetrics) (ts : List Microseconds) : Prop where
  least : m.minExecutionTime ∈ ts ∧ ∀ time ∈ ts, m.minExecutionTime ≤ time
  greatest : m.maxExecutionTime ∈ ts ∧ ∀ time ∈ ts, time ≤ m.maxExecutionTime
  average : m.averageExecutionTime = ts.sum.tdiv ts.length
  ordered : m.minExecutionTime ≤ m.averageExecutionTime ∧
    m.averageExecutionTime ≤ m.maxExecutionTime

/-- `getPerformanceMetrics` returns the metrics of the recorded times. -/
def Reported (xs : List RecordedTime) : Prop :=
  ∃ stats m, ExecutionStats.after xs = some stats ∧ stats.getPerformanceMetrics = some m ∧
    Describes m (times xs)

/-- **The condition**: the sum of the times fits, and one kind always took the same time, no more
than any execution of the other. -/
structure OneKindLeast (xs : List RecordedTime) : Prop where
  fits : (times xs).sum ≤ durationMax
  constant : ∃ kind least, 0 < least ∧ least ∈ timesOf kind xs ∧
    (∀ time ∈ timesOf kind xs, time = least) ∧ ∀ time ∈ times xs, least ≤ time

/-! ## What the statistics keep of the times -/

variable {xs : List RecordedTime} {ts : List Microseconds} {k : KindStats} {stats : ExecutionStats}
  {m : PerformanceMetrics}

/-- The number, the sum and the maximum of the times, where a kind without any has the maximum 0. -/
structure KindStats.Summarizes (k : KindStats) (ts : List Microseconds) : Prop where
  count : k.executionCount = ts.length
  total : k.totalTime = ts.sum
  fits : ts.sum ≤ durationMax
  max_nonneg : 0 ≤ k.maxTime
  max_mem : 0 < k.maxTime → k.maxTime ∈ ts
  le_max : ∀ time ∈ ts, time ≤ k.maxTime

theorem addDurations_eq_some {a b c : Microseconds} :
    addDurations a b = some c ↔ a + b ≤ durationMax ∧ a + b = c := by
  unfold addDurations
  split
  next h => simp [h]
  next h => simp [h]

theorem KindStats.summarizes_nil : ({} : KindStats).Summarizes [] where
  count := rfl
  total := rfl
  fits := by decide
  max_nonneg := le_rfl
  max_mem h := absurd h (lt_irrefl _)
  le_max time h := absurd h List.not_mem_nil

/-- **One more time** is recorded exactly if the sum still fits. -/
theorem KindStats.Summarizes.update {k' : KindStats} {time : Microseconds} (h : k.Summarizes ts)
    (hupdate : k.update time = some k') : k'.Summarizes (ts ++ [time]) := by
  obtain ⟨total, htotal, rfl⟩ := Option.map_eq_some_iff.mp hupdate
  obtain ⟨hfits, rfl⟩ := addDurations_eq_some.mp htotal
  have hsum : (ts ++ [time]).sum = k.totalTime + time := by
    rw [List.sum_append, List.sum_singleton, h.total]
  have hnonneg := h.max_nonneg
  refine ⟨by rw [List.length_append, h.count]; rfl, hsum.symm, hsum ▸ hfits, ?_, ?_, ?_⟩
  · dsimp only
    split
    next hgt => exact hnonneg.trans hgt.le
    next => exact hnonneg
  · intro hpos
    dsimp only at hpos ⊢
    split
    · exact List.mem_append_right _ (List.mem_singleton_self _)
    next hle =>
      rw [if_neg hle] at hpos
      exact List.mem_append_left _ (h.max_mem hpos)
  · intro t ht
    rw [List.mem_append, List.mem_singleton] at ht
    dsimp only
    split
    next hgt =>
      rcases ht with ht | rfl
      · exact (h.le_max t ht).trans hgt.le
      · exact le_rfl
    next hle =>
      rcases ht with ht | rfl
      · exact h.le_max t ht
      · exact not_lt.mp hle

theorem KindStats.Summarizes.exists_update {time : Microseconds} (h : k.Summarizes ts)
    (hfits : (ts ++ [time]).sum ≤ durationMax) : ∃ k', k.update time = some k' := by
  rw [List.sum_append, List.sum_singleton, ← h.total] at hfits
  exact ⟨_, Option.map_eq_some_iff.mpr ⟨_, addDurations_eq_some.mpr ⟨hfits, rfl⟩, rfl⟩⟩

/-! ## Both kinds -/

theorem timesOf_concat (kind : ExecutionKind) (xs : List RecordedTime) (x : RecordedTime) :
    timesOf kind (xs ++ [x]) =
      if x.kind = kind then timesOf kind xs ++ [x.time] else timesOf kind xs := by
  rw [timesOf, List.filter_append, List.map_append]
  split
  next h => simp [timesOf, h]
  next h => simp [timesOf, h]

theorem after_concat (xs : List RecordedTime) (x : RecordedTime) :
    ExecutionStats.after (xs ++ [x]) = (ExecutionStats.after xs).bind fun st => st.record x := by
  rw [ExecutionStats.after, List.foldlM_append]
  simp only [List.foldlM_cons, List.foldlM_nil]
  exact congrArg _ (funext fun st => bind_pure _)

/-- Recording an execution updates the statistics of its kind. -/
theorem record_eq_some {x : RecordedTime} {stats' : ExecutionStats} :
    stats.record x = some stats' ↔ (stats.ofKind x.kind).update x.time = some (stats'.ofKind x.kind) ∧
      ∀ kind, kind ≠ x.kind → stats'.ofKind kind = stats.ofKind kind := by
  obtain ⟨kind, time, hnonneg⟩ := x
  obtain ⟨sync, async⟩ := stats
  obtain ⟨sync', async'⟩ := stats'
  cases kind with
  | sync =>
    change Option.map _ (sync.update time) = _ ↔ sync.update time = some sync' ∧ _
    rw [Option.map_eq_some_iff]
    constructor
    · rintro ⟨k, hk, he⟩
      obtain ⟨rfl, rfl⟩ := ExecutionStats.mk.inj he
      refine ⟨hk, fun kind hkind => ?_⟩
      cases kind with
      | sync => exact absurd rfl hkind
      | async => rfl
    · rintro ⟨hk, hother⟩
      have hasync : async' = async := hother .async ExecutionKind.noConfusion
      exact ⟨sync', hk, by rw [hasync]⟩
  | async =>
    change Option.map _ (async.update time) = _ ↔ async.update time = some async' ∧ _
    rw [Option.map_eq_some_iff]
    constructor
    · rintro ⟨k, hk, he⟩
      obtain ⟨rfl, rfl⟩ := ExecutionStats.mk.inj he
      refine ⟨hk, fun kind hkind => ?_⟩
      cases kind with
      | sync => rfl
      | async => exact absurd rfl hkind
    · rintro ⟨hk, hother⟩
      have hsync : sync' = sync := hother .sync ExecutionKind.noConfusion
      exact ⟨async', hk, by rw [hsync]⟩

/-- **What the statistics are.** -/
theorem summarizes_of_after (h : ExecutionStats.after xs = some stats) (kind : ExecutionKind) :
    (stats.ofKind kind).Summarizes (timesOf kind xs) := by
  induction xs using List.reverseRecOn generalizing stats with
  | nil =>
    obtain ⟨⟩ := h
    cases kind <;> exact KindStats.summarizes_nil
  | append_singleton xs x ih =>
    rw [after_concat] at h
    obtain ⟨st, hst, hx⟩ := Option.bind_eq_some_iff.mp h
    obtain ⟨hupdate, hother⟩ := record_eq_some.mp hx
    rw [timesOf_concat]
    split
    next he =>
      subst he
      exact (ih hst).update hupdate
    next hne =>
      rw [hother kind fun he => hne he.symm]
      exact ih hst

/-- **Times whose sum fits are recorded.** -/
theorem exists_after (h : ∀ kind, (timesOf kind xs).sum ≤ durationMax) :
    ∃ stats, ExecutionStats.after xs = some stats := by
  induction xs using List.reverseRecOn with
  | nil => exact ⟨{}, rfl⟩
  | append_singleton xs x ih =>
    have hold (kind : ExecutionKind) : (timesOf kind xs).sum ≤ durationMax := by
      have hkind := h kind
      have hnonneg := x.nonneg
      rw [timesOf_concat] at hkind
      split at hkind
      · rw [List.sum_append, List.sum_singleton] at hkind
        exact (le_add_of_nonneg_right hnonneg).trans hkind
      · exact hkind
    obtain ⟨st, hst⟩ := ih hold
    have hfits := h x.kind
    rw [timesOf_concat, if_pos rfl] at hfits
    obtain ⟨k, hk⟩ := (summarizes_of_after hst x.kind).exists_update hfits
    rw [after_concat, hst]
    obtain ⟨kind, time, hnonneg⟩ := x
    cases kind with
    | sync => exact ⟨{ st with sync := k }, Option.map_eq_some_iff.mpr ⟨k, hk, rfl⟩⟩
    | async => exact ⟨{ st with async := k }, Option.map_eq_some_iff.mpr ⟨k, hk, rfl⟩⟩

/-! ## The metrics -/

theorem nonneg_of_mem_times {time : Microseconds} (h : time ∈ times xs) : 0 ≤ time := by
  obtain ⟨x, -, rfl⟩ := List.mem_map.mp h
  exact x.nonneg

theorem mem_times_iff {time : Microseconds} :
    time ∈ times xs ↔ ∃ kind, time ∈ timesOf kind xs := by
  simp only [times, timesOf, List.mem_map, List.mem_filter, decide_eq_true_eq]
  constructor
  · rintro ⟨x, hx, rfl⟩
    exact ⟨x.kind, x, ⟨hx, rfl⟩, rfl⟩
  · rintro ⟨kind, x, ⟨hx, -⟩, rfl⟩
    exact ⟨x, hx, rfl⟩

theorem sum_times (xs : List RecordedTime) :
    (timesOf .sync xs).sum + (timesOf .async xs).sum = (times xs).sum := by
  induction xs with
  | nil => rfl
  | cons x xs ih =>
    simp only [times, timesOf] at ih ⊢
    obtain ⟨kind, time, hnonneg⟩ := x
    cases kind with
    | sync => simp [← ih, add_assoc]
    | async => simp [← ih, add_left_comm]

theorem length_times (xs : List RecordedTime) :
    (timesOf .sync xs).length + (timesOf .async xs).length = (times xs).length := by
  induction xs with
  | nil => rfl
  | cons x xs ih =>
    simp only [times, timesOf] at ih ⊢
    obtain ⟨kind, time, hnonneg⟩ := x
    cases kind with
    | sync => simp only [List.map_cons, List.length_cons, ← ih]; simp; omega
    | async => simp only [List.map_cons, List.length_cons, ← ih]; simp; omega

/-- A mean lies between the bounds of what it is the mean of. -/
theorem mean_between {least greatest : Microseconds} (hne : ts ≠ []) (hnonneg : 0 ≤ least)
    (hleast : ∀ time ∈ ts, least ≤ time) (hgreatest : ∀ time ∈ ts, time ≤ greatest) :
    least ≤ ts.sum.tdiv ts.length ∧ ts.sum.tdiv ts.length ≤ greatest := by
  have hpos : (0 : ℤ) < ts.length := by
    exact_mod_cast List.length_pos_iff.mpr hne
  have hlow : (ts.length : ℤ) * least ≤ ts.sum := by
    simpa using List.card_nsmul_le_sum ts least hleast
  have hhigh : ts.sum ≤ (ts.length : ℤ) * greatest := by
    simpa using List.sum_le_card_nsmul ts greatest hgreatest
  have hsum : 0 ≤ ts.sum := (mul_nonneg hpos.le hnonneg).trans hlow
  rw [Int.tdiv_eq_ediv_of_nonneg hsum]
  constructor
  · rw [Int.le_ediv_iff_mul_le hpos, mul_comm]
    exact hlow
  · exact Int.ediv_le_of_le_mul hpos (mul_comm greatest _ ▸ hhigh)

/-- The sum of the two kinds is taken when the metrics are, and may overflow there. -/
theorem fits_of_metrics (hafter : ExecutionStats.after xs = some stats) (hne : times xs ≠ [])
    (hm : stats.getPerformanceMetrics = some m) : (times xs).sum ≤ durationMax := by
  have hsync := summarizes_of_after hafter .sync
  have hasync := summarizes_of_after hafter .async
  have hcount : stats.sync.executionCount + stats.async.executionCount = (times xs).length := by
    rw [← length_times, ← hsync.count, ← hasync.count]
    rfl
  have hlength := List.length_pos_iff.mpr hne
  unfold ExecutionStats.getPerformanceMetrics at hm
  dsimp only at hm
  rw [if_pos (hcount ▸ hlength)] at hm
  obtain ⟨total, htotal, -⟩ := Option.map_eq_some_iff.mp hm
  obtain ⟨hfits, -⟩ := addDurations_eq_some.mp htotal
  rw [← sum_times, ← hsync.total, ← hasync.total]
  exact hfits

/-- **The metrics**, where the sum of the times fits. -/
theorem metrics_of_after (hafter : ExecutionStats.after xs = some stats) (hne : times xs ≠ [])
    (hfits : (times xs).sum ≤ durationMax) :
    stats.getPerformanceMetrics = some {
      executionCount := (times xs).length
      executionTime := (times xs).sum
      averageExecutionTime := (times xs).sum.tdiv (times xs).length
      maxExecutionTime := max stats.sync.maxTime stats.async.maxTime
      minExecutionTime := min (ExecutionStats.minCandidate stats.sync.maxTime)
        (ExecutionStats.minCandidate stats.async.maxTime) } := by
  have hsync := summarizes_of_after hafter .sync
  have hasync := summarizes_of_after hafter .async
  have hcount : stats.sync.executionCount + stats.async.executionCount = (times xs).length := by
    rw [← length_times, ← hsync.count, ← hasync.count]
    rfl
  have hsum : stats.sync.totalTime + stats.async.totalTime = (times xs).sum := by
    rw [← sum_times, ← hsync.total, ← hasync.total]
    rfl
  have htotal : addDurations stats.sync.totalTime stats.async.totalTime = some (times xs).sum :=
    addDurations_eq_some.mpr ⟨hsum ▸ hfits, hsum⟩
  have hlength := List.length_pos_iff.mpr hne
  unfold ExecutionStats.getPerformanceMetrics
  dsimp only
  rw [if_pos (hcount ▸ hlength), htotal, Option.map_some, hcount]

/-- A positive maximum is a time that was recorded. -/
theorem maxTime_mem (hafter : ExecutionStats.after xs = some stats) {kind : ExecutionKind}
    (hpos : 0 < (stats.ofKind kind).maxTime) :
    (stats.ofKind kind).maxTime ∈ timesOf kind xs ∧ (stats.ofKind kind).maxTime ∈ times xs :=
  have hmem := (summarizes_of_after hafter kind).max_mem hpos
  ⟨hmem, mem_times_iff.mpr ⟨kind, hmem⟩⟩

/-- A maximum is a 64-bit number. -/
theorem maxTime_le (hafter : ExecutionStats.after xs = some stats) (kind : ExecutionKind) :
    (stats.ofKind kind).maxTime ≤ durationMax := by
  have hk := summarizes_of_after hafter kind
  rcases hk.max_nonneg.eq_or_lt with hzero | hpos
  · rw [← hzero]
    decide
  · refine le_trans (List.single_le_sum (fun time h => ?_) _ (hk.max_mem hpos)) hk.fits
    exact nonneg_of_mem_times (mem_times_iff.mpr ⟨kind, h⟩)

/-- **The minimum that is reported is a maximum**, that of one of the two kinds. -/
theorem min_eq_maxTime (hafter : ExecutionStats.after xs = some stats)
    (hpos : ∃ time ∈ times xs, 0 < time) :
    ∃ kind, 0 < (stats.ofKind kind).maxTime ∧
      min (ExecutionStats.minCandidate stats.sync.maxTime)
        (ExecutionStats.minCandidate stats.async.maxTime) = (stats.ofKind kind).maxTime ∧
      ∀ other, 0 < (stats.ofKind other).maxTime →
        (stats.ofKind kind).maxTime ≤ (stats.ofKind other).maxTime := by
  have hsync : stats.sync.maxTime ≤ durationMax := maxTime_le hafter .sync
  have hasync : stats.async.maxTime ≤ durationMax := maxTime_le hafter .async
  have hsome : 0 < stats.sync.maxTime ∨ 0 < stats.async.maxTime := by
    obtain ⟨time, htime, ht⟩ := hpos
    obtain ⟨kind, hkind⟩ := mem_times_iff.mp htime
    have hle := ht.trans_le ((summarizes_of_after hafter kind).le_max time hkind)
    cases kind with
    | sync => exact .inl hle
    | async => exact .inr hle
  by_cases hs : 0 < stats.sync.maxTime
  · by_cases ha : 0 < stats.async.maxTime
    · rw [ExecutionStats.minCandidate, ExecutionStats.minCandidate, if_pos hs, if_pos ha]
      rcases le_total stats.sync.maxTime stats.async.maxTime with hle | hle
      · refine ⟨.sync, hs, min_eq_left hle, fun other _ => ?_⟩
        cases other with
        | sync => exact le_rfl
        | async => exact hle
      · refine ⟨.async, ha, min_eq_right hle, fun other _ => ?_⟩
        cases other with
        | sync => exact hle
        | async => exact le_rfl
    · rw [ExecutionStats.minCandidate, ExecutionStats.minCandidate, if_pos hs, if_neg ha]
      refine ⟨.sync, hs, min_eq_left hsync, fun other hother => ?_⟩
      cases other with
      | sync => exact le_rfl
      | async => exact absurd hother ha
  · have ha : 0 < stats.async.maxTime := hsome.resolve_left hs
    rw [ExecutionStats.minCandidate, ExecutionStats.minCandidate, if_neg hs, if_pos ha]
    refine ⟨.async, ha, min_eq_right hasync, fun other hother => ?_⟩
    cases other with
    | sync => exact absurd hother hs
    | async => exact le_rfl

/-- **When the metrics are those of the times**: exactly if their sum fits and one kind always took
the same positive time, no more than any execution of the other. -/
theorem reported_iff (xs : List RecordedTime) (hpos : ∃ time ∈ times xs, 0 < time) :
    Reported xs ↔ OneKindLeast xs := by
  have hne : times xs ≠ [] := by
    obtain ⟨time, htime, -⟩ := hpos
    exact List.ne_nil_of_mem htime
  constructor
  · rintro ⟨stats, m, hafter, hm, hdescribes⟩
    have hfits := fits_of_metrics hafter hne hm
    obtain rfl := Option.some.inj ((metrics_of_after hafter hne hfits).symm.trans hm)
    obtain ⟨kind, hkind, hmin, -⟩ := min_eq_maxTime hafter hpos
    have hleast := hdescribes.least.2
    dsimp only at hleast
    rw [hmin] at hleast
    -- what no time is below bounds its own kind from both sides
    have hconstant (time : Microseconds) (htime : time ∈ timesOf kind xs) :
        time = (stats.ofKind kind).maxTime :=
      le_antisymm ((summarizes_of_after hafter kind).le_max time htime)
        (hleast time (mem_times_iff.mpr ⟨kind, htime⟩))
    exact ⟨hfits, kind, _, hkind, (maxTime_mem hafter hkind).1, hconstant, hleast⟩
  · rintro ⟨hfits, kind, least, hleastPos, hmem, hconstant, hleast⟩
    have hparts (k : ExecutionKind) : (timesOf k xs).sum ≤ durationMax := by
      have hsum := sum_times xs
      have hnonneg (k : ExecutionKind) : 0 ≤ (timesOf k xs).sum :=
        List.sum_nonneg fun time h => nonneg_of_mem_times (mem_times_iff.mpr ⟨k, h⟩)
      rw [← hsum] at hfits
      cases k with
      | sync => exact (le_add_of_nonneg_right (hnonneg .async)).trans hfits
      | async => exact (le_add_of_nonneg_left (hnonneg .sync)).trans hfits
    obtain ⟨stats, hafter⟩ := exists_after hparts
    obtain ⟨first, hfirst, hmin, hother⟩ := min_eq_maxTime hafter hpos
    have hmax : (stats.ofKind kind).maxTime = least := by
      have hle := (summarizes_of_after hafter kind).le_max least hmem
      exact hconstant _ (maxTime_mem hafter (hleastPos.trans_le hle)).1
    have hfirstEq : (stats.ofKind first).maxTime = least := by
      refine le_antisymm ?_ (hleast _ (maxTime_mem hafter hfirst).2)
      exact hmax ▸ hother kind (hmax ▸ hleastPos)
    have hgreatest (time : Microseconds) (htime : time ∈ times xs) :
        time ≤ max stats.sync.maxTime stats.async.maxTime := by
      obtain ⟨k, hk⟩ := mem_times_iff.mp htime
      have hle := (summarizes_of_after hafter k).le_max time hk
      cases k with
      | sync => exact hle.trans (le_max_left _ _)
      | async => exact hle.trans (le_max_right _ _)
    have hmaxMem : max stats.sync.maxTime stats.async.maxTime ∈ times xs := by
      have hmaxPos : 0 < max stats.sync.maxTime stats.async.maxTime :=
        hleastPos.trans_le (hgreatest least (mem_times_iff.mpr ⟨kind, hmem⟩))
      rcases max_choice stats.sync.maxTime stats.async.maxTime with he | he <;> rw [he] at hmaxPos ⊢
      · have hsync : 0 < (stats.ofKind .sync).maxTime := hmaxPos
        exact (maxTime_mem hafter hsync).2
      · have hasync : 0 < (stats.ofKind .async).maxTime := hmaxPos
        exact (maxTime_mem hafter hasync).2
    refine ⟨stats, _, hafter, metrics_of_after hafter hne hfits, ?_, ⟨hmaxMem, hgreatest⟩, rfl, ?_⟩
    · dsimp only
      rw [hmin, hfirstEq]
      exact ⟨mem_times_iff.mpr ⟨kind, hmem⟩, hleast⟩
    · dsimp only
      rw [hmin, hfirstEq]
      exact mean_between hne hleastPos.le hleast hgreatest

/-- Ten microseconds, once. -/
def tenOnce : List RecordedTime := [⟨.sync, 10, by decide⟩]

theorem reported_tenOnce : (∃ time ∈ times tenOnce, 0 < time) ∧ Reported tenOnce :=
  have hpos : ∃ time ∈ times tenOnce, 0 < time := ⟨10, by simp [tenOnce, times], by decide⟩
  ⟨hpos, (reported_iff tenOnce hpos).mpr
    ⟨by decide, .sync, 10, by decide, by simp [tenOnce, timesOf], by simp [tenOnce, timesOf],
      by simp [tenOnce, times]⟩⟩

/-- **Ten microseconds, then twenty**: the minimum that is reported is 20, above the average 15. -/
theorem minimum_above_average :
    ¬ ∀ xs : List RecordedTime, (∃ time ∈ times xs, 0 < time) → Reported xs := by
  intro h
  obtain ⟨stats, m, hafter, hm, hdescribes⟩ :=
    h [⟨.sync, 10, by decide⟩, ⟨.sync, 20, by decide⟩] ⟨10, by simp [times], by decide⟩
  have hrun : (ExecutionStats.after [⟨.sync, 10, by decide⟩, ⟨.sync, 20, by decide⟩]).bind
      (·.getPerformanceMetrics) = some ⟨30, 15, 20, 20, 2⟩ := by decide
  rw [hafter, Option.bind_some, hm] at hrun
  obtain rfl := Option.some.inj hrun
  exact absurd hdescribes.ordered.1 (by decide)

end Units

end AxonVex
