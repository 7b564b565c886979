import AxonVex.Machinery.SlidingWindow
import Mathlib.Data.List.Pairwise
import Mathlib.Data.List.Sort
import Mathlib.Data.Rat.Floor
import Mathlib.Tactic.Linarith

/-!
# Core/PrecisionTimer — the samples of a timer

    samples_.size() < max_samples_:   push_back
    else:                             samples_[sampleHead_] ← …;  sampleHead_ ← (sampleHead_ + 1) % max_samples_

The vector first grows and is then a ring, written from the oldest sample on.  After any sequence of
calls it holds the most recent measurements since it was last cleared, each as often as it was
recorded (`retains_most_recent`); read from `sampleHead_` on they are in their order
(`Retains.rotate`).  The statistics sort a copy, and so are those of the most recent measurements
(`percentiles_of_recent`).

Times are nanoseconds on the steady clock.
-/

namespace AxonVex

open Machinery SlidingWindow

/-- `PrecisionTimer`, without the stop time, which nothing reads. -/
structure PrecisionTimer where
  start_time_ : ℤ := 0
  running_ : Bool := false
  statistics_enabled_ : Bool := false
  total_measurements_ : UInt64 := 0
  last_measurement_ : ℤ := 0
  max_samples_ : ℕ
  samples_ : List ℤ := []
  sampleHead_ : ℕ := 0
  deriving Repr

namespace PrecisionTimer

/-- The constructor, at the time `now`. -/
def new (now : ℤ) (max_samples : ℕ) : PrecisionTimer where
  start_time_ := now
  max_samples_ := max 1 max_samples

/-- `addSample(duration)`. -/
def addSample (t : PrecisionTimer) (duration : ℤ) : PrecisionTimer :=
  if t.samples_.length < t.max_samples_ then { t with samples_ := t.samples_ ++ [duration] }
  else { t with
    samples_ := t.samples_.set t.sampleHead_ duration
    sampleHead_ := (t.sampleHead_ + 1) % t.max_samples_ }

/-- `clearSamples()`. -/
def clearSamples (t : PrecisionTimer) : PrecisionTimer := { t with samples_ := [], sampleHead_ := 0 }

/-- What `stop()` and `lap()` do with a measurement. -/
def measure (t : PrecisionTimer) (elapsed : ℤ) : PrecisionTimer :=
  let t := { t with
    last_measurement_ := elapsed
    total_measurements_ := t.total_measurements_ + 1 }
  if t.statistics_enabled_ then t.addSample elapsed else t

/-- A call, with the time the clock gives it. -/
inductive Call
  | start (now : ℤ)
  | stop (now : ℤ)
  | lap (now : ℤ)
  | reset
  | clearSamples
  | enableStatistics (enable : Bool)
  deriving DecidableEq, Repr

/-- The timer after a call. -/
def call (t : PrecisionTimer) : Call → PrecisionTimer
  | .start now => { t with start_time_ := now, running_ := true }
  | .stop now => if t.running_ then { t with running_ := false }.measure (now - t.start_time_) else t
  | .lap now => if t.running_ then { t with start_time_ := now }.measure (now - t.start_time_) else t
  | .reset =>
    { t with running_ := false, total_measurements_ := 0, last_measurement_ := 0 }.clearSamples
  | .clearSamples => t.clearSamples
  | .enableStatistics enable => { t with statistics_enabled_ := enable }

/-! ## What is recorded -/

/-- What a running timer with statistics records at the time `now`. -/
def sampleAt (t : PrecisionTimer) (now : ℤ) : Option ℤ :=
  if t.running_ && t.statistics_enabled_ then some (now - t.start_time_) else none

/-- The measurement that a call records. -/
def records (t : PrecisionTimer) : Call → Option ℤ
  | .stop now => t.sampleAt now
  | .lap now => t.sampleAt now
  | _ => none

/-- The call clears the samples. -/
def Call.clears : Call → Bool
  | reset => true
  | clearSamples => true
  | _ => false

/-- The measurements recorded since the last clear or reset, after one more call. -/
def record (t : PrecisionTimer) (c : Call) (since : List ℤ) : List ℤ :=
  if c.clears then [] else since ++ (records t c).toList

/-- The timer after these calls, and the measurements recorded since the last clear or reset. -/
def run (t : PrecisionTimer) (since : List ℤ) (calls : List Call) : PrecisionTimer × List ℤ :=
  calls.foldl (fun p c => (p.1.call c, record p.1 c p.2)) (t, since)

/-- Growing, the samples are what was recorded; grown, a ring of the last entries. -/
structure Retains (t : PrecisionTimer) (since : List ℤ) : Prop where
  pos : 0 < t.max_samples_
  grown : t.samples_.length = min since.length t.max_samples_
  growing : since.length ≤ t.max_samples_ → t.samples_ = since ∧ t.sampleHead_ = 0
  ring : t.max_samples_ ≤ since.length →
    Holds t.max_samples_ since t.samples_ ∧ t.sampleHead_ = since.length % t.max_samples_

variable {t t' : PrecisionTimer} {since : List ℤ} {x : ℤ}

theorem Retains.nil (hpos : 0 < t.max_samples_) (hsamples : t.samples_ = [])
    (hhead : t.sampleHead_ = 0) : Retains t [] where
  pos := hpos
  grown := by rw [hsamples, List.length_nil, Nat.zero_min]
  growing _ := ⟨hsamples, hhead⟩
  ring h := absurd hpos (by rw [List.length_nil] at h; omega)

/-- The other fields of a timer do not matter. -/
theorem Retains.congr (h : Retains t since) (hmax : t'.max_samples_ = t.max_samples_)
    (hsamples : t'.samples_ = t.samples_) (hhead : t'.sampleHead_ = t.sampleHead_) :
    Retains t' since := by
  obtain ⟨hpos, hgrown, hgrowing, hring⟩ := h
  constructor
  · rwa [hmax]
  · rwa [hmax, hsamples]
  · rwa [hmax, hsamples, hhead]
  · rwa [hmax, hsamples, hhead]

/-- **One more sample.** -/
theorem Retains.addSample (h : Retains t since) (x : ℤ) :
    Retains (t.addSample x) (since ++ [x]) := by
  have hpos := h.pos
  have hgrown := h.grown
  have hnext : (since ++ [x]).length = since.length + 1 := by
    rw [List.length_append, List.length_singleton]
  unfold PrecisionTimer.addSample
  split_ifs with hlt
  · -- the vector grows, and may be full now
    obtain ⟨hsamples, hhead⟩ := h.growing (by omega)
    have hsame : t.samples_ ++ [x] = since ++ [x] := by rw [hsamples]
    refine ⟨hpos, ?_, fun _ => ⟨hsame, hhead⟩, fun hle => ?_⟩
    · change (t.samples_ ++ [x]).length = _
      rw [hsame, hnext]
      change _ = min _ t.max_samples_
      omega
    · change t.max_samples_ ≤ _ at hle
      have hfull : (since ++ [x]).length = t.max_samples_ := by omega
      refine ⟨?_, ?_⟩
      · change Holds t.max_samples_ (since ++ [x]) (t.samples_ ++ [x])
        rw [hsame]
        exact .of_length_eq hfull
      · change t.sampleHead_ = (since ++ [x]).length % t.max_samples_
        rw [hhead, hfull, Nat.mod_self]
  · -- the vector is full: the sample goes to the oldest one's place
    obtain ⟨hholds, hhead⟩ := h.ring (by omega)
    refine ⟨hpos, ?_, fun hle => absurd hle ?_, fun _ => ⟨?_, ?_⟩⟩
    · change (t.samples_.set t.sampleHead_ x).length = min _ t.max_samples_
      rw [List.length_set, hnext]
      omega
    · change ¬ (since ++ [x]).length ≤ t.max_samples_
      omega
    · change Holds t.max_samples_ (since ++ [x]) (t.samples_.set t.sampleHead_ x)
      rw [hhead]
      exact hholds.push hpos x
    · change (t.sampleHead_ + 1) % t.max_samples_ = (since ++ [x]).length % t.max_samples_
      rw [hhead, hnext, Nat.mod_add_mod]

/-! ### The operations, case by case -/

theorem measure_of_statistics (h : t.statistics_enabled_ = true) (elapsed : ℤ) :
    t.measure elapsed = { t with
      last_measurement_ := elapsed
      total_measurements_ := t.total_measurements_ + 1 }.addSample elapsed := if_pos h

theorem measure_of_not_statistics (h : ¬ t.statistics_enabled_ = true) (elapsed : ℤ) :
    t.measure elapsed = { t with
      last_measurement_ := elapsed
      total_measurements_ := t.total_measurements_ + 1 } := if_neg h

theorem call_stop_of_running (h : t.running_ = true) (now : ℤ) : t.call (.stop now) =
    { t with running_ := false }.measure (now - t.start_time_) := if_pos h

theorem call_stop_of_stopped (h : ¬ t.running_ = true) (now : ℤ) : t.call (.stop now) = t :=
  if_neg h

theorem call_lap_of_running (h : t.running_ = true) (now : ℤ) : t.call (.lap now) =
    { t with start_time_ := now }.measure (now - t.start_time_) := if_pos h

theorem call_lap_of_stopped (h : ¬ t.running_ = true) (now : ℤ) : t.call (.lap now) = t := if_neg h

@[simp] theorem max_samples_addSample (t : PrecisionTimer) (duration : ℤ) :
    (t.addSample duration).max_samples_ = t.max_samples_ := by
  unfold addSample
  split_ifs <;> rfl

@[simp] theorem max_samples_measure (t : PrecisionTimer) (elapsed : ℤ) :
    (t.measure elapsed).max_samples_ = t.max_samples_ := by
  by_cases h : t.statistics_enabled_ = true
  · rw [measure_of_statistics h, max_samples_addSample]
  · rw [measure_of_not_statistics h]

/-- No call changes how many samples there may be. -/
theorem max_samples_call (t : PrecisionTimer) (c : Call) :
    (t.call c).max_samples_ = t.max_samples_ := by
  by_cases h : t.running_ = true
  · cases c with
    | stop now => rw [call_stop_of_running h, max_samples_measure]
    | lap now => rw [call_lap_of_running h, max_samples_measure]
    | _ => rfl
  · cases c with
    | stop now => rw [call_stop_of_stopped h]
    | lap now => rw [call_lap_of_stopped h]
    | _ => rfl

theorem sampleAt_of_running (h : t.running_ = true) (now : ℤ) :
    t.sampleAt now = if t.statistics_enabled_ then some (now - t.start_time_) else none := by
  rw [sampleAt, h, Bool.true_and]

theorem sampleAt_of_stopped (h : ¬ t.running_ = true) (now : ℤ) : t.sampleAt now = none := by
  rw [sampleAt, Bool.eq_false_iff.mpr h, Bool.false_and, if_neg Bool.false_ne_true]

/-- The sample of a measurement, with statistics. -/
theorem Retains.measure (h : Retains t since) (elapsed : ℤ) : Retains (t.measure elapsed)
    (since ++ (if t.statistics_enabled_ then some elapsed else none).toList) := by
  by_cases hstatistics : t.statistics_enabled_ = true
  · rw [measure_of_statistics hstatistics, if_pos hstatistics]
    refine Retains.addSample ?_ elapsed
    exact h.congr rfl rfl rfl
  · rw [measure_of_not_statistics hstatistics, if_neg hstatistics, Option.toList_none,
      List.append_nil]
    exact h.congr rfl rfl rfl

/-- **One call.** -/
theorem Retains.call (h : Retains t since) (c : Call) :
    Retains (t.call c) (record t c since) := by
  cases c with
  | start now =>
    have hrecord : record t (.start now) since = since := List.append_nil _
    rw [hrecord]
    exact h.congr rfl rfl rfl
  | enableStatistics enable =>
    have hrecord : record t (.enableStatistics enable) since = since := List.append_nil _
    rw [hrecord]
    exact h.congr rfl rfl rfl
  | reset => exact .nil h.pos rfl rfl
  | clearSamples => exact .nil h.pos rfl rfl
  | stop now =>
    change Retains _ (since ++ (t.sampleAt now).toList)
    by_cases hrunning : t.running_ = true
    · have hstopped : Retains { t with running_ := false } since := h.congr rfl rfl rfl
      rw [sampleAt_of_running hrunning, call_stop_of_running hrunning]
      exact hstopped.measure _
    · rwa [sampleAt_of_stopped hrunning, call_stop_of_stopped hrunning, Option.toList_none,
        List.append_nil]
  | lap now =>
    change Retains _ (since ++ (t.sampleAt now).toList)
    by_cases hrunning : t.running_ = true
    · have hrestarted : Retains { t with start_time_ := now } since := h.congr rfl rfl rfl
      rw [sampleAt_of_running hrunning, call_lap_of_running hrunning]
      exact hrestarted.measure _
    · rwa [sampleAt_of_stopped hrunning, call_lap_of_stopped hrunning, Option.toList_none,
        List.append_nil]

/-- **From the oldest sample on, and round**: the most recent measurements in their order. -/
theorem Retains.rotate (h : Retains t since) :
    t.samples_.rotate t.sampleHead_ = since.rtake t.max_samples_ := by
  rcases Nat.le_total t.max_samples_ since.length with hle | hle
  · obtain ⟨hholds, hhead⟩ := h.ring hle
    rw [hhead, hholds.rotate hle]
  · obtain ⟨hsamples, hhead⟩ := h.growing hle
    rw [hhead, List.rotate_zero, hsamples, rtake_of_length_le hle]

/-- The samples are the most recent measurements, in some order. -/
theorem Retains.perm (h : Retains t since) : t.samples_.Perm (since.rtake t.max_samples_) := by
  rw [← h.rotate]
  exact (List.rotate_perm ..).symm

/-- **The run.** -/
theorem Retains.run (h : Retains t since) (calls : List Call) :
    Retains (run t since calls).1 (run t since calls).2 := by
  induction calls generalizing t since with
  | nil => exact h
  | cons c calls ih => exact ih (h.call c)

theorem max_samples_run (t : PrecisionTimer) (since : List ℤ) (calls : List Call) :
    (run t since calls).1.max_samples_ = t.max_samples_ := by
  induction calls generalizing t since with
  | nil => rfl
  | cons c calls ih => exact (ih (t.call c) (record t c since)).trans (max_samples_call t c)

theorem retains_new (now : ℤ) (max_samples : ℕ) : Retains (new now max_samples) [] :=
  .nil (Nat.lt_of_lt_of_le Nat.one_pos (le_max_left ..)) rfl rfl

theorem retains_run_new (now : ℤ) (max_samples : ℕ) (calls : List Call) :
    Retains (run (new now max_samples) [] calls).1 (run (new now max_samples) [] calls).2 :=
  (retains_new now max_samples).run calls

/-! ## What the statistics are of -/

/-- `static_cast<long long>`, towards zero. -/
def truncate (x : ℚ) : ℤ := if 0 ≤ x then ⌊x⌋ else ⌈x⌉

/-- `calculatePercentileImpl(sorted_samples, percentile)`; ratios are read as exact rationals. -/
def calculatePercentileImpl (sorted_samples : List ℤ) (percentile : ℚ) : ℤ :=
  match sorted_samples with
  | [] => 0
  | [x] => x
  | x :: y :: rest =>
    let index : ℚ := percentile * ((x :: y :: rest).length - 1)
    let lower_index := ⌊index⌋.toNat
    let upper_index := lower_index + 1
    if (x :: y :: rest).length ≤ upper_index then (x :: y :: rest).getLastD 0
    else
      let weight : ℚ := index - lower_index
      let lower_value := (x :: y :: rest).getD lower_index 0
      let upper_value := (x :: y :: rest).getD upper_index 0
      lower_value + truncate (weight * (upper_value - lower_value))

/-- `sum.count() / size()`: the sum is converted to the unsigned type of the size, and back. -/
def meanOf (sum : ℤ) (size : ℕ) : ℤ := Int.bmod (sum % 2 ^ 64 / size) (2 ^ 64)

/-- `TimingStatistics`. -/
structure Statistics where
  min : ℤ
  max : ℤ
  mean : ℤ
  median : ℤ
  sample_count : ℕ
  total_measurements : UInt64
  deriving DecidableEq, Repr

/-- The copy of the samples that the readers sort. -/
def sorted (samples : List ℤ) : List ℤ := samples.mergeSort (· ≤ ·)

/-- `getStatistics()`. -/
def getStatistics (t : PrecisionTimer) : Except String Statistics :=
  if t.samples_.isEmpty then .error "No samples collected for statistics"
  else
    let sorted_samples := sorted t.samples_
    .ok {
      min := sorted_samples.headD 0
      max := sorted_samples.getLastD 0
      mean := meanOf sorted_samples.sum sorted_samples.length
      median := calculatePercentileImpl sorted_samples (1 / 2)
      sample_count := t.samples_.length
      total_measurements := t.total_measurements_ }

/-- `calculatePercentile(percentile)`. -/
def calculatePercentile (t : PrecisionTimer) (percentile : ℚ) : Except String ℤ :=
  if percentile < 0 ∨ 1 < percentile then .error "Percentile must be between 0.0 and 1.0"
  else if t.samples_.isEmpty then .error "No samples collected for percentile calculation"
  else .ok (calculatePercentileImpl (sorted t.samples_) percentile)

/-! ## Percentiles -/

section

variable {s : List ℤ} {p q : ℚ} {i j : ℕ}

/-- The sample at a percentile, or the last one before it. -/
def place (s : List ℤ) (p : ℚ) : ℕ := ⌊p * (s.length - 1)⌋.toNat

/-- How far the percentile is on the way from the sample at its place to the next. -/
def advance (s : List ℤ) (p : ℚ) : ℚ :=
  (p * (s.length - 1) - place s p) * (s.getD (place s p + 1) 0 - s.getD (place s p) 0)

theorem getD_mono (h : s.Pairwise (· ≤ ·)) (hij : i ≤ j) (hj : j < s.length) :
    s.getD i 0 ≤ s.getD j 0 := by
  have hi := hij.trans_lt hj
  rw [List.getD_eq_getElem?_getD, List.getD_eq_getElem?_getD, List.getElem?_eq_getElem hi,
    List.getElem?_eq_getElem hj]
  exact h.rel_get_of_le (a := ⟨i, hi⟩) (b := ⟨j, hj⟩) hij

theorem getLastD_eq (s : List ℤ) : s.getLastD 0 = s.getD (s.length - 1) 0 := by
  simp [List.getLastD_eq_getLast?, List.getLast?_eq_getElem?]

theorem calculatePercentileImpl_eq (hne : s ≠ []) (p : ℚ) : calculatePercentileImpl s p =
    if s.length ≤ place s p + 1 then s.getD (s.length - 1) 0
    else s.getD (place s p) 0 + truncate (advance s p) := by
  match s with
  | [x] => simp [calculatePercentileImpl, place]
  | x :: y :: rest =>
    rw [← getLastD_eq]
    rfl

/-- It is not past the next sample. -/
theorem truncate_advance (h : s.Pairwise (· ≤ ·)) (hp : 0 ≤ p) (hj : place s p + 1 < s.length) :
    truncate (advance s p) = ⌊advance s p⌋ ∧ 0 ≤ ⌊advance s p⌋ ∧
      ⌊advance s p⌋ ≤ s.getD (place s p + 1) 0 - s.getD (place s p) 0 := by
  have hlen : (1 : ℚ) ≤ s.length := by exact_mod_cast (Nat.le_add_left ..).trans hj.le
  have hindex : 0 ≤ p * (s.length - 1) := mul_nonneg hp (by linarith)
  have hfloor : (place s p : ℤ) = ⌊p * (s.length - 1)⌋ :=
    Int.toNat_of_nonneg (Int.floor_nonneg.mpr hindex)
  have hplace : (place s p : ℚ) = ⌊p * (s.length - 1)⌋ := by
    rw [← hfloor]
    rfl
  have hlower := hplace ▸ Int.floor_le (p * (s.length - 1))
  have hupper := hplace ▸ Int.lt_floor_add_one (p * (s.length - 1))
  have hgap : (0 : ℚ) ≤ s.getD (place s p + 1) 0 - s.getD (place s p) 0 := by
    exact_mod_cast sub_nonneg.mpr (getD_mono h (Nat.le_succ _) hj)
  have hpos : 0 ≤ advance s p := mul_nonneg (sub_nonneg.mpr hlower) hgap
  refine ⟨if_pos hpos, Int.floor_nonneg.mpr hpos, Int.floor_le_iff.mpr ?_⟩
  push_cast
  exact (mul_le_of_le_one_left hgap (by linarith)).trans_lt (lt_add_one _)

/-- **A percentile is between the samples beside it.** -/
theorem percentile_between (hne : s ≠ []) (h : s.Pairwise (· ≤ ·)) (hp : 0 ≤ p) :
    s.getD (min (place s p) (s.length - 1)) 0 ≤ calculatePercentileImpl s p ∧
      calculatePercentileImpl s p ≤ s.getD (min (place s p + 1) (s.length - 1)) 0 := by
  have hlen := List.length_pos_iff.mpr hne
  rw [calculatePercentileImpl_eq hne]
  split_ifs with hlast
  · exact ⟨getD_mono h (min_le_right ..) (by omega), getD_mono h (by omega) (by omega)⟩
  · obtain ⟨htruncate, hlower, hupper⟩ := truncate_advance h hp (not_le.mp hlast)
    rw [htruncate, min_eq_left (by omega), min_eq_left (by omega)]
    constructor <;> omega

theorem percentile_mono (hne : s ≠ []) (h : s.Pairwise (· ≤ ·)) (hp : 0 ≤ p) (hpq : p ≤ q) :
    calculatePercentileImpl s p ≤ calculatePercentileImpl s q := by
  have hlen : (0 : ℚ) ≤ s.length - 1 := sub_nonneg.mpr (by exact_mod_cast List.length_pos_iff.mpr hne)
  have hindex : p * (s.length - 1) ≤ q * (s.length - 1) := mul_le_mul_of_nonneg_right hpq hlen
  have hplace : place s p ≤ place s q := Int.toNat_le_toNat (Int.floor_mono hindex)
  rcases hplace.eq_or_lt with heq | hlt
  · rw [calculatePercentileImpl_eq hne, calculatePercentileImpl_eq hne, ← heq]
    split_ifs with hlast
    · rfl
    · obtain ⟨htruncate, -⟩ := truncate_advance h hp (not_le.mp hlast)
      obtain ⟨htruncate', -⟩ := truncate_advance h (hp.trans hpq) (heq ▸ not_le.mp hlast)
      have hgap : (0 : ℚ) ≤ s.getD (place s p + 1) 0 - s.getD (place s p) 0 := by
        exact_mod_cast sub_nonneg.mpr (getD_mono h (Nat.le_succ _) (not_le.mp hlast))
      rw [htruncate, htruncate']
      refine Int.add_le_add_left (Int.floor_mono ?_) _
      rw [advance, advance, ← heq]
      exact mul_le_mul_of_nonneg_right (sub_le_sub_right hindex _) hgap
  · refine (percentile_between hne h hp).2.trans (le_trans (getD_mono h ?_ ?_)
      (percentile_between hne h (hp.trans hpq)).1)
    · exact min_le_min_right _ hlt
    · have := List.length_pos_iff.mpr hne
      omega

end

end PrecisionTimer

open PrecisionTimer

/-- **The samples are the most recent measurements**: after any calls they are, as a multiset, the
last `min n max_samples` of the `n` measurements recorded since the last clear or reset.  (A timer
for no samples is one for one.) -/
theorem retains_most_recent (now : ℤ) (max_samples : ℕ) (calls : List Call) :
    let p := run (new now max_samples) [] calls
    p.1.samples_.Perm (p.2.rtake (min p.2.length (max 1 max_samples))) := by
  intro p
  have hmax : p.1.max_samples_ = max 1 max_samples := max_samples_run (new now max_samples) [] calls
  have hperm := (retains_run_new now max_samples calls).perm
  rwa [rtake_min_length, ← hmax]

/-- **The percentiles are in order between the least and the greatest** of the most recent
measurements. -/
theorem percentiles_of_recent (now : ℤ) (max_samples : ℕ) (calls : List Call) {p q : ℚ}
    (hp : 0 ≤ p) (hpq : p ≤ q) (hq : q ≤ 1) :
    let r := run (new now max_samples) [] calls
    let recent := r.2.rtake (max 1 max_samples)
    recent ≠ [] → ∃ stats a b, r.1.getStatistics = .ok stats ∧
      r.1.calculatePercentile p = .ok a ∧ r.1.calculatePercentile q = .ok b ∧
      stats.min ≤ a ∧ a ≤ b ∧ b ≤ stats.max ∧
      IsLeast {x | x ∈ recent} stats.min ∧ IsGreatest {x | x ∈ recent} stats.max := by
  intro r recent hrecent
  have hmax : r.1.max_samples_ = max 1 max_samples := max_samples_run (new now max_samples) [] calls
  have hwindow : r.1.samples_.Perm (r.2.rtake (max 1 max_samples)) := by
    rw [← hmax]
    exact (retains_run_new now max_samples calls).perm
  have hperm : (sorted r.1.samples_).Perm recent := (List.mergeSort_perm ..).trans hwindow
  have hsorted : (sorted r.1.samples_).Pairwise (· ≤ ·) := List.pairwise_mergeSort' (· ≤ ·) _
  have hne : sorted r.1.samples_ ≠ [] := fun hnil => hrecent (hnil ▸ hperm).nil_eq.symm
  have hlen := List.length_pos_iff.mpr hne
  have hsome : r.1.samples_.isEmpty = false :=
    List.isEmpty_eq_false_iff.mpr fun hnil => hne (by rw [sorted, hnil, List.mergeSort_nil])
  have hread {p : ℚ} (hp : 0 ≤ p) (hp' : p ≤ 1) : r.1.calculatePercentile p =
      .ok (calculatePercentileImpl (sorted r.1.samples_) p) := by
    rw [calculatePercentile, if_neg (by simp [hp, hp']), hsome]
    rfl
  have hmem {i : ℕ} (hi : i < (sorted r.1.samples_).length) :
      (sorted r.1.samples_).getD i 0 ∈ recent := by
    rw [List.getD_eq_getElem?_getD, List.getElem?_eq_getElem hi]
    exact hperm.mem_iff.mp (List.getElem_mem hi)
  have hget {x : ℤ} (hx : x ∈ recent) :
      ∃ i < (sorted r.1.samples_).length, (sorted r.1.samples_).getD i 0 = x := by
    obtain ⟨i, hi, rfl⟩ := List.getElem_of_mem (hperm.mem_iff.mpr hx)
    exact ⟨i, hi, by rw [List.getD_eq_getElem?_getD, List.getElem?_eq_getElem hi, Option.getD_some]⟩
  have hstats : r.1.getStatistics = .ok {
      min := (sorted r.1.samples_).getD 0 0
      max := (sorted r.1.samples_).getD ((sorted r.1.samples_).length - 1) 0
      mean := meanOf (sorted r.1.samples_).sum (sorted r.1.samples_).length
      median := calculatePercentileImpl (sorted r.1.samples_) (1 / 2)
      sample_count := r.1.samples_.length
      total_measurements := r.1.total_measurements_ } := by
    rw [getStatistics, hsome, ← getLastD_eq]
    cases sorted r.1.samples_ <;> rfl
  refine ⟨_, _, _, hstats, hread hp (hpq.trans hq), hread (hp.trans hpq) hq, ?_,
    percentile_mono hne hsorted hp hpq, ?_, ⟨hmem hlen, fun x hx => ?_⟩, hmem (by omega),
    fun x hx => ?_⟩
  · exact (getD_mono hsorted (Nat.zero_le _) (by omega)).trans (percentile_between hne hsorted hp).1
  · exact (percentile_between hne hsorted (hp.trans hpq)).2.trans
      (getD_mono hsorted (min_le_right ..) (by omega))
  · obtain ⟨i, hi, rfl⟩ := hget hx
    exact getD_mono hsorted (Nat.zero_le _) hi
  · obtain ⟨i, hi, rfl⟩ := hget hx
    exact getD_mono hsorted (Nat.le_sub_one_of_lt hi) (by omega)

/-- Two laps. -/
theorem percentiles_of_recent_laps :
    let t := (run (new 0 2) [] [.enableStatistics true, .start 0, .lap 9, .lap 12]).1
    ∃ stats b, t.getStatistics = .ok stats ∧ t.calculatePercentile 1 = .ok b ∧ b ≤ stats.max := by
  intro t
  have hhalf : (0 : ℚ) ≤ 1 / 2 := by norm_num
  have hle : (1 / 2 : ℚ) ≤ 1 := by norm_num
  obtain ⟨stats, a, b, hstats, -, hb, -, -, hmax, -⟩ := percentiles_of_recent 0 2
    [.enableStatistics true, .start 0, .lap 9, .lap 12] hhalf hle le_rfl (by decide)
  exact ⟨stats, b, hstats, hb, hmax⟩

end AxonVex
