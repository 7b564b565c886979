import AxonVex.Units.Control

/-!
# Units/DownSampling — every k-th call of `processSyncBase`

The counter goes up before `processSync()` is called and back to zero after it has returned.  If it
throws the counter stays where it is, the next call finds it above the factor, and so `processSync()`
is called again at once.  Only a factor of one hides this, until the counter, an `int`, overflows.

The calls are told by a counter of their own (`ticksSince`), from which everything is read off: the
calls go by the factor exactly if no call before the last one has thrown
(`processSync_at_multiples`).
-/

namespace AxonVex

namespace Units

variable {P I O D E : Type*}

/-- The largest `int`. -/
def intMax : ℕ := 2147483647

namespace UnitState

variable (u : UnitState P I O D E)

/-- `setDownSamplingFactor(factor)`; `none` throws. -/
def setDownSamplingFactor (factor : ℤ) : Option (UnitState P I O D E) :=
  if factor < 1 then none
  else some { u with
    downSamplingFactor := factor
    intraSampleCounter := 0 }

/-- `processSyncBase()`, and whether it calls `processSync()`, which leaves `outcome` behind and
throws at `false`; `none` is the overflow of the counter, which is undefined. -/
def processSyncBase (outcome : Body P I O D E × Bool) : Option (UnitState P I O D E × Bool) :=
  let counter := u.intraSampleCounter + 1
  if counter > intMax then none
  else if counter ≥ u.downSamplingFactor then
    if u.isDisabled then some ({ u with intraSampleCounter := 0 }, false)
    else if outcome.2 then some ({ u with body := outcome.1, intraSampleCounter := 0 }, true)
    else some ({ u with body := outcome.1, intraSampleCounter := counter }, true)
  else some ({ u with intraSampleCounter := counter }, false)

/-- The unit after `n` calls, and the numbers of those that have called `processSync()`. -/
def afterCalls (outcomes : ℕ → Body P I O D E × Bool) : ℕ → Option (UnitState P I O D E × List ℕ)
  | 0 => some (u, [])
  | n + 1 =>
    (afterCalls outcomes n).bind fun q =>
      (q.1.processSyncBase (outcomes (n + 1))).map fun r =>
        (r.1, if r.2 then q.2 ++ [n + 1] else q.2)

end UnitState

/-- `k`, `2 * k`, `3 * k` and so on, up to `n`. -/
def multiples (k n : ℕ) : List ℕ := (List.range (n / k)).map fun j => (j + 1) * k

/-- Of `n` calls after `setDownSamplingFactor(k)`, those by the factor call `processSync()`. -/
def CallsAtMultiples (u : UnitState P I O D E) (k : ℕ) (outcomes : ℕ → Body P I O D E × Bool)
    (n : ℕ) : Prop :=
  ∃ v, u.setDownSamplingFactor k = some v ∧
    (v.afterCalls outcomes n).map Prod.snd = some (multiples k n)

theorem multiples_succ (k n : ℕ) :
    multiples k (n + 1) = if k ∣ n + 1 then multiples k n ++ [n + 1] else multiples k n := by
  rw [multiples, Nat.succ_div]
  split
  next h =>
    obtain ⟨m, hm⟩ := h
    have hdiv : (n / k + 1) * k = n + 1 := by
      have hsucc : (n + 1) / k = n / k + 1 := by rw [Nat.succ_div, if_pos ⟨m, hm⟩]
      rw [← hsucc, Nat.div_mul_cancel ⟨m, hm⟩]
    rw [List.range_succ, List.map_append, List.map_singleton, hdiv]
    rfl
  next => rfl

theorem le_of_mem_multiples {k n i : ℕ} (h : i ∈ multiples k n) : i ≤ n := by
  obtain ⟨j, hj, rfl⟩ := List.mem_map.mp h
  have hle : j + 1 ≤ n / k := List.mem_range.mp hj
  exact (Nat.mul_le_mul_right k hle).trans (Nat.div_mul_le_self n k)

/-! ## The counter -/

section Counter

variable (k : ℕ) (returns : ℕ → Bool)

/-- The counter after `n` calls, if it had no bound. -/
def ticksSince : ℕ → ℕ
  | 0 => 0
  | n + 1 => if k ≤ ticksSince n + 1 ∧ returns (n + 1) = true then 0 else ticksSince n + 1

/-- The next call is by the factor, and its counter fits. -/
def OnTime (m : ℕ) : Prop :=
  ticksSince k returns m + 1 ≤ intMax ∧ (k ≤ ticksSince k returns m + 1 ↔ k ∣ m + 1)

end Counter

/-- An enabled unit of the factor `k`, whose counter stands at `count`. -/
structure Counts (u : UnitState P I O D E) (k count : ℕ) : Prop where
  enabled : u.isDisabled = false
  factor : u.downSamplingFactor = k
  counter : u.intraSampleCounter = count

variable {u v : UnitState P I O D E} {k count n : ℕ} {outcomes : ℕ → Body P I O D E × Bool}
  {returns : ℕ → Bool}

/-- A call of an enabled unit. -/
theorem Counts.call (h : Counts u k count) (outcome : Body P I O D E × Bool)
    (hfits : count + 1 ≤ intMax) :
    ∃ v, u.processSyncBase outcome = some (v, decide (k ≤ count + 1)) ∧
      Counts v k (if k ≤ count + 1 ∧ outcome.2 = true then 0 else count + 1) := by
  have hbound : ¬ ((count : ℤ) + 1 > intMax) := by omega
  have hreached : (count : ℤ) + 1 ≥ k ↔ k ≤ count + 1 := by omega
  by_cases hk : k ≤ count + 1
  · cases hreturns : outcome.2 with
    | true =>
      refine ⟨{ u with body := outcome.1, intraSampleCounter := 0 }, ?_, h.enabled, h.factor, ?_⟩
      · simp [UnitState.processSyncBase, h.enabled, h.factor, h.counter, hbound, hreached, hk,
          hreturns]
      · simp [hk]
    | false =>
      refine ⟨{ u with body := outcome.1, intraSampleCounter := (count : ℤ) + 1 }, ?_, h.enabled,
        h.factor, ?_⟩
      · simp [UnitState.processSyncBase, h.enabled, h.factor, h.counter, hbound, hreached, hk,
          hreturns]
      · simp
  · refine ⟨{ u with intraSampleCounter := (count : ℤ) + 1 }, ?_, h.enabled, h.factor, ?_⟩
    · simp [UnitState.processSyncBase, h.factor, h.counter, hbound, hreached, hk]
    · simp [hk]

theorem Counts.overflow (h : Counts u k count) (outcome : Body P I O D E × Bool)
    (hfits : ¬ count + 1 ≤ intMax) :
    u.processSyncBase outcome = none := by
  have hbound : (count : ℤ) + 1 > intMax := by omega
  rw [UnitState.processSyncBase, h.counter, if_pos hbound]

/-- **The counter of a run**, and the calls it has made so far. -/
theorem Counts.afterCalls (h : Counts u k 0) {l : List ℕ}
    (hv : u.afterCalls outcomes n = some (v, l)) :
    Counts v k (ticksSince k (fun i => (outcomes i).2) n) ∧ ∀ i ∈ l, i ≤ n := by
  induction n generalizing v l with
  | zero =>
    obtain ⟨rfl, rfl⟩ := Prod.mk.inj (Option.some.inj hv)
    exact ⟨h, by simp⟩
  | succ n ih =>
    obtain ⟨⟨w, l'⟩, hw, hr⟩ := Option.bind_eq_some_iff.mp hv
    obtain ⟨⟨v', called⟩, hcall, ⟨⟩⟩ := Option.map_eq_some_iff.mp hr
    obtain ⟨hcounts, hle⟩ := ih hw
    by_cases hfits : ticksSince k (fun i => (outcomes i).2) n + 1 ≤ intMax
    · obtain ⟨v, hv, hnext⟩ := hcounts.call (outcomes (n + 1)) hfits
      obtain ⟨rfl, -⟩ := Prod.mk.inj (Option.some.inj (hcall.symm.trans hv))
      refine ⟨hnext, fun i hi => ?_⟩
      dsimp only at hi
      split at hi
      · rcases List.mem_append.mp hi with hi | hi
        · exact (hle i hi).trans (Nat.le_succ n)
        · exact (List.mem_singleton.mp hi).le
      · exact (hle i hi).trans (Nat.le_succ n)
    · exact absurd (hcall.symm.trans (hcounts.overflow (outcomes (n + 1)) hfits)) (by simp)

/-- One more call: the list and the multiples grow alike. -/
theorem append_eq_multiples_iff {l : List ℕ} (hl : ∀ i ∈ l, i ≤ n) (b : Bool) :
    (if b then l ++ [n + 1] else l) = multiples k (n + 1) ↔
      l = multiples k n ∧ (b = true ↔ k ∣ n + 1) := by
  have hnot : n + 1 ∉ l := fun h => absurd (hl _ h) (by omega)
  have hnot' : n + 1 ∉ multiples k n := fun h => absurd (le_of_mem_multiples h) (by omega)
  rw [multiples_succ]
  by_cases hdvd : k ∣ n + 1
  · cases b with
    | true => simp [hdvd]
    | false =>
      simp only [Bool.false_eq_true, ↓reduceIte, hdvd, iff_true, and_false, iff_false]
      intro heq
      exact hnot (heq ▸ by simp)
  · cases b with
    | true =>
      simp only [↓reduceIte, hdvd, iff_false, not_true_eq_false, and_false]
      intro heq
      exact hnot' (heq ▸ by simp)
    | false => simp [hdvd]

/-- **The calls go by the factor as long as the counter is on time.** -/
theorem Counts.afterCalls_iff (h : Counts u k 0) :
    (u.afterCalls outcomes n).map Prod.snd = some (multiples k n) ↔
      ∀ m < n, OnTime k (fun i => (outcomes i).2) m := by
  induction n with
  | zero => simp [UnitState.afterCalls, multiples]
  | succ n ih =>
    rw [Nat.forall_lt_succ_right, ← ih, UnitState.afterCalls]
    cases hq : u.afterCalls outcomes n with
    | none => simp
    | some q =>
      obtain ⟨v, l⟩ := q
      obtain ⟨hcounts, hle⟩ := h.afterCalls hq
      by_cases hfits : ticksSince k (fun i => (outcomes i).2) n + 1 ≤ intMax
      · obtain ⟨w, hw, -⟩ := hcounts.call (outcomes (n + 1)) hfits
        have happend := append_eq_multiples_iff (k := k) hle
          (decide (k ≤ ticksSince k (fun i => (outcomes i).2) n + 1))
        simp only [Option.bind_some, hw, Option.map_some, Option.some_inj]
        rw [happend, OnTime, decide_eq_true_iff]
        exact and_congr_right fun _ => ⟨fun hiff => ⟨hfits, hiff⟩, And.right⟩
      · simp [hcounts.overflow (outcomes (n + 1)) hfits, OnTime, hfits]

/-! ## When it is on time -/

theorem succ_mod (hk : 0 < k) (m : ℕ) : (m + 1) % k = if k ≤ m % k + 1 then 0 else m % k + 1 := by
  have hlt : m % k < k := Nat.mod_lt m hk
  rw [← Nat.mod_add_mod]
  split
  next h =>
    have heq : m % k + 1 = k := by omega
    rw [heq, Nat.mod_self]
  next h => exact Nat.mod_eq_of_lt (by omega)

theorem dvd_succ_iff (hk : 0 < k) (m : ℕ) : k ∣ m + 1 ↔ k ≤ m % k + 1 := by
  rw [Nat.dvd_iff_mod_eq_zero, succ_mod hk]
  split <;> simp_all

/-- The counter goes round with the calls while the multiples return. -/
theorem ticksSince_eq_mod (hk : 0 < k)
    (hreturns : ∀ j, 0 < j → j * k < n → returns (j * k) = true) {m : ℕ} (hm : m < n) :
    ticksSince k returns m = m % k := by
  induction m with
  | zero => rw [ticksSince, Nat.zero_mod]
  | succ m ih =>
    rw [ticksSince, ih (by omega), succ_mod hk]
    by_cases hreached : k ≤ m % k + 1
    · obtain ⟨j, hj⟩ := (dvd_succ_iff hk m).mpr hreached
      have hpos : 0 < j := Nat.pos_of_ne_zero fun h => by simp [h] at hj
      have hcall : m + 1 = j * k := by rw [hj, Nat.mul_comm]
      have hreturn : returns (m + 1) = true := by
        rw [hcall]
        exact hreturns j hpos (by omega)
      rw [if_pos ⟨hreached, hreturn⟩, if_pos hreached]
    · rw [if_neg fun h => hreached h.1, if_neg hreached]

/-- **A factor above one**: the calls are on time exactly if those at the multiples return. -/
theorem onTime_iff_returns (hk : 1 < k) (hmax : k ≤ intMax) :
    (∀ m < n, OnTime k returns m) ↔ ∀ j, 0 < j → j * k < n → returns (j * k) = true := by
  constructor
  · intro h j hj hlt
    by_contra hthrows
    obtain ⟨m, hm⟩ : ∃ m, j * k = m + 1 :=
      Nat.exists_eq_succ_of_ne_zero (Nat.mul_pos hj (by omega)).ne'
    have hreached : k ≤ ticksSince k returns m + 1 :=
      (h m (by omega)).2.mpr (hm ▸ Nat.dvd_mul_left k j)
    have hstays : ticksSince k returns (m + 1) = ticksSince k returns m + 1 := by
      rw [ticksSince, if_neg fun hand => hthrows (hm ▸ hand.2)]
    -- the counter is past the factor, so the next call is one of `processSync()`
    have hagain : k ∣ m + 1 + 1 := (h (m + 1) (by omega)).2.mp (by omega)
    have hone : k ∣ 1 := (Nat.dvd_add_right (hm ▸ Nat.dvd_mul_left k j)).mp hagain
    have := Nat.le_of_dvd Nat.one_pos hone
    omega
  · intro h m hm
    have hlt : m % k < k := Nat.mod_lt m (by omega)
    rw [OnTime, ticksSince_eq_mod (by omega) h hm, dvd_succ_iff (by omega)]
    exact ⟨by omega, Iff.rfl⟩

/-- The calls that the counter stands for have all thrown. -/
theorem throws_of_le_ticksSince {l m : ℕ} (h : l ≤ ticksSince 1 returns m) :
    l ≤ m ∧ ∀ i, m - l < i → i ≤ m → returns i = false := by
  induction m generalizing l with
  | zero =>
    rw [ticksSince] at h
    exact ⟨h, fun i hi hi' => absurd hi (by omega)⟩
  | succ m ih =>
    rw [ticksSince] at h
    split at h
    next => exact ⟨by omega, fun i hi hi' => absurd hi (by omega)⟩
    next hthrows =>
      have hlast : returns (m + 1) = false := by simpa using hthrows
      obtain ⟨hle, hall⟩ := ih (Nat.sub_le_of_le_add h)
      refine ⟨by omega, fun i hi hi' => ?_⟩
      rcases Nat.le_succ_iff.mp hi' with hi' | rfl
      · exact hall i (by omega) hi'
      · exact hlast

theorem le_ticksSince_of_throws {l m : ℕ} (h : ∀ i, m < i → i ≤ m + l → returns i = false) :
    l ≤ ticksSince 1 returns (m + l) := by
  induction l with
  | zero => exact Nat.zero_le _
  | succ l ih =>
    have hle := ih fun i hi hi' => h i hi (by omega)
    have hlast : returns (m + l + 1) = false := h (m + l + 1) (by omega) (by omega)
    rw [← Nat.add_assoc, ticksSince, if_neg (by simp [hlast])]
    omega

/-- **A factor of one**: they are exactly if no calls throw in a row until the counter is full. -/
theorem onTime_one_iff :
    (∀ m < n, OnTime 1 returns m) ↔
      ∀ m, m + intMax < n → ∃ i, m < i ∧ i ≤ m + intMax ∧ returns i = true := by
  constructor
  · intro h m hm
    by_contra hnone
    have hle : intMax ≤ ticksSince 1 returns (m + intMax) :=
      le_ticksSince_of_throws fun i hi hi' => by
        by_contra hreturn
        exact hnone ⟨i, hi, hi', by simpa using hreturn⟩
    have hfits := (h (m + intMax) hm).1
    omega
  · intro h m hm
    refine ⟨?_, by simp⟩
    by_contra hfull
    have hcount : intMax ≤ ticksSince 1 returns m := by omega
    obtain ⟨hle, hall⟩ := throws_of_le_ticksSince hcount
    obtain ⟨i, hi, hi', hreturn⟩ := h (m - intMax) (by omega)
    rw [hall i hi (by omega)] at hreturn
    exact Bool.noConfusion hreturn

/-- No call of `processSync()` before the `n`-th throws; with a factor of one, only that many in a
row do not as the counter holds. -/
def Settled (k : ℕ) (returns : ℕ → Bool) (n : ℕ) : Prop :=
  (k = 1 → ∀ m, m + intMax < n → ∃ i, m < i ∧ i ≤ m + intMax ∧ returns i = true) ∧
    (k ≠ 1 → ∀ j, 0 < j → j * k < n → returns (j * k) = true)

/-- **`processSync()` is called by the factor exactly if no call before the last one has thrown**,
or, with a factor of one, not `intMax` of them in a row. -/
theorem processSync_at_multiples (u : UnitState P I O D E) (henabled : u.isDisabled = false)
    (k : ℕ) (hk : 0 < k) (hmax : k ≤ intMax) (outcomes : ℕ → Body P I O D E × Bool) (n : ℕ) :
    CallsAtMultiples u k outcomes n ↔ Settled k (fun i => (outcomes i).2) n := by
  have hset : u.setDownSamplingFactor k =
      some { u with downSamplingFactor := k, intraSampleCounter := 0 } := by
    rw [UnitState.setDownSamplingFactor, if_neg (by omega)]
  have hcounts : Counts { u with downSamplingFactor := (k : ℤ), intraSampleCounter := 0 } k 0 :=
    ⟨henabled, rfl, rfl⟩
  have honTime : CallsAtMultiples u k outcomes n ↔
      ∀ m < n, OnTime k (fun i => (outcomes i).2) m := by
    rw [← hcounts.afterCalls_iff, CallsAtMultiples, hset]
    simp
  rw [honTime, Settled]
  by_cases hone : k = 1
  · subst hone
    rw [onTime_one_iff]
    simp
  · rw [onTime_iff_returns (by omega) hmax]
    simp [hone]

/-- What the code of a unit without ports reaches. -/
def emptyBody : Body Empty Empty Empty ℤ Unit := ⟨(), Empty.elim, Empty.elim⟩

theorem processSync_at_multiples_two :
    CallsAtMultiples { body := emptyBody } 2 (fun _ => (emptyBody, true)) 5 :=
  (processSync_at_multiples { body := emptyBody } rfl 2 (by decide) (by decide)
    (fun _ => (emptyBody, true)) 5).mpr ⟨by simp, fun _ _ _ _ => rfl⟩

/-- With the factor two, and a second call that throws, the third call is one of `processSync()`
too. -/
theorem processSync_called_again :
    ¬ CallsAtMultiples { body := emptyBody } 2 (fun i => (emptyBody, i != 2)) 3 := by
  rintro ⟨v, hv, hcalls⟩
  have hset : { body := emptyBody, downSamplingFactor := 2 } = v := Option.some.inj hv
  subst hset
  exact absurd hcalls (by decide +kernel)

end Units

end AxonVex
