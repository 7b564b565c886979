import AxonVex.Core.Containers
import AxonVex.Core.ThreadSafeQueue
import AxonVex.Machinery.Smearing

/-!
# Core/Capacities — what the constructors make of a requested capacity

    MemoryPool, ThreadSafeQueue:   max MIN (min MAX (nextPowerOf2 requested))
    RingBuffer:                    nextPowerOf2 (max MIN (min MAX requested))

All three get the least power of two within the bounds that is large enough, so that `index & mask`
is the remainder; but beyond `2⁶³` the rounding has wrapped to 0 before the first two clamp it, and
they get the minimum (`capacities_right_iff`).  It is a power of two all the same, as the machines of
the pool, the queue and the ring assume (`queueCapacity`).
-/

namespace AxonVex

open Machinery

namespace Capacities

/-- `MIN_POOL_SIZE` and `MIN_CAPACITY`. -/
def minCapacity : UInt64 := 16

/-- `MAX_POOL_SIZE` and `MAX_CAPACITY`. -/
def maxCapacity : UInt64 := 1024 * 1024

/-- `CapacityUtils::validateCapacity`. -/
def validateCapacity (requested_capacity min_capacity max_capacity : UInt64)
    (force_power_of_2 : Bool) : UInt64 :=
  let capacity :=
    if requested_capacity < min_capacity then min_capacity
    else if requested_capacity > max_capacity then max_capacity
    else requested_capacity
  if force_power_of_2 then nextPowerOf2 capacity else capacity

/-- The classes with a power of two for a capacity. -/
inductive Container
  | memoryPool
  | threadSafeQueue
  | ringBuffer
  deriving DecidableEq, Repr

/-- `pool_size_`, and `capacity_` of the other two, as the constructors initialize them. -/
def Container.capacity : Container → UInt64 → UInt64
  | memoryPool, pool_size => max minCapacity (min maxCapacity (nextPowerOf2 pool_size))
  | threadSafeQueue, capacity => max minCapacity (min maxCapacity (nextPowerOf2 capacity))
  | ringBuffer, capacity => validateCapacity capacity minCapacity maxCapacity true

/-- The least power of two within the bounds that is large enough; its mask takes the remainder. -/
structure Right (requested capacity : UInt64) : Prop where
  powerOfTwo : ∃ k, capacity.toNat = 2 ^ k
  atLeast : minCapacity ≤ capacity
  atMost : capacity ≤ maxCapacity
  covers : min requested maxCapacity ≤ capacity
  least : ∀ k, minCapacity.toNat ≤ 2 ^ k → 2 ^ k ≤ maxCapacity.toNat →
    min requested.toNat maxCapacity.toNat ≤ 2 ^ k → capacity.toNat ≤ 2 ^ k
  masks : ∀ index, index &&& (capacity - 1) = index % capacity

/-- Every class gets its capacity right, and the three agree. -/
def AllRight (requested : UInt64) : Prop :=
  (∀ c : Container, Right requested (c.capacity requested)) ∧
    ∀ c : Container, c.capacity requested = Container.ringBuffer.capacity requested

/-! ## As natural numbers -/

variable {requested capacity : UInt64}

theorem toNat_max (a b : UInt64) : (max a b).toNat = max a.toNat b.toNat := by
  rw [UInt64.max_def, apply_ite UInt64.toNat, Nat.max_def]
  simp only [UInt64.le_iff_toNat_le]

theorem toNat_min (a b : UInt64) : (min a b).toNat = min a.toNat b.toNat := by
  rw [UInt64.min_def, apply_ite UInt64.toNat, Nat.min_def]
  simp only [UInt64.le_iff_toNat_le]

theorem toNat_minCapacity : minCapacity.toNat = 2 ^ 4 := by decide

theorem toNat_maxCapacity : maxCapacity.toNat = 2 ^ 20 := by decide

/-- **The rounding** of the containers: up to a power of two, and then it wraps. -/
theorem toNat_nextPowerOf2 (value : UInt64) :
    (nextPowerOf2 value).toNat = roundUp value.toNat % 2 ^ 64 := by
  unfold nextPowerOf2
  split_ifs with hzero
  · subst hzero
    decide
  · extract_lets v v₁ v₂ v₄ v₈ v₁₆ v₃₂
    have hone : (1 : UInt64) ≤ value := by
      have hne : value.toNat ≠ 0 := fun h => hzero (UInt64.toNat_inj.mp h)
      exact UInt64.le_iff_toNat_le.mpr (Nat.pos_of_ne_zero hne)
    have hv : v.toNat = value.toNat - 1 := UInt64.toNat_sub_of_le _ _ hone
    have h₂ : Smeared 2 v.toNat v₁.toNat := (Smeared.refl _).word rfl le_rfl
    have h₄ : Smeared 4 v.toNat v₂.toNat := h₂.word rfl le_rfl
    have h₈ : Smeared 8 v.toNat v₄.toNat := h₄.word rfl le_rfl
    have h₁₆ : Smeared 16 v.toNat v₈.toNat := h₈.word rfl le_rfl
    have h₃₂ : Smeared 32 v.toNat v₁₆.toNat := h₁₆.word rfl le_rfl
    have h₆₄ : Smeared 64 v.toNat v₃₂.toNat := h₃₂.word_twice le_rfl
    have hpos : 0 < 2 ^ v.toNat.size := Nat.two_pow_pos _
    have hnext : (1 : UInt64).toNat = 1 := rfl
    rw [UInt64.toNat_add, h₆₄.eq_of_lt v.toNat_lt, hnext, Nat.sub_add_cancel hpos, hv, roundUp]

/-- No rounding up to `2⁶³` wraps. -/
theorem toNat_nextPowerOf2_of_le {value : UInt64} (h : value.toNat ≤ 2 ^ 63) :
    (nextPowerOf2 value).toNat = roundUp value.toNat := by
  have hle : roundUp value.toNat ≤ 2 ^ 63 := roundUp_le_iff.mpr h
  rw [toNat_nextPowerOf2, Nat.mod_eq_of_lt (by omega)]

/-- Every rounding beyond `2⁶³` does. -/
theorem toNat_nextPowerOf2_of_lt {value : UInt64} (h : 2 ^ 63 < value.toNat) :
    (nextPowerOf2 value).toNat = 0 := by
  have hword : roundUp value.toNat ≤ 2 ^ 64 := roundUp_le_iff.mpr value.toNat_lt.le
  have hbeyond : ¬ roundUp value.toNat ≤ 2 ^ 63 := by
    rw [roundUp_le_iff]
    omega
  obtain ⟨k, hk⟩ : ∃ k, roundUp value.toNat = 2 ^ k := ⟨_, rfl⟩
  rw [hk, Nat.pow_le_pow_iff_right (by omega)] at hword hbeyond
  obtain rfl : k = 64 := by omega
  rw [toNat_nextPowerOf2, hk, Nat.mod_self]

/-! ## The capacities -/

/-- The capacity that is asked for, rounded up and clamped. -/
def rounded (requested : UInt64) : ℕ := max (2 ^ 4) (min (2 ^ 20) (roundUp requested.toNat))

theorem toNat_ringBuffer (requested : UInt64) :
    (Container.ringBuffer.capacity requested).toNat = rounded requested := by
  have hclamp : (if requested < minCapacity then minCapacity
      else if requested > maxCapacity then maxCapacity else requested).toNat =
      max (2 ^ 4) (min (2 ^ 20) requested.toNat) := by
    rw [apply_ite UInt64.toNat, apply_ite UInt64.toNat, toNat_minCapacity, toNat_maxCapacity]
    simp only [gt_iff_lt, UInt64.lt_iff_toNat_lt, toNat_minCapacity, toNat_maxCapacity]
    split_ifs <;> omega
  have hle : max (2 ^ 4) (min (2 ^ 20) requested.toNat) ≤ 2 ^ 63 := by omega
  rw [Container.capacity, validateCapacity, if_pos rfl, toNat_nextPowerOf2_of_le (hclamp ▸ hle),
    hclamp, roundUp_clamp, rounded]

/-- The pool and the queue are made alike. -/
theorem capacity_of_ne {c : Container} (h : c ≠ .ringBuffer) (requested : UInt64) :
    (c.capacity requested).toNat =
      max (2 ^ 4) (min (2 ^ 20) (nextPowerOf2 requested).toNat) := by
  cases c with
  | ringBuffer => exact absurd rfl h
  | memoryPool => rw [Container.capacity, toNat_max, toNat_min, toNat_minCapacity, toNat_maxCapacity]
  | threadSafeQueue =>
    rw [Container.capacity, toNat_max, toNat_min, toNat_minCapacity, toNat_maxCapacity]

theorem toNat_capacity_of_le (c : Container) (h : requested.toNat ≤ 2 ^ 63) :
    (c.capacity requested).toNat = rounded requested := by
  by_cases hc : c = .ringBuffer
  · rw [hc, toNat_ringBuffer]
  · rw [capacity_of_ne hc, toNat_nextPowerOf2_of_le h, rounded]

theorem toNat_capacity_of_lt {c : Container} (hc : c ≠ .ringBuffer)
    (h : 2 ^ 63 < requested.toNat) : (c.capacity requested).toNat = 2 ^ 4 := by
  rw [capacity_of_ne hc, toNat_nextPowerOf2_of_lt h]
  rfl

/-- What is rounded and clamped is a power of two. -/
theorem rounded_eq (requested : UInt64) :
    rounded requested = 2 ^ max 4 (min 20 (requested.toNat - 1).size) := by
  have hmono : Monotone fun k : ℕ => 2 ^ k := fun _ _ h => Nat.pow_le_pow_right (by omega) h
  rw [rounded, roundUp, hmono.map_max, hmono.map_min]

/-- The rounded and clamped capacity is right. -/
theorem right_of_toNat (h : capacity.toNat = rounded requested) : Right requested capacity := by
  have hcovers : min requested.toNat (2 ^ 20) ≤ rounded requested := by
    have hle := le_roundUp requested.toNat
    rw [rounded]
    omega
  refine ⟨⟨_, h.trans (rounded_eq requested)⟩, ?_, ?_, ?_, ?_, ?_⟩
  · rw [UInt64.le_iff_toNat_le, toNat_minCapacity, h]
    exact le_max_left ..
  · rw [UInt64.le_iff_toNat_le, toNat_maxCapacity, h, rounded]
    omega
  · rw [UInt64.le_iff_toNat_le, toNat_min, toNat_maxCapacity, h]
    exact hcovers
  · intro k hmin hmax hk
    rw [toNat_minCapacity] at hmin
    rw [toNat_maxCapacity] at hmax hk
    rw [h, rounded, ← roundUp_clamp, roundUp_le_iff]
    omega
  · intro index
    have hpos : 0 < capacity.toNat := by
      rw [h, rounded]
      omega
    have hmask : (capacity - 1).toNat = capacity.toNat - 1 :=
      UInt64.toNat_sub_of_le _ _ (UInt64.le_iff_toNat_le.mpr hpos)
    rw [← UInt64.toNat_inj, UInt64.toNat_and, UInt64.toNat_mod, hmask, h, rounded_eq]
    exact Nat.and_two_pow_sub_one_eq_mod ..

end Capacities

open Capacities

/-- **Every class gets its capacity right**, and all the same one, exactly if no more than `2⁶³` is
asked for. -/
theorem capacities_right_iff (requested : UInt64) :
    AllRight requested ↔ requested.toNat ≤ 2 ^ 63 := by
  constructor
  · rintro ⟨hright, -⟩
    by_contra hlt
    rw [not_le] at hlt
    have hcovers := (hright .memoryPool).covers
    rw [UInt64.le_iff_toNat_le, toNat_min, toNat_maxCapacity, toNat_capacity_of_lt (by decide) hlt]
      at hcovers
    omega
  · intro hle
    refine ⟨fun c => right_of_toNat (toNat_capacity_of_le c hle), fun c => ?_⟩
    rw [← UInt64.toNat_inj, toNat_capacity_of_le c hle, toNat_ringBuffer]

/-- **Asked for `2⁶⁴ - 1` blocks**, the pool has 16. -/
theorem pool_of_sixteen : Container.memoryPool.capacity (-1) = 16 ∧
    ¬ ∀ requested, AllRight requested := by
  refine ⟨by decide, fun hall => ?_⟩
  have hcovers := ((hall (-1)).1 .memoryPool).covers
  exact absurd hcovers (by decide)

namespace Capacities

theorem exists_exponent (c : Container) (requested : UInt64) :
    ∃ k, 4 ≤ k ∧ k ≤ 20 ∧ (c.capacity requested).toNat = 2 ^ k := by
  by_cases hle : requested.toNat ≤ 2 ^ 63
  · refine ⟨max 4 (min 20 (requested.toNat - 1).size), by omega, by omega, ?_⟩
    rw [toNat_capacity_of_le c hle, rounded_eq]
  · by_cases hc : c = .ringBuffer
    · refine ⟨max 4 (min 20 (requested.toNat - 1).size), by omega, by omega, ?_⟩
      rw [hc, toNat_ringBuffer, rounded_eq]
    · exact ⟨4, le_rfl, by omega, toNat_capacity_of_lt hc (by omega)⟩

/-- **Whatever is asked for**, the capacity is one that the machines of the pool, the queue and the
ring are about. -/
def queueCapacity (c : Container) (requested : UInt64) : QueueCapacity where
  exponent := (c.capacity requested).toNat.log2
  atLeast := by
    obtain ⟨k, hk, -, hcapacity⟩ := exists_exponent c requested
    have hpow : 2 ^ 4 ≤ 2 ^ k := Nat.pow_le_pow_right (by omega) hk
    rwa [hcapacity, Nat.log2_two_pow]
  atMost := by
    obtain ⟨k, -, hk, hcapacity⟩ := exists_exponent c requested
    have hpow : 2 ^ k ≤ 2 ^ 20 := Nat.pow_le_pow_right (by omega) hk
    rwa [hcapacity, Nat.log2_two_pow]

theorem capacity_queueCapacity (c : Container) (requested : UInt64) :
    (queueCapacity c requested).capacity_ = (c.capacity requested).toNat := by
  obtain ⟨k, -, -, hcapacity⟩ := exists_exponent c requested
  have hlog : (c.capacity requested).toNat.log2 = k := by rw [hcapacity, Nat.log2_two_pow]
  have hexponent : (queueCapacity c requested).exponent = k := hlog
  rw [QueueCapacity.capacity_, hexponent, hcapacity]

end Capacities

end AxonVex
