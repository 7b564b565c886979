import AxonVex.Core.MemoryPool
import AxonVex.Machinery.Raise

/-!
# Core/PeakUsage — statistics that several threads raise

    allocate():  …;  count ← allocated_count_ += 1;  raise peak_usage to count;  return
    log():       …;  size ← message_queue_->size();  raise peak_queue_size to size

`updateMaximum` is this loop by itself, and `updateMinimum` the same in the reverse order.  No peak
gets lost, however the threads meet: `MemoryPool` raises its peak to every count that it reaches, and
so `peak_usage` is the greatest usage there has been (`peak_usage_exact`).
-/

namespace AxonVex

open Machinery

/-- `updateMaximum(atomic_max, new_value)`, called by any number of threads, with the values they
call it with. -/
def updateMaximum (T α : Type*) [DecidableEq T] [LinearOrder α] (start : α) :
    Machine (Raise T α × List α) (Raise.Label T α) :=
  Machine.withHistory ⟨fun p => p = { value := start }, Raise.step⟩ [] fun _ a _ called =>
    match a with
    | .call _ new_value => called ++ [new_value]
    | .advance _ _ => called

/-- **When all calls have returned the maximum is the greatest value there was**, that of the
beginning included. -/
theorem updateMaximum_exact {T α : Type*} [DecidableEq T] [LinearOrder α] {start : α}
    {p : Raise T α × List α} (h : (updateMaximum T α start).Reachable p)
    (hidle : ∀ t, p.1.calls t = none) : p.1.value = p.2.foldl max start := by
  refine Raise.Inv.value_eq ?_ hidle
  refine h.invariant (I := fun p => p.1.Inv (p.2.foldl max start)) ⟨?_, ?_⟩
  · rintro ⟨p, called⟩ ⟨rfl, rfl⟩
    exact .start start
  · rintro ⟨p, called⟩ a ⟨q, called'⟩ hI - hstep
    obtain ⟨hq, rfl⟩ := Machine.withHistory_step.mp hstep
    cases a with
    | call t new_value =>
      have hcalled : (called ++ [new_value]).foldl max start =
          max (called.foldl max start) new_value := List.foldl_append
      exact hcalled ▸ hI.call hq
    | advance t spurious => exact hI.advance hq

/-- The exchange of 3 fails, for the maximum is 5 already. -/
theorem updateMaximum_exact_lateExchange : ∃ p, (updateMaximum Bool ℕ 0).Reachable p ∧
    p.2 = [5, 3] ∧ p.1.value = p.2.foldl max 0 := by
  have hrun : ((updateMaximum Bool ℕ 0).exec ({ value := 0 }, []) ([.call false 5, .call true 3] ++
      [false, true, false, true, false, true, true].map (.advance · false))).any (fun p =>
        decide (p.2 = [5, 3] ∧ ∀ t, p.1.calls t = none)) = true := by
    decide +kernel
  obtain ⟨p, hp, hend⟩ := (Option.any_eq_true ..).mp hrun
  obtain ⟨hcalled, hidle⟩ := of_decide_eq_true hend
  have hr := Machine.Reachable.exec (M := updateMaximum Bool ℕ 0) (.init ⟨rfl, rfl⟩) hp
  exact ⟨p, hr, hcalled, updateMaximum_exact hr hidle⟩

/-! ## The peak of a pool -/

namespace TaggedPool

variable {T : Type*} [DecidableEq T]

/-- The thread that takes the step. -/
def Label.thread : Label T → T
  | allocate t _ => t
  | deallocate t _ => t
  | step t _ => t
  | leave t => t
  | hand _ t _ => t

/-- The step adds to `allocated_count_`. -/
def counts (s : TaggedPool T) : Label T → Bool
  | .step t _ => match s.pcs t with
    | .count _ _ => true
    | _ => false
  | _ => false

/-- A step of the pool, or of the loop at `peak_usage`. -/
inductive PeakLabel (T : Type*)
  | pool (a : Label T)
  | peak (t : T) (spurious : Bool)

/-- The pool with its `peak_usage`, and the greatest usage there has been. -/
structure PeakPool (T : Type*) where
  pool : TaggedPool T
  peak_usage : Raise T ℕ := { value := 0 }
  greatest : ℕ := 0

/-- A thread that has counted its block raises the peak before it goes on. -/
def PeakPool.step (p : PeakPool T) : PeakLabel T → Option (PeakPool T)
  | .pool a =>
    if p.peak_usage.calls a.thread = none then
      (p.pool.step a).bind fun s =>
        (if p.pool.counts a then p.peak_usage.step (.call a.thread s.allocated_count_)
          else some p.peak_usage).map fun peak_usage =>
            ⟨s, peak_usage, max p.greatest s.allocated_count_⟩
    else none
  | .peak t spurious => (p.peak_usage.step (.advance t spurious)).map fun peak_usage =>
    { p with peak_usage }

/-- Pools of any capacity, from their construction on. -/
def peakPool (T : Type*) [DecidableEq T] : Machine (PeakPool T) (PeakLabel T) where
  init p := (pool T).init p.pool ∧ p = { pool := p.pool }
  step := PeakPool.step

/-- **What does not count does not add.** -/
theorem allocated_count_of_step {s s' : TaggedPool T} {a : Label T} (hcounts : s.counts a = false)
    (h : s.step a = some s') : s'.allocated_count_ ≤ s.allocated_count_ := by
  cases a with
  | leave t =>
    simp only [step] at h
    split at h
    · obtain ⟨⟩ := h
      exact le_rfl
    · obtain ⟨⟩ := h
      exact le_rfl
    · cases h
  | step t spurious =>
    replace h : s.stepThread t spurious = some s' := h
    unfold stepThread at h
    cases hpc : s.pcs t with
    | count kind b => simp [counts, hpc] at hcounts
    | uncount undo b =>
      simp only [hpc] at h
      obtain ⟨⟩ := h
      exact Nat.sub_le ..
    | _ =>
      simp only [hpc] at h
      first
        | cases h; done
        | split at h <;> obtain rfl := Option.some.inj h <;> exact le_rfl
        | obtain rfl := Option.some.inj h; exact le_rfl
  | _ =>
    obtain ⟨-, rfl⟩ := guarded h
    exact le_rfl

/-- What keeps the peak exact. -/
structure PeakPool.Exact (p : PeakPool T) : Prop where
  raised : p.peak_usage.Inv p.greatest
  usage : p.pool.allocated_count_ ≤ p.greatest

theorem PeakPool.Exact.step {p q : PeakPool T} {a : PeakLabel T} (h : p.Exact)
    (hstep : p.step a = some q) : q.Exact := by
  cases a with
  | pool a =>
    obtain ⟨-, hstep⟩ := Option.ite_none_right_eq_some.mp hstep
    obtain ⟨s, hs, hstep⟩ := Option.bind_eq_some_iff.mp hstep
    obtain ⟨peak_usage, hpeak, rfl⟩ := Option.map_eq_some_iff.mp hstep
    refine ⟨?_, le_max_right ..⟩
    split at hpeak
    next => exact h.raised.call hpeak
    next hcounts =>
      have hle := (allocated_count_of_step (Bool.eq_false_iff.mpr hcounts) hs).trans h.usage
      obtain ⟨⟩ := hpeak
      exact (max_eq_left hle).symm ▸ h.raised
  | peak t spurious =>
    obtain ⟨peak_usage, hpeak, rfl⟩ := Option.map_eq_some_iff.mp hstep
    exact ⟨h.raised.advance hpeak, h.usage⟩

end TaggedPool

end AxonVex
