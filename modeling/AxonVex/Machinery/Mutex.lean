import Mathlib.Logic.Function.Basic

/-!
# Machinery/Mutex — a mutex and the positions that hold it

The threads `ι` of a program stand at positions `P`; `holds` says at which positions a thread has
the mutex.  `Owns owner pcs holds` is the invariant of every mutex: the threads that have it are the
owner the mutex records, so there is at most one (`Owns.unique`).

A thread's step moves one position: it leaves the mutex as it is (`Owns.update`), locks it when it
is free (`Owns.lock`), or unlocks it (`Owns.unlock`).  `MovesLock` says that it does one of the
three, which is all that the invariant needs of a step (`Owns.step`).

Whatever one thread at a time is entitled to is a mutex in this sense: a published id, a handle.
-/

namespace Machinery

variable {ι P : Type*}

/-- The threads at positions that hold the mutex are the owner it records. -/
def Owns (owner : Option ι) (pcs : ι → P) (holds : P → Bool) : Prop :=
  ∀ i, holds (pcs i) = true ↔ owner = some i

/-- What the step of the thread `i` does to a mutex: `held` says whether the thread has it before the
step, `held'` whether it has it afterwards. -/
inductive MovesLock (i : ι) : (owner owner' : Option ι) → (held held' : Bool) → Prop
  | keep {owner : Option ι} {held : Bool} : MovesLock i owner owner held held
  | lock {held : Bool} : MovesLock i none (some i) held true
  | unlock {owner : Option ι} : MovesLock i owner none true false

/-- A step that locks a mutex was not kept waiting. -/
theorem lock_eq_some {σ π : Type*} {owner : Option ι} {s s' : σ} {pc pc' : π}
    (h : (if owner.isSome then none else some (s', pc')) = some (s, pc)) :
    owner = none ∧ s' = s ∧ pc' = pc := by
  cases owner with
  | none => exact ⟨rfl, Prod.mk.inj (Option.some.inj h)⟩
  | some i => cases h

namespace Owns

variable {owner : Option ι} {pcs : ι → P} {holds : P → Bool} {i j : ι} {pc : P}

/-- **Mutual exclusion.** -/
theorem unique (h : Owns owner pcs holds) (hi : holds (pcs i) = true) (hj : holds (pcs j) = true) :
    i = j :=
  Option.some.inj (((h i).mp hi).symm.trans ((h j).mp hj))

/-- A free mutex is held nowhere. -/
theorem not_holds (h : Owns none pcs holds) (i : ι) : holds (pcs i) = false :=
  Bool.eq_false_iff.mpr fun hi => Option.some_ne_none i ((h i).mp hi).symm

/-- While one thread holds the mutex no other does. -/
theorem not_holds_of_ne (h : Owns owner pcs holds) (hi : holds (pcs i) = true) (hij : j ≠ i) :
    holds (pcs j) = false :=
  Bool.eq_false_iff.mpr fun hj => hij (h.unique hj hi)

variable [DecidableEq ι]

/-- A move between positions that agree about the mutex. -/
theorem update (h : Owns owner pcs holds) (hpc : holds pc = holds (pcs i)) :
    Owns owner (Function.update pcs i pc) holds := by
  intro j
  by_cases hji : j = i
  · subst hji
    rw [Function.update_self, hpc]
    exact h j
  · rw [Function.update_of_ne hji]
    exact h j

/-- A free mutex is locked. -/
theorem lock (h : Owns none pcs holds) (hpc : holds pc = true) :
    Owns (some i) (Function.update pcs i pc) holds := by
  intro j
  by_cases hji : j = i
  · subst hji
    rw [Function.update_self]
    exact ⟨fun _ => rfl, fun _ => hpc⟩
  · rw [Function.update_of_ne hji, h.not_holds j]
    exact ⟨fun he => absurd he Bool.false_ne_true, fun he => absurd (Option.some.inj he).symm hji⟩

/-- The owner unlocks. -/
theorem unlock (h : Owns owner pcs holds) (hi : holds (pcs i) = true) (hpc : holds pc = false) :
    Owns none (Function.update pcs i pc) holds := by
  intro j
  refine ⟨fun hj => ?_, fun he => absurd he.symm (Option.some_ne_none j)⟩
  by_cases hji : j = i
  · subst hji
    rw [Function.update_self, hpc] at hj
    exact absurd hj Bool.false_ne_true
  · rw [Function.update_of_ne hji, h.not_holds_of_ne hi hji] at hj
    exact absurd hj Bool.false_ne_true

/-- **The rule of the mutex**: every step of this kind keeps the owner. -/
theorem step {owner' : Option ι} (h : Owns owner pcs holds)
    (hmove : MovesLock i owner owner' (holds (pcs i)) (holds pc)) :
    Owns owner' (Function.update pcs i pc) holds := by
  generalize hheld : holds (pcs i) = held at hmove
  generalize hpc : holds pc = held' at hmove
  cases hmove with
  | keep => exact h.update (hpc.trans hheld.symm)
  | lock => exact h.lock hpc
  | unlock => exact h.unlock hheld hpc

end Owns

/-! ### Several mutexes -/

namespace MovesLock

variable {X : Type*} [DecidableEq X] {i : ι} {owner : X → Option ι} {held : X → Bool} {x : X}

/-- One mutex of several is locked. -/
theorem lock_update (hx : owner x = none) (y : X) :
    MovesLock i (owner y) (Function.update owner x (some i) y) (held y) (y == x || held y) := by
  by_cases hy : y = x
  · subst hy
    rw [Function.update_self, hx, beq_self_eq_true, Bool.true_or]
    exact .lock
  · rw [Function.update_of_ne hy, beq_false_of_ne hy, Bool.false_or]
    exact .keep

/-- One mutex of several is unlocked. -/
theorem unlock_update (hx : held x = false) (y : X) :
    MovesLock i (owner y) (Function.update owner x none y) (y == x || held y) (held y) := by
  by_cases hy : y = x
  · subst hy
    rw [Function.update_self, hx, beq_self_eq_true, Bool.true_or]
    exact .unlock
  · rw [Function.update_of_ne hy, beq_false_of_ne hy, Bool.false_or]
    exact .keep

/-- A mutex that is not held is not unlocked, one that is not held then was not locked. -/
theorem eq_of_not_held {owner owner' : Option ι} (h : MovesLock i owner owner' false false) :
    owner' = owner := by
  cases h
  rfl

end MovesLock

end Machinery
