import Mathlib.Data.Set.Insert
import Mathlib.Logic.Function.Basic

/-!
# Machinery/WaitFor — who waits for whom

Some threads each of which waits for one of them wait for ever (`Deadlock`).

A thread holds mutexes, waits at one, or waits in the join of another thread.  A thread that holds a
mutex and joins one that waits for it waits for ever, and so does the other.  What one step of one
thread can bring about is that it comes to a mutex, or to a join (`Moves.free_iff`).
-/

namespace Machinery

variable {T X : Type*}

/-- **A deadlock**: some threads, each of which waits for one of them. -/
def Deadlock (waits : T → T → Prop) : Prop :=
  ∃ D : Set T, D.Nonempty ∧ ∀ t ∈ D, ∃ u ∈ D, waits t u

theorem deadlock_of_mutual {waits : T → T → Prop} {t u : T} (htu : waits t u) (hut : waits u t) :
    Deadlock waits := by
  refine ⟨{t, u}, ⟨t, .inl rfl⟩, ?_⟩
  rintro v (rfl | rfl)
  · exact ⟨u, .inr rfl, htu⟩
  · exact ⟨t, .inl rfl, hut⟩

/-- Without a deadlock there is, among some threads, one that waits for none of them. -/
theorem exists_not_waits {waits : T → T → Prop} (h : ¬ Deadlock waits) {D : Set T}
    (hD : D.Nonempty) : ∃ t ∈ D, ∀ u ∈ D, ¬ waits t u := by
  by_contra hall
  push Not at hall
  exact h ⟨D, hD, hall⟩

structure WaitFor (T X : Type*) where
  /-- the thread that holds a mutex -/
  holder : X → Option T
  /-- the thread that a thread joins -/
  joining : T → Option T
  /-- the mutex that a thread is about to take -/
  waiting : T → Option X

namespace WaitFor

/-- **No thread joins one that waits for a mutex it holds.** -/
def Free (s : WaitFor T X) : Prop :=
  ∀ x t w, s.holder x = some t → s.joining t = some w → s.waiting w ≠ some x

/-- A thread may come to this mutex, and to the join of this thread: no holder of the mutex joins it,
and the other does not wait for a mutex it holds. -/
def Clear (s : WaitFor T X) (t : T) (comes : Option X) (joins : Option T) : Prop :=
  (∀ x h, comes = some x → s.holder x = some h → s.joining h ≠ some t) ∧
    ∀ x w, joins = some w → s.holder x = some t → s.waiting w ≠ some x

/-- One thread steps: afterwards it waits for this mutex, or joins this thread.  A mutex it takes it
takes on the way to neither. -/
structure Moves (s s' : WaitFor T X) (t : T) (comes : Option X) (joins : Option T) : Prop where
  waiting : s'.waiting t = comes
  joining : s'.joining t = joins
  waiting_of_ne : ∀ u, u ≠ t → s'.waiting u = s.waiting u
  joining_of_ne : ∀ u, u ≠ t → s'.joining u = s.joining u
  taken : ∀ x h, s'.holder x = some h → s.holder x = some h ∨ h = t ∧ joins = none
  kept : comes.isSome = true ∨ joins.isSome = true → s'.holder = s.holder

variable {s s' : WaitFor T X} {t : T} {comes : Option X} {joins : Option T}

/-- **A step of a thread keeps the others from waiting in vain** exactly if it may come where it
comes. -/
theorem Moves.free_iff (h : s.Moves s' t comes joins) (hfree : s.Free)
    (hself : s.joining t ≠ some t) (hself' : joins ≠ some t) : s'.Free ↔ s.Clear t comes joins := by
  constructor
  · intro hfree'
    refine ⟨fun x u hcomes hholder hjoining => ?_, fun x w hjoins hholder hwaiting => ?_⟩
    · have hu : u ≠ t := by
        rintro rfl
        exact hself hjoining
      have hholder' : s'.holder x = some u := by
        rw [h.kept (.inl (by rw [hcomes]; rfl))]
        exact hholder
      exact hfree' x u t hholder' ((h.joining_of_ne u hu).trans hjoining) (h.waiting.trans hcomes)
    · have hw : w ≠ t := by
        rintro rfl
        exact hself' hjoins
      have hholder' : s'.holder x = some t := by
        rw [h.kept (.inr (by rw [hjoins]; rfl))]
        exact hholder
      exact hfree' x t w hholder' (h.joining.trans hjoins) ((h.waiting_of_ne w hw).trans hwaiting)
  · rintro ⟨hcomes, hjoins⟩ x u w hholder hjoining hwaiting
    by_cases hu : u = t
    · subst hu
      have hjoin := h.joining.symm.trans hjoining
      have hw : w ≠ u := by
        rintro rfl
        exact hself' hjoin
      rcases h.taken x u hholder with hheld | ⟨-, hnone⟩
      · exact hjoins x w hjoin hheld ((h.waiting_of_ne w hw).symm.trans hwaiting)
      · exact absurd (hnone.symm.trans hjoin) (by simp)
    · have hheld : s.holder x = some u :=
        (h.taken x u hholder).resolve_right fun hnew => hu hnew.1
      have hjoin := (h.joining_of_ne u hu).symm.trans hjoining
      by_cases hw : w = t
      · subst hw
        exact hcomes x u (h.waiting.symm.trans hwaiting) hheld hjoin
      · exact hfree x u w hheld hjoin ((h.waiting_of_ne w hw).symm.trans hwaiting)

end WaitFor

end Machinery
