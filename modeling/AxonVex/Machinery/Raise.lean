import AxonVex.Machinery.Machine
import Mathlib.Logic.Function.Basic
import Mathlib.Order.Lattice

/-!
# Machinery/Raise — a shared value that any number of threads raise

    seen ← value;  while seen < new  and not  CAS value: seen → new  { seen ← value }

The exchange fails where another thread was faster, and may fail for no reason.  A thread that gives
up has seen a value that is as great as its own, and the value never falls: so the value is the
greatest that was asked for, unless the thread that asked for it is still on its way (`Raise.Inv`).
-/

namespace Machinery

/-- Where a call stands that asks for `new`. -/
inductive RaisePc (α : Type*)
  | load (new : α)
  | compare (new seen : α)
  | exchange (new seen : α)
  deriving DecidableEq, Repr

namespace RaisePc

variable {α : Type*}

/-- What the call asks for. -/
def new : RaisePc α → α
  | load new => new
  | compare new _ => new
  | exchange new _ => new

/-- What the call has seen is no greater than the value is now. -/
def Seen [Preorder α] (value : α) : RaisePc α → Prop
  | load _ => True
  | compare _ seen => seen ≤ value
  | exchange new seen => seen ≤ value ∧ seen < new

theorem Seen.mono [Preorder α] {pc : RaisePc α} {value value' : α} (h : pc.Seen value)
    (hle : value ≤ value') : pc.Seen value' := by
  cases pc with
  | load => trivial
  | compare _ seen => exact le_trans h hle
  | exchange _ seen => exact ⟨h.1.trans hle, h.2⟩

end RaisePc

/-- The value, and the calls in progress. -/
structure Raise (T α : Type*) where
  value : α
  calls : T → Option (RaisePc α) := fun _ => none

namespace Raise

variable {T α : Type*} [DecidableEq T]

inductive Label (T α : Type*)
  | call (t : T) (new : α)
  /-- the exchange fails if `spurious` -/
  | advance (t : T) (spurious : Bool)
  deriving DecidableEq, Repr

/-- A call goes on, or returns. -/
def goto (p : Raise T α) (t : T) (pc : Option (RaisePc α)) : Raise T α :=
  { p with calls := Function.update p.calls t pc }

variable {p q : Raise T α} {t : T} {pc pc' : RaisePc α} {top new value : α}

theorem calls_goto_self (o : Option (RaisePc α)) : (p.goto t o).calls t = o :=
  Function.update_self ..

theorem calls_goto_ne {u : T} (hne : u ≠ t) (o : Option (RaisePc α)) :
    (p.goto t o).calls u = p.calls u := Function.update_of_ne hne ..

theorem goto_eq_some {u : T} {o : Option (RaisePc α)} (h : (p.goto t o).calls u = some pc) :
    o = some pc ∨ u ≠ t ∧ p.calls u = some pc := by
  rcases eq_or_ne u t with rfl | hne
  · exact .inl ((calls_goto_self o).symm.trans h)
  · exact .inr ⟨hne, (calls_goto_ne hne o).symm.trans h⟩

variable [LinearOrder α]

def step (p : Raise T α) : Label T α → Option (Raise T α)
  | .call t new => if p.calls t = none then some (p.goto t (some (.load new))) else none
  | .advance t spurious => (p.calls t).map fun
    | .load new => p.goto t (some (.compare new p.value))
    | .compare new seen => p.goto t (if seen < new then some (.exchange new seen) else none)
    | .exchange new seen =>
      if p.value = seen ∧ spurious = false then goto { p with value := new } t none
      else p.goto t (some (.compare new p.value))

/-- `top` is the greatest value that was asked for. -/
structure Inv (p : Raise T α) (top : α) : Prop where
  le : p.value ≤ top
  reached : p.value = top ∨ ∃ t pc, p.calls t = some pc ∧ pc.new = top
  asked : ∀ t pc, p.calls t = some pc → pc.new ≤ top
  seen : ∀ t pc, p.calls t = some pc → pc.Seen p.value

omit [DecidableEq T] in
theorem Inv.start (value : α) : Inv ({ value } : Raise T α) value where
  le := le_rfl
  reached := .inl rfl
  asked _ _ ht := by cases ht
  seen _ _ ht := by cases ht

/-- **A call asks for a value.** -/
theorem Inv.call (h : p.Inv top) (hq : p.step (.call t new) = some q) : q.Inv (max top new) := by
  obtain ⟨hidle, rfl⟩ := guarded hq
  refine ⟨h.le.trans (le_max_left ..), ?_, fun u pc hu => ?_, fun u pc hu => ?_⟩
  · rcases le_total new top with hle | hle
    · rw [max_eq_left hle]
      rcases h.reached with heq | ⟨u, pc, hu, hpc⟩
      · exact .inl heq
      · have hne : u ≠ t := by
          rintro rfl
          cases hidle.symm.trans hu
        exact .inr ⟨u, pc, (calls_goto_ne hne _).trans hu, hpc⟩
    · exact .inr ⟨t, _, calls_goto_self _, (max_eq_right hle).symm⟩
  · rcases goto_eq_some hu with hpc | ⟨-, hu⟩
    · exact Option.some.inj hpc ▸ le_max_right ..
    · exact (h.asked u pc hu).trans (le_max_left ..)
  · rcases goto_eq_some hu with hpc | ⟨-, hu⟩
    · exact Option.some.inj hpc ▸ trivial
    · exact h.seen u pc hu

/-- A call goes on with what it asks for. -/
theorem Inv.goto (h : p.Inv top) (ht : p.calls t = some pc) (hnew : pc'.new = pc.new)
    (hseen : pc'.Seen p.value) : (p.goto t (some pc')).Inv top := by
  refine ⟨h.le, ?_, fun u pc₁ hu => ?_, fun u pc₁ hu => ?_⟩
  · rcases h.reached with heq | ⟨u, pc₁, hu, hpc⟩
    · exact .inl heq
    · rcases eq_or_ne u t with rfl | hne
      · obtain rfl := Option.some.inj (ht.symm.trans hu)
        exact .inr ⟨u, pc', calls_goto_self _, hnew.trans hpc⟩
      · exact .inr ⟨u, pc₁, (calls_goto_ne hne _).trans hu, hpc⟩
  · rcases goto_eq_some hu with hpc | ⟨-, hu⟩
    · exact Option.some.inj hpc ▸ hnew.trans_le (h.asked t pc ht)
    · exact h.asked u pc₁ hu
  · rcases goto_eq_some hu with hpc | ⟨-, hu⟩
    · exact Option.some.inj hpc ▸ hseen
    · exact h.seen u pc₁ hu

/-- A call returns when the value is as great as what it asks for. -/
theorem Inv.over (h : p.Inv top) (ht : p.calls t = some pc) (hle : p.value ≤ value)
    (hnew : pc.new ≤ value) (htop : value ≤ top) :
    (Raise.goto { p with value } t none).Inv top := by
  refine ⟨htop, ?_, fun u pc₁ hu => ?_, fun u pc₁ hu => ?_⟩
  · rcases h.reached with heq | ⟨u, pc₁, hu, rfl⟩
    · exact .inl (htop.antisymm (heq ▸ hle))
    · rcases eq_or_ne u t with rfl | hne
      · obtain rfl := Option.some.inj (ht.symm.trans hu)
        exact .inl (htop.antisymm hnew)
      · exact .inr ⟨u, pc₁, (calls_goto_ne hne _).trans hu, rfl⟩
  · rcases goto_eq_some hu with hpc | ⟨-, hu⟩
    · cases hpc
    · exact h.asked u pc₁ hu
  · rcases goto_eq_some hu with hpc | ⟨-, hu⟩
    · cases hpc
    · exact (h.seen u pc₁ hu).mono hle

/-- **A call goes on.** -/
theorem Inv.advance {spurious : Bool} (h : p.Inv top)
    (hq : p.step (.advance t spurious) = some q) : q.Inv top := by
  obtain ⟨pc, ht, rfl⟩ := Option.map_eq_some_iff.mp hq
  have hseen := h.seen t pc ht
  cases pc with
  | load new => exact h.goto ht rfl le_rfl
  | compare new seen =>
    dsimp only
    split
    next hlt => exact h.goto ht rfl ⟨hseen, hlt⟩
    next hge => exact h.over ht le_rfl ((not_lt.mp hge).trans hseen) h.le
  | exchange new seen =>
    dsimp only
    split
    next hsame => exact h.over ht (hsame.1.trans_le hseen.2.le) le_rfl (h.asked t _ ht)
    next => exact h.goto ht rfl le_rfl

omit [DecidableEq T] in
/-- **At rest** the value is the greatest that was asked for. -/
theorem Inv.value_eq (h : p.Inv top) (hidle : ∀ t, p.calls t = none) : p.value = top :=
  h.reached.resolve_right fun ⟨t, pc, ht, _⟩ => by cases (hidle t).symm.trans ht

end Raise

end Machinery
