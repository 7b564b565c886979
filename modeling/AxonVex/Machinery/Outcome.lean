import Mathlib.Init

/-!
# Machinery/Outcome — how a call may end

A call **returns** a value, **blocks** for ever on a thread that never exits, or does something the
language leaves **undefined**.  Sequencing stops at the first call that does not return, so
`andThen_eq_returned` reads a returning sequence as its returning parts.
-/

namespace Machinery

/-- The end of a call. -/
inductive Outcome (α : Type*)
  | returned (a : α)
  | blocked
  | undefinedBehaviour
  deriving DecidableEq, Repr

namespace Outcome

variable {α β : Type*} {x : Outcome α} {f : α → Outcome β} {a : α} {b : β}

/-- The value a call returns, if it returns. -/
def toOption : Outcome α → Option α
  | returned a => some a
  | blocked => none
  | undefinedBehaviour => none

/-- Sequencing: the second call begins when the first returns. -/
def andThen : Outcome α → (α → Outcome β) → Outcome β
  | returned a, f => f a
  | blocked, _ => blocked
  | undefinedBehaviour, _ => undefinedBehaviour

@[simp] theorem returned_andThen : (returned a).andThen f = f a := rfl

@[simp] theorem toOption_eq_some : x.toOption = some a ↔ x = returned a := by
  cases x <;> simp [toOption]

theorem andThen_eq_returned : x.andThen f = returned b ↔ ∃ a, x = returned a ∧ f a = returned b := by
  cases x <;> simp [andThen]

theorem pair_inj {a a' : α} {b b' : β} (h : returned (a, b) = returned (a', b')) :
    a = a' ∧ b = b' := Prod.mk.inj (returned.inj h)

end Outcome

end Machinery
