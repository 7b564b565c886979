import Mathlib.Control.Monad.Basic
import Mathlib.Data.List.Basic

/-!
# Machinery/Passes — loops that may stop early

A **pass** runs a step over a list and stops at the first step that does not succeed.
`foldlM_run` is the rule for such loops: an invariant of the part of the list already done holds at
the end if the pass succeeds, and where it stops otherwise.
-/

namespace Machinery

variable {ε α β σ : Type} {step : α → σ → Except ε α} {xs : List σ} {a b : α}

/-- The step on `x` stops the pass with `e`, in the state `c` the elements before `x` lead to. -/
structure StopsAt (step : α → σ → Except ε α) (xs : List σ) (Inv : List σ → α → Prop) (e : ε)
    (done : List σ) (x : σ) (c : α) : Prop where
  before : ∃ rest, xs = done ++ x :: rest
  inv : Inv done c
  stop : step c x = .error e

/-- **The rule of passes.** -/
theorem foldlM_run (step : α → σ → Except ε α) (xs : List σ) (Inv : List σ → α → Prop) :
    ∀ (done rest : List σ) (a : α), Inv done a →
      (∀ done x c d, (∃ later, done ++ x :: later = xs) → Inv done c → step c x = .ok d →
        Inv (done ++ [x]) d) →
      done ++ rest = xs →
      (∃ b, rest.foldlM step a = .ok b ∧ Inv xs b) ∨
        ∃ e done' x c, rest.foldlM step a = .error e ∧ StopsAt step xs Inv e done' x c
  | done, [], a, ha, _, hxs => .inl ⟨a, rfl, by rwa [← hxs, List.append_nil]⟩
  | done, x :: rest, a, ha, hstep, hxs => by
    rw [List.foldlM_cons]
    cases hx : step a x with
    | error e => exact .inr ⟨e, done, x, a, rfl, ⟨rest, hxs.symm⟩, ha, hx⟩
    | ok c =>
      exact foldlM_run step xs Inv (done ++ [x]) rest c (hstep done x a c ⟨rest, hxs⟩ ha hx) hstep
        (by rw [← hxs, List.append_assoc]; rfl)

/-- A pass that succeeds keeps the invariant of its steps. -/
theorem foldlM_ok_invariant (Inv : List σ → α → Prop) (ha : Inv [] a)
    (hstep : ∀ done x c d, (∃ later, done ++ x :: later = xs) → Inv done c → step c x = .ok d →
      Inv (done ++ [x]) d)
    (h : xs.foldlM step a = .ok b) : Inv xs b := by
  rcases foldlM_run step xs Inv [] xs a ha hstep rfl with ⟨c, hc, hinv⟩ | ⟨e, _, _, _, he, _⟩
  · rw [h] at hc
    exact Except.ok.inj hc ▸ hinv
  · rw [h] at he
    cases he

/-- **A pass succeeds exactly when each of its steps does**, if the success of a step is a property
of its element in every state that the steps before it lead to. -/
theorem foldlM_ok_iff (Inv : List σ → α → Prop) (P : σ → Prop) (ha : Inv [] a)
    (hstep : ∀ done x c d, (∃ later, done ++ x :: later = xs) → Inv done c → step c x = .ok d →
      Inv (done ++ [x]) d)
    (hok : ∀ done x c, (∃ later, done ++ x :: later = xs) → Inv done c →
      ((∃ d, step c x = .ok d) ↔ P x)) :
    (∃ b, xs.foldlM step a = .ok b) ↔ ∀ x ∈ xs, P x := by
  constructor
  · rintro ⟨b, hb⟩
    -- every element done so far satisfies `P`
    have key : Inv xs b ∧ ∀ x ∈ xs, P x := by
      refine foldlM_ok_invariant (fun done c => Inv done c ∧ ∀ x ∈ done, P x) ⟨ha, by simp⟩
        (fun done x c d hl hc hx => ⟨hstep done x c d hl hc.1 hx, fun y hy => ?_⟩) hb
      rcases List.mem_append.mp hy with hy | hy
      · exact hc.2 y hy
      · rw [List.mem_singleton.mp hy]
        exact (hok done x c hl hc.1).mp ⟨d, hx⟩
    exact key.2
  · intro h
    rcases foldlM_run step xs Inv [] xs a ha hstep rfl with ⟨b, hb, -⟩ | ⟨e, done, x, c, -, hs⟩
    · exact ⟨b, hb⟩
    · obtain ⟨rest, hrest⟩ := hs.before
      have hx : P x := h x (by rw [hrest]; simp)
      obtain ⟨d, hd⟩ := (hok done x c ⟨rest, hrest.symm⟩ hs.inv).mpr hx
      rw [hs.stop] at hd
      exact absurd hd (by simp)

theorem ok_bind (a : α) (f : α → Except ε β) : (Except.ok a >>= f) = f a := rfl

theorem bind_eq_ok {x : Except ε α} {f : α → Except ε β} {b : β} :
    (x >>= f) = .ok b ↔ ∃ a, x = .ok a ∧ f a = .ok b := by
  cases x <;> simp [bind, Except.bind]

/-- **Two passes in a row** succeed when both do, if the success of the second does not depend on
what the first leaves. -/
theorem ok_bind_iff {x : Except ε α} {f : α → Except ε β} {Q : Prop}
    (h : ∀ a, x = .ok a → ((∃ b, f a = .ok b) ↔ Q)) :
    (∃ b, (x >>= f) = .ok b) ↔ (∃ a, x = .ok a) ∧ Q := by
  cases x with
  | error e => simp [bind, Except.bind]
  | ok a => simpa [bind, Except.bind] using h a rfl

end Machinery
