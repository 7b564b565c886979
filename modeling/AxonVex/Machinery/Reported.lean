import Mathlib.Control.Monad.Basic
import Mathlib.Data.List.Nodup

/-!
# Machinery/Reported — computing on while collecting errors

A validator that reports everything it finds goes on after an error.  A **reported** value is a
value together with the errors found on the way to it; sequencing appends the errors.  It is
**clean** when there are none, and a sequence is clean exactly when its parts are (`clean_bind`,
`clean_forM`), so a validator accepts exactly when each of its checks does.
-/

namespace Machinery

/-- A value and the errors found on the way to it, in order. -/
structure Reported (ε α : Type*) where
  value : α
  errors : List ε

namespace Reported

variable {ε α β σ : Type} {x : Reported ε α} {f : α → Reported ε β}

instance : Monad (Reported ε) where
  pure a := ⟨a, []⟩
  bind x f := ⟨(f x.value).value, x.errors ++ (f x.value).errors⟩

instance : LawfulMonad (Reported ε) :=
  LawfulMonad.mk' _ (fun x => congrArg (Reported.mk x.value) (List.append_nil x.errors))
    (fun _ _ => rfl) fun _ _ _ => congrArg (Reported.mk _) (List.append_assoc ..)

/-- Report one error. -/
def report (e : ε) : Reported ε Unit := ⟨(), [e]⟩

/-- Report `e` unless `c` holds. -/
def require (c : Prop) [Decidable c] (e : ε) : Reported ε Unit := if c then pure () else report e

@[simp] theorem value_pure (a : α) : (pure a : Reported ε α).value = a := rfl
@[simp] theorem errors_pure (a : α) : (pure a : Reported ε α).errors = [] := rfl
@[simp] theorem value_bind : (x >>= f).value = (f x.value).value := rfl
@[simp] theorem errors_bind : (x >>= f).errors = x.errors ++ (f x.value).errors := rfl

/-- No error was found. -/
def Clean (x : Reported ε α) : Prop := x.errors = []

@[simp] theorem clean_pure (a : α) : (pure a : Reported ε α).Clean := rfl

@[simp] theorem clean_report (e : ε) : ¬ (report e).Clean := List.cons_ne_nil _ _

@[simp] theorem clean_bind : (x >>= f).Clean ↔ x.Clean ∧ (f x.value).Clean := by
  simp [Clean]

@[simp] theorem clean_require {c : Prop} [Decidable c] {e : ε} : (require c e).Clean ↔ c := by
  unfold require
  split
  next h => simp [h]
  next h => simp [h]

/-- **A sequence of checks is clean when each check is.** -/
@[simp] theorem clean_forM {xs : List σ} {g : σ → Reported ε PUnit} :
    (forM xs g).Clean ↔ ∀ a ∈ xs, (g a).Clean := by
  induction xs with
  | nil => simp
  | cons a xs ih => simp [ih]

/-- **What a clean accumulation keeps**: an invariant of the accumulator that each clean step
keeps holds at the end. -/
theorem foldlM_invariant {step : β → σ → Reported ε β} (Inv : β → Prop) :
    ∀ {xs : List σ} {b : β}, Inv b → (xs.foldlM step b).Clean →
      (∀ b, ∀ a ∈ xs, Inv b → (step b a).Clean → Inv (step b a).value) →
      Inv (xs.foldlM step b).value
  | [], _, hb, _, _ => hb
  | a :: xs, b, hb, hclean, hstep => by
    rw [List.foldlM_cons] at hclean ⊢
    obtain ⟨ha, hxs⟩ := clean_bind.mp hclean
    exact foldlM_invariant Inv (hstep b a List.mem_cons_self hb ha) hxs
      fun b a' ha' => hstep b a' (List.mem_cons_of_mem _ ha')

/-! ## Readers -/

/-- The reader `x` **decides** `ok`: it is clean exactly then, and what it yields then has `R`. -/
structure Decides (x : Reported ε α) (ok : Prop) (R : α → Prop) : Prop where
  clean : x.Clean ↔ ok
  value : ok → R x.value

theorem Decides.pure {ok : Prop} {R : α → Prop} {a : α} (hok : ok) (h : R a) :
    (Pure.pure a : Reported ε α).Decides ok R :=
  ⟨iff_of_true (clean_pure a) hok, fun _ => h⟩

theorem Decides.of_not_clean {ok : Prop} {R : α → Prop} (hx : ¬ x.Clean) (h : ¬ ok) :
    x.Decides ok R :=
  ⟨iff_of_false hx h, fun hok => absurd hok h⟩

/-- **Readers in a row** decide the conjunction of what they decide. -/
theorem Decides.bind {ok ok' : Prop} {R : α → Prop} {R' : β → Prop} (hx : x.Decides ok R)
    (hf : ∀ a, R a → (f a).Decides ok' R') : (x >>= f).Decides (ok ∧ ok') R' := by
  constructor
  · rw [clean_bind, hx.clean]
    exact and_congr_right fun hok => (hf _ (hx.value hok)).clean
  · rintro ⟨hok, hok'⟩
    exact (hf _ (hx.value hok)).value hok'

/-- A check in front. -/
theorem Decides.check {y : Reported ε Unit} {z : Reported ε β} {ok ok' : Prop} {R : β → Prop}
    (hy : y.Clean ↔ ok) (hz : z.Decides ok' R) : (y >>= fun _ => z).Decides (ok ∧ ok') R :=
  Decides.bind (R := fun _ => True) ⟨hy, fun _ => trivial⟩ fun _ _ => hz

theorem Decides.congr {ok ok' : Prop} {R R' : α → Prop} (h : x.Decides ok R) (hok : ok ↔ ok')
    (hR : ∀ a, ok' → R a → R' a) : x.Decides ok' R' :=
  ⟨h.clean.trans hok, fun h' => hR _ h' (h.value (hok.mpr h'))⟩

/-- The reader `x` **yields** `R`: what it reads without an error has `R`. -/
def Yields (x : Reported ε α) (R : α → Prop) : Prop := x.Clean → R x.value

theorem Yields.pure {R : α → Prop} {a : α} (h : R a) :
    (Pure.pure a : Reported ε α).Yields R := fun _ => h

/-- Readers in a row. -/
theorem Yields.bind {R : α → Prop} {R' : β → Prop} (hx : x.Yields R)
    (hf : ∀ a, R a → (f a).Yields R') : (x >>= f).Yields R' := by
  intro h
  obtain ⟨hclean, hf'⟩ := clean_bind.mp h
  exact hf _ (hx hclean) hf'

/-- A reader that says nothing about what it yields. -/
theorem Yields.skip {R : β → Prop} (hf : ∀ a, (f a).Yields R) : (x >>= f).Yields R :=
  Yields.bind (R := fun _ => True) (fun _ => trivial) fun a _ => hf a

/-! ## Lists with indices -/

theorem map_zipIdx (g : σ → α) (xs : List σ) : (xs.zipIdx.map fun e => g e.1) = xs.map g :=
  (List.map_map (f := Prod.fst) (g := g) (l := xs.zipIdx)).symm.trans
    (congrArg (List.map g) (List.zipIdx_map_fst 0 xs))

/-- Every entry of a list with indices, once. -/
theorem forall_zipIdx (p : σ → Prop) {xs : List σ} : (∀ e ∈ xs.zipIdx, p e.1) ↔ ∀ a ∈ xs, p a := by
  constructor
  · intro h a ha
    obtain ⟨i, hi, rfl⟩ := List.getElem_of_mem ha
    exact h (xs[i], i) (List.mem_zipIdx_iff_getElem?.mpr (by simp [hi]))
  · intro h e he
    obtain ⟨x, i⟩ := e
    exact h x (List.mem_of_getElem? (List.mem_zipIdx_iff_getElem?.mp he))

/-- A relation that holds beside another one where a condition on the left entry says so, holds
along two lists where each left entry says so. -/
theorem forall₂_iff_forall {R S : σ → β → Prop} {P : σ → Prop} {xs : List σ} {ys : List β}
    (h : List.Forall₂ R xs ys) (hRS : ∀ a b, R a b → (S a b ↔ P a)) :
    List.Forall₂ S xs ys ↔ ∀ a ∈ xs, P a := by
  induction h with
  | nil => simp
  | cons hab _ ih => rw [List.forall₂_cons, List.forall_mem_cons, ih, hRS _ _ hab]

/-! ## Collecting keys -/

section Insert

variable {κ : Type} {step : List κ → σ → Reported ε (List κ)} (P : σ → Prop) (key : σ → κ)
  (hclean : ∀ seen a, (step seen a).Clean ↔ P a ∧ key a ∉ seen)
  (hvalue : ∀ seen a, (step seen a).Clean → (step seen a).value = key a :: seen)

include hvalue in
/-- A clean pass has collected the key of each element. -/
theorem value_foldlM_insert : ∀ {xs : List σ} {seen : List κ}, (xs.foldlM step seen).Clean →
    (xs.foldlM step seen).value = (xs.map key).reverse ++ seen
  | [], _, _ => rfl
  | a :: xs, seen, h => by
    rw [List.foldlM_cons] at h ⊢
    obtain ⟨ha, hxs⟩ := clean_bind.mp h
    rw [value_bind, value_foldlM_insert hxs, hvalue seen a ha]
    simp

include hclean hvalue in
/-- **A pass that checks each element and refuses a key it has seen** accepts exactly when every
element passes and the keys are different. -/
theorem clean_foldlM_insert : ∀ {xs : List σ} {seen : List κ}, seen.Nodup →
    ((xs.foldlM step seen).Clean ↔ (∀ a ∈ xs, P a) ∧ ((xs.map key).reverse ++ seen).Nodup)
  | [], seen, hseen => by simp [hseen]
  | a :: xs, seen, hseen => by
    have hperm : ((List.map key (a :: xs)).reverse ++ seen) =
        (xs.map key).reverse ++ (key a :: seen) := by simp
    rw [List.foldlM_cons, clean_bind, hclean, hperm, List.forall_mem_cons]
    constructor
    · rintro ⟨⟨ha, hnew⟩, hxs⟩
      rw [hvalue seen a ((hclean seen a).mpr ⟨ha, hnew⟩),
        clean_foldlM_insert (List.nodup_cons.mpr ⟨hnew, hseen⟩)] at hxs
      exact ⟨⟨ha, hxs.1⟩, hxs.2⟩
    · rintro ⟨⟨ha, hxs⟩, hnodup⟩
      have hcons : (key a :: seen).Nodup := hnodup.of_append_right
      have hnew : key a ∉ seen := (List.nodup_cons.mp hcons).1
      refine ⟨⟨ha, hnew⟩, ?_⟩
      rw [hvalue seen a ((hclean seen a).mpr ⟨ha, hnew⟩), clean_foldlM_insert hcons]
      exact ⟨hxs, hnodup⟩

end Insert

end Reported

end Machinery
