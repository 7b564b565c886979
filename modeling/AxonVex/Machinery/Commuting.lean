import Mathlib.Data.List.Perm.Basic

/-!
# Machinery/Commuting — steps that may be taken in any order

A list of steps, each of which may fail, is run from a state with `List.foldlM`.  Two steps are
**compatible** when neither makes the other fail and they commute where both succeed
(`Commuting`).  Every order of compatible steps ends in the same state (`Commuting.foldlM_perm`).
-/

namespace Machinery

variable {S A : Type*}

/-- Steps that are related do not stand in each other's way. -/
structure Commuting (step : S → A → Option S) (r : A → A → Prop) : Prop where
  symm {a b : A} : r a b → r b a
  keeps {a b : A} {s t : S} : r a b → (step s a).isSome → step s b = some t → (step t a).isSome
  comm {a b : A} {s : S} : r a b → (step s a).isSome → (step s b).isSome →
    (step s a).bind (step · b) = (step s b).bind (step · a)

namespace Commuting

variable {step : S → A → Option S} {r : A → A → Prop} {as bs : List A} {s t : S} {a : A}

/-- The other steps still succeed after one of them. -/
theorem keeps_forall (h : Commuting step r) (hr : ∀ b ∈ as, r a b)
    (hfits : ∀ b ∈ as, (step s b).isSome) (ht : step s a = some t) :
    ∀ b ∈ as, (step t b).isSome :=
  fun b hb => h.keeps (h.symm (hr b hb)) (hfits b hb) ht

/-- **The order of compatible steps does not matter.** -/
theorem foldlM_perm (h : Commuting step r) (hp : as.Perm bs) (hr : as.Pairwise r)
    (hfits : ∀ a ∈ as, (step s a).isSome) : as.foldlM step s = bs.foldlM step s := by
  induction hp generalizing s with
  | nil => rfl
  | cons a hp ih =>
    obtain ⟨ha, has⟩ := List.pairwise_cons.mp hr
    obtain ⟨hfit, hrest⟩ := List.forall_mem_cons.mp hfits
    obtain ⟨t, ht⟩ := Option.isSome_iff_exists.mp hfit
    rw [List.foldlM_cons, List.foldlM_cons, ht]
    exact ih has (h.keeps_forall ha hrest ht)
  | swap a b as =>
    obtain ⟨hb, -⟩ := List.pairwise_cons.mp hr
    have hcomm : (step s b).bind (step · a) = (step s a).bind (step · b) :=
      h.comm (hb a List.mem_cons_self) (hfits b List.mem_cons_self)
        (hfits a (List.mem_cons_of_mem b List.mem_cons_self))
    have hrow (c d : A) : (c :: d :: as).foldlM step s =
        ((step s c).bind (step · d)).bind fun t => as.foldlM step t := by
      rw [List.foldlM_cons, Option.bind_assoc]
      rfl
    rw [hrow, hrow, hcomm]
  | trans hp hq ihp ihq =>
    have hr' := (hp.pairwise_iff h.symm).mp hr
    have hfits' := fun a ha => hfits a (hp.mem_iff.mpr ha)
    exact (ihp hr hfits).trans (ihq hr' hfits')

end Commuting

end Machinery
