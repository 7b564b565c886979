import Mathlib.Data.Set.Finite.Lattice
import Mathlib.Logic.Relation

/-!
# Machinery/Descent — recursion along the edges of a graph

A call at a node makes a call at every successor of the node.  `Ends next n a` says that a call at
`a` has less than `n` calls nested in each other below it and so ends; there is such an `n` exactly
if `a` is accessible (`exists_ends_iff_acc`), and in a finite graph exactly if no cycle can be
reached from `a` (`exists_ends_iff_not_reachesCycle`).  An edge closes no cycle unless its end
leads back to its beginning (`not_cycle_of_insert`).
-/

namespace Machinery

open Relation

variable {α : Type*} {next : α → List α} {a b : α} {m n : ℕ}

/-- The calls at a node and below it are nested at most `n` deep. -/
def Ends (next : α → List α) : ℕ → α → Prop
  | 0, _ => False
  | n + 1, a => ∀ b ∈ next a, Ends next n b

/-- A call at the first node makes a call at the second. -/
def Edge (next : α → List α) (a b : α) : Prop := b ∈ next a

/-- A cycle can be reached from the node. -/
def ReachesCycle (next : α → List α) (a : α) : Prop :=
  ∃ b, ReflTransGen (Edge next) a b ∧ TransGen (Edge next) b b

theorem Ends.mono (h : Ends next m a) (hmn : m ≤ n) : Ends next n a := by
  induction n generalizing m a with
  | zero =>
    obtain rfl : m = 0 := by omega
    exact h
  | succ n ih =>
    cases m with
    | zero => exact h.elim
    | succ m => exact fun b hb => ih (h b hb) (by omega)

theorem Ends.acc (h : Ends next n a) : Acc (fun b a => Edge next a b) a := by
  induction n generalizing a with
  | zero => exact h.elim
  | succ n ih => exact ⟨a, fun b hb => ih (h b hb)⟩

/-- Finitely many depths have a bound. -/
theorem exists_forall_ends {bs : List α} (h : ∀ b ∈ bs, ∃ n, Ends next n b) :
    ∃ n, ∀ b ∈ bs, Ends next n b := by
  induction bs with
  | nil => exact ⟨0, fun b hb => absurd hb List.not_mem_nil⟩
  | cons b bs ih =>
    obtain ⟨hb, hbs⟩ := List.forall_mem_cons.mp h
    obtain ⟨m, hm⟩ := hb
    obtain ⟨n, hn⟩ := ih hbs
    refine ⟨m + n, List.forall_mem_cons.mpr ⟨hm.mono (by omega), fun c hc => ?_⟩⟩
    exact (hn c hc).mono (by omega)

/-- **A call ends exactly if the node is accessible.** -/
theorem exists_ends_iff_acc : (∃ n, Ends next n a) ↔ Acc (fun b a => Edge next a b) a := by
  refine ⟨fun ⟨n, h⟩ => h.acc, fun h => ?_⟩
  induction h with
  | intro a _ ih =>
    obtain ⟨n, hn⟩ := exists_forall_ends ih
    exact ⟨n + 1, hn⟩

theorem not_reachesCycle_of_acc (h : Acc (fun b a => Edge next a b) a) :
    ¬ ReachesCycle next a := by
  induction h with
  | intro a _ ih =>
    rintro ⟨b, hab, hbb⟩
    rcases hab.cases_head with rfl | ⟨c, hac, hcb⟩
    · obtain ⟨c, hac, hca⟩ := TransGen.head'_iff.mp hbb
      exact ih c hac ⟨a, hca, hbb⟩
    · exact ih c hac ⟨b, hcb, hbb⟩

/-- Below a node that reaches no cycle, finitely many nodes are in a well-founded order. -/
theorem acc_of_not_reachesCycle {s : Set α} (hs : s.Finite) (hnext : ∀ a, ∀ b ∈ next a, b ∈ s)
    (h : ¬ ReachesCycle next a) : Acc (fun b a => Edge next a b) a := by
  let below := { b // ReflTransGen (Edge next) a b }
  have hfinite : Finite below := by
    refine Set.Finite.subset (hs.insert a) fun b hb => ?_
    rcases ReflTransGen.cases_tail hb with rfl | ⟨c, -, hcb⟩
    · exact Set.mem_insert b s
    · exact Set.mem_insert_of_mem a (hnext c b hcb)
  let under (x y : below) : Prop := TransGen (Edge next) y.1 x.1
  have htrans : IsTrans below under := ⟨fun _ _ _ hxy hyz => hyz.trans hxy⟩
  have hirrefl : Std.Irrefl under := ⟨fun x hx => h ⟨x.1, x.2, hx⟩⟩
  have hwf : WellFounded under := Finite.wellFounded_of_trans_of_irrefl under
  have hacc (x : below) : Acc (fun b a => Edge next a b) x.1 := by
    induction x using hwf.induction with
    | _ x ih => exact ⟨x.1, fun b hb => ih ⟨b, x.2.tail hb⟩ (.single hb)⟩
  exact hacc ⟨a, .refl⟩

/-- **In a finite graph, a call ends exactly if it reaches no cycle.** -/
theorem exists_ends_iff_not_reachesCycle {s : Set α} (hs : s.Finite)
    (hnext : ∀ a, ∀ b ∈ next a, b ∈ s) : (∃ n, Ends next n a) ↔ ¬ ReachesCycle next a := by
  rw [exists_ends_iff_acc]
  exact ⟨not_reachesCycle_of_acc, acc_of_not_reachesCycle hs hnext⟩

/-! ## One more edge -/

variable {more : α → List α} {p q : α}

/-- A path with the edge from `p` to `q` in it goes through both. -/
theorem transGen_insert (hmore : ∀ a b, b ∈ more a → b ∈ next a ∨ a = p ∧ b = q)
    (h : TransGen (Edge more) a b) :
    TransGen (Edge next) a b ∨ ReflTransGen (Edge next) a p ∧ ReflTransGen (Edge next) q b := by
  induction h with
  | single hab =>
    rcases hmore a _ hab with hab | ⟨rfl, rfl⟩
    · exact .inl (.single hab)
    · exact .inr ⟨.refl, .refl⟩
  | tail _ hbc ih =>
    rcases hmore _ _ hbc with hbc | ⟨rfl, rfl⟩
    · exact ih.imp (fun hab => hab.tail hbc) fun ⟨hap, hqb⟩ => ⟨hap, hqb.tail hbc⟩
    · exact .inr ⟨ih.elim TransGen.to_reflTransGen And.left, .refl⟩

/-- **An edge closes no cycle if its end does not lead to its beginning.** -/
theorem not_cycle_of_insert (hmore : ∀ a b, b ∈ more a → b ∈ next a ∨ a = p ∧ b = q)
    (hpq : ¬ ReflTransGen (Edge next) q p) (h : ∀ a, ¬ TransGen (Edge next) a a) :
    ∀ a, ¬ TransGen (Edge more) a a := by
  intro a haa
  rcases transGen_insert hmore haa with haa | ⟨hap, hqa⟩
  · exact h a haa
  · exact hpq (hqa.trans hap)

/-- A graph with fewer edges has fewer cycles. -/
theorem ReachesCycle.mono {fewer : α → List α} (hsub : ∀ a, fewer a ⊆ next a)
    (h : ReachesCycle fewer a) : ReachesCycle next a := by
  obtain ⟨b, hab, hbb⟩ := h
  have hedge (c d : α) (hcd : Edge fewer c d) : Edge next c d := hsub c hcd
  exact ⟨b, ReflTransGen.mono hedge a b hab, TransGen.mono hedge b b hbb⟩

end Machinery
