import Mathlib.Data.Set.Basic

/-!
# Machinery/References — objects that refer to one another by name

A store is a set of objects; an object has a name and refers to names.  The store is **closed** when
every reference leads to an object it holds.

Objects come, are changed in place and are destroyed.  Nobody tells the others of a destruction, so
what refers to the object still does: `closed_shrink_iff` says that a closed store stays closed
exactly when nothing that is kept refers to something that is destroyed.
-/

namespace Machinery

variable {U O : Type*} {name : U → O} {refs : U → Set O} {S T : Set U}

/-- The store holds an object of this name. -/
def Named (name : U → O) (S : Set U) (b : O) : Prop := ∃ v ∈ S, name v = b

/-- Every reference leads to an object of the store. -/
def Closed (name : U → O) (refs : U → Set O) (S : Set U) : Prop :=
  ∀ u ∈ S, ∀ b ∈ refs u, Named name S b

theorem Named.mono (hST : S ⊆ T) {b : O} (h : Named name S b) : Named name T b := by
  obtain ⟨v, hv, rfl⟩ := h
  exact ⟨v, hST hv, rfl⟩

/-- Objects join that refer into the grown store. -/
theorem Closed.grow (h : Closed name refs S) (hST : S ⊆ T)
    (hnew : ∀ v ∈ T, v ∈ S ∨ ∀ b ∈ refs v, Named name T b) : Closed name refs T := by
  intro v hv b hb
  rcases hnew v hv with hold | hnew
  · exact (h v hold b hb).mono hST
  · exact hnew b hb

/-- Names are kept where objects are changed in place. -/
theorem Named.change {f : U → U} (hname : ∀ u, name (f u) = name u) (hT : ∀ u ∈ S, f u ∈ T) {b : O}
    (h : Named name S b) : Named name T b := by
  obtain ⟨v, hv, rfl⟩ := h
  exact ⟨f v, hT v hv, hname v⟩

/-- Objects are changed in place; a reference that is added leads into the store. -/
theorem Closed.change {f : U → U} (h : Closed name refs S) (hname : ∀ u, name (f u) = name u)
    (hT : ∀ v, v ∈ T ↔ ∃ u ∈ S, f u = v)
    (hrefs : ∀ u ∈ S, ∀ b ∈ refs (f u), b ∈ refs u ∨ Named name S b) : Closed name refs T := by
  intro v hv b hb
  obtain ⟨u, hu, rfl⟩ := (hT v).mp hv
  have hold : Named name S b := (hrefs u hu b hb).elim (h u hu b) id
  exact hold.change hname fun w hw => (hT _).mpr ⟨w, hw, rfl⟩

/-- **When a closed store survives a destruction**: exactly if nothing that is kept refers to what
is destroyed. -/
theorem closed_shrink_iff (gone : O → Prop) (h : Closed name refs S)
    (hT : ∀ v, v ∈ T ↔ v ∈ S ∧ ¬ gone (name v)) :
    Closed name refs T ↔ ∀ u ∈ S, ¬ gone (name u) → ∀ b ∈ refs u, ¬ gone b := by
  constructor
  · intro hclosed u hu hkept b hb hgone
    obtain ⟨v, hv, rfl⟩ := hclosed u ((hT u).mpr ⟨hu, hkept⟩) b hb
    exact ((hT v).mp hv).2 hgone
  · intro hkept v hv b hb
    obtain ⟨hvS, hvkept⟩ := (hT v).mp hv
    obtain ⟨w, hw, rfl⟩ := h v hvS b hb
    exact ⟨w, (hT w).mpr ⟨hw, hkept v hvS hvkept _ hb⟩, rfl⟩

end Machinery
