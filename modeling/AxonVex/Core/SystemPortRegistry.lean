import AxonVex.Core.Ports
import Mathlib.Data.List.Basic

/-!
# Core/SystemPortRegistry — the named ports of a system

`SystemPortRegistry` maps names to ports of registered units, inputs and outputs apart.  It owns no
port: it must be told (`removeAllForOwner`, `clear`) when the unit behind a port goes away.

`AllOwned r live` says that every port of the table belongs to a unit that `live` holds of; it is
kept by every operation except the destruction of a unit, and `removeAllForOwner` is what makes
that sound (`AllOwned.removeAllForOwner`).
-/

namespace AxonVex

open Machinery

/-- `SystemPortRegistry`. -/
structure SystemPortRegistry where
  inputs : Table String PortPtr := ∅
  outputs : Table String PortPtr := ∅

namespace SystemPortRegistry

variable (r : SystemPortRegistry)

/-- `assignInput(name, port)`: a name that is taken is refused. -/
def assignInput (name : String) (port : PortPtr) : Option SystemPortRegistry :=
  if name ∈ r.inputs then none else some { r with inputs := r.inputs.insert name port }

/-- `assignOutput(name, port)`. -/
def assignOutput (name : String) (port : PortPtr) : Option SystemPortRegistry :=
  if name ∈ r.outputs then none else some { r with outputs := r.outputs.insert name port }

/-- `removeInput(name)`. -/
def removeInput (name : String) : Option SystemPortRegistry :=
  if name ∈ r.inputs then some { r with inputs := r.inputs.erase name } else none

/-- `removeOutput(name)`. -/
def removeOutput (name : String) : Option SystemPortRegistry :=
  if name ∈ r.outputs then some { r with outputs := r.outputs.erase name } else none

/-- `clear()`. -/
def clear (_ : SystemPortRegistry) : SystemPortRegistry := ⟨∅, ∅⟩

/-- `removeAllForOwner(owner)`: reads the owner of each port of the table. -/
def removeAllForOwner (owner : UnitPtr) : SystemPortRegistry where
  inputs := r.inputs.filterValues fun p => p.owner ≠ owner
  outputs := r.outputs.filterValues fun p => p.owner ≠ owner

/-- The port is in one of the two tables. -/
def Holds (port : PortPtr) : Prop := port ∈ r.inputs.values ∨ port ∈ r.outputs.values

instance (port : PortPtr) : Decidable (r.Holds port) := inferInstanceAs (Decidable (_ ∨ _))

/-- No system port is assigned. -/
def isEmpty : Bool := r.inputs.entries.isEmpty && r.outputs.entries.isEmpty

/-- Every port of the tables belongs to a unit of `live`. -/
def AllOwned (live : UnitPtr → Prop) : Prop := ∀ port, r.Holds port → live port.owner

variable {r} {s : SystemPortRegistry} {live live' : UnitPtr → Prop} {name : String}
  {port q : PortPtr} {owner : UnitPtr}

@[simp] theorem not_holds_clear : ¬ r.clear.Holds port := by simp [Holds, clear]

theorem AllOwned.mono (h : r.AllOwned live) (hl : ∀ p, live p → live' p) : r.AllOwned live' :=
  fun port hp => hl _ (h port hp)

theorem isEmpty_iff : r.isEmpty = true ↔ ∀ port, ¬ r.Holds port := by
  obtain ⟨⟨ins, _⟩, ⟨outs, _⟩⟩ := r
  simp only [isEmpty, Holds, AList.values, Bool.and_eq_true, List.isEmpty_iff, List.mem_map, not_or]
  constructor
  · rintro ⟨rfl, rfl⟩
    simp
  · intro h
    refine ⟨List.eq_nil_iff_forall_not_mem.mpr fun e he => (h e.2).1 ⟨e, he, rfl⟩,
      List.eq_nil_iff_forall_not_mem.mpr fun e he => (h e.2).2 ⟨e, he, rfl⟩⟩

/-! ## What the operations do to the ports held -/

theorem holds_assignInput (h : r.assignInput name port = some s) :
    s.Holds q ↔ r.Holds q ∨ q = port := by
  unfold assignInput at h
  split at h
  · cases h
  next hn =>
    obtain ⟨⟩ := h
    simp only [Holds, AList.mem_values, AList.lookup_insert_eq_some]
    constructor
    · rintro (⟨k, ⟨-, rfl⟩ | ⟨-, hk⟩⟩ | ho)
      · exact .inr rfl
      · exact .inl (.inl ⟨k, hk⟩)
      · exact .inl (.inr ho)
    · rintro ((⟨k, hk⟩ | ho) | rfl)
      · refine .inl ⟨k, .inr ⟨?_, hk⟩⟩
        rintro rfl
        exact hn (AList.mem_of_lookup hk)
      · exact .inr ho
      · exact .inl ⟨name, .inl ⟨rfl, rfl⟩⟩

theorem holds_assignOutput (h : r.assignOutput name port = some s) :
    s.Holds q ↔ r.Holds q ∨ q = port := by
  unfold assignOutput at h
  split at h
  · cases h
  next hn =>
    obtain ⟨⟩ := h
    simp only [Holds, AList.mem_values, AList.lookup_insert_eq_some]
    constructor
    · rintro (hi | ⟨k, ⟨-, rfl⟩ | ⟨-, hk⟩⟩)
      · exact .inl (.inl hi)
      · exact .inr rfl
      · exact .inl (.inr ⟨k, hk⟩)
    · rintro ((hi | ⟨k, hk⟩) | rfl)
      · exact .inl hi
      · refine .inr ⟨k, .inr ⟨?_, hk⟩⟩
        rintro rfl
        exact hn (AList.mem_of_lookup hk)
      · exact .inr ⟨name, .inl ⟨rfl, rfl⟩⟩

theorem holds_of_removeInput (h : r.removeInput name = some s) (hq : s.Holds q) : r.Holds q := by
  unfold removeInput at h
  split at h
  · obtain ⟨⟩ := h
    simp only [Holds, AList.mem_values, AList.lookup_erase_eq_some] at hq ⊢
    rcases hq with ⟨k, -, hk⟩ | ho
    · exact .inl ⟨k, hk⟩
    · exact .inr ho
  · cases h

theorem holds_of_removeOutput (h : r.removeOutput name = some s) (hq : s.Holds q) : r.Holds q := by
  unfold removeOutput at h
  split at h
  · obtain ⟨⟩ := h
    simp only [Holds, AList.mem_values, AList.lookup_erase_eq_some] at hq ⊢
    rcases hq with hi | ⟨k, -, hk⟩
    · exact .inl hi
    · exact .inr ⟨k, hk⟩
  · cases h

theorem holds_removeAllForOwner :
    (r.removeAllForOwner owner).Holds q ↔ r.Holds q ∧ q.owner ≠ owner := by
  simp only [Holds, removeAllForOwner, AList.mem_values, AList.lookup_filterValues,
    decide_eq_true_eq]
  constructor
  · rintro (⟨k, hk, hne⟩ | ⟨k, hk, hne⟩)
    · exact ⟨.inl ⟨k, hk⟩, hne⟩
    · exact ⟨.inr ⟨k, hk⟩, hne⟩
  · rintro ⟨⟨k, hk⟩ | ⟨k, hk⟩, hne⟩
    · exact .inl ⟨k, hk, hne⟩
    · exact .inr ⟨k, hk, hne⟩

/-- **Destroying one unit is sound after `removeAllForOwner`.** -/
theorem AllOwned.removeAllForOwner (h : r.AllOwned live)
    (hl : ∀ p, live p → p ≠ owner → live' p) : (r.removeAllForOwner owner).AllOwned live' := by
  intro port hp
  obtain ⟨hp, hne⟩ := holds_removeAllForOwner.mp hp
  exact hl _ (h port hp) hne

end SystemPortRegistry

end AxonVex
