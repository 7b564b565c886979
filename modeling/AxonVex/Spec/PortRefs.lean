import AxonVex.Spec.SystemSpec
import Mathlib.Data.List.TakeDrop

/-!
# Spec/PortRefs — the syntax of a reference

A reference is two names with one dot between them (`isValidPortRef_iff`), and `splitPortRef` gives
the two names back (`splitPortRef_eq_iff`), so a good reference says no less than the pair of its
names.
-/

namespace AxonVex

variable {ref a b : String}

/-- A text without a dot. -/
def DotFree (s : String) : Prop := '.' ∉ s.toList

/-- Where the first dot of `a.b` stands. -/
theorem findIdx?_dot (ha : DotFree a) :
    (a ++ "." ++ b).toList.findIdx? (· == '.') = some a.length := by
  have hnone : a.toList.findIdx? (· == '.') = none :=
    List.findIdx?_eq_none_iff.mpr fun c hc => by
      rw [beq_eq_false_iff_ne]
      rintro rfl
      exact ha hc
  simp [List.findIdx?_append, hnone, List.findIdx?_cons, String.length_toList]

/-- A text with a dot is cut at the first one. -/
theorem exists_dot {pos : ℕ} (h : ref.toList.findIdx? (· == '.') = some pos) :
    ∃ a b, DotFree a ∧ ref = a ++ "." ++ b ∧ a.length = pos := by
  obtain ⟨hlt, hdot, hbefore⟩ := List.findIdx?_eq_some_iff_getElem.mp h
  refine ⟨.ofList (ref.toList.take pos), .ofList (ref.toList.drop (pos + 1)), ?_, ?_, ?_⟩
  · intro hmem
    rw [String.toList_ofList] at hmem
    obtain ⟨i, hi, heq⟩ := List.getElem_of_mem hmem
    rw [List.length_take] at hi
    rw [List.getElem_take] at heq
    exact hbefore i (by omega) (by simp [heq])
  · have hcons : ref.toList.drop pos = '.' :: ref.toList.drop (pos + 1) := by
      rw [List.drop_eq_getElem_cons hlt, beq_iff_eq.mp hdot]
    apply String.toList_injective
    simp only [String.toList_append, String.toList_ofList, List.append_assoc]
    exact (List.take_append_drop pos ref.toList).symm.trans (congrArg _ hcons)
  · simp only [String.length_ofList, List.length_take]
    omega

/-- Behind the first dot. -/
theorem drop_dot : (a ++ "." ++ b).toList.drop (a.length + 1) = b.toList := by
  rw [String.toList_append, String.toList_append, List.append_assoc, ← String.length_toList,
    List.drop_append]
  simp

/-- **The parts of a reference.** -/
theorem splitPortRef_append (ha : DotFree a) : splitPortRef (a ++ "." ++ b) = (a, b) := by
  unfold splitPortRef
  rw [findIdx?_dot ha]
  have htake : (a ++ "." ++ b).toList.take a.length = a.toList := by
    rw [String.toList_append, String.toList_append, List.append_assoc, ← String.length_toList,
      List.take_left]
  simp only [drop_dot, htake, String.ofList_toList]

/-- **A good reference** is two non-empty names without dots, with one dot between them. -/
theorem isValidPortRef_iff : isValidPortRef ref = true ↔
    ∃ a b, (DotFree a ∧ a ≠ "") ∧ (DotFree b ∧ b ≠ "") ∧ ref = a ++ "." ++ b := by
  -- once the first dot is found, the three tests speak about the two parts
  have key (a b : String) (ha : DotFree a) : isValidPortRef (a ++ "." ++ b) = true ↔
      a ≠ "" ∧ DotFree b ∧ b ≠ "" := by
    have hempty (s : String) : s = "" ↔ s.length = 0 := by
      rw [← String.length_toList, List.length_eq_zero_iff, String.toList_eq_nil_iff]
    have hlength : (a ++ "." ++ b).length = a.length + 1 + b.length := by
      rw [String.length_append, String.length_append]
      rfl
    unfold isValidPortRef
    rw [findIdx?_dot ha]
    simp only [drop_dot, hlength, Bool.and_eq_true, bne_iff_ne, Bool.not_eq_true',
      List.contains_eq_mem, decide_eq_false_iff_not, DotFree, ne_eq, hempty]
    constructor
    · rintro ⟨⟨h₁, h₂⟩, h₃⟩
      exact ⟨h₁, h₃, by omega⟩
    · rintro ⟨h₁, h₃, h₂⟩
      exact ⟨⟨h₁, by omega⟩, h₃⟩
  constructor
  · intro h
    have hdot : ∃ pos, ref.toList.findIdx? (· == '.') = some pos := by
      unfold isValidPortRef at h
      split at h
      · cases h
      next pos hpos => exact ⟨pos, hpos⟩
    obtain ⟨pos, hpos⟩ := hdot
    obtain ⟨a, b, ha, rfl, -⟩ := exists_dot hpos
    obtain ⟨ha', hb, hb'⟩ := (key a b ha).mp h
    exact ⟨a, b, ⟨ha, ha'⟩, ⟨hb, hb'⟩, rfl⟩
  · rintro ⟨a, b, ⟨ha, ha'⟩, ⟨hb, hb'⟩, rfl⟩
    exact (key a b ha).mpr ⟨ha', hb, hb'⟩

/-- **A good reference is the pair of its names.** -/
theorem splitPortRef_eq_iff (h : isValidPortRef ref = true) :
    splitPortRef ref = (a, b) ↔ ref = a ++ "." ++ b := by
  obtain ⟨a', b', ⟨ha, -⟩, ⟨hb, -⟩, rfl⟩ := isValidPortRef_iff.mp h
  rw [splitPortRef_append ha]
  constructor
  · rintro ⟨⟩
    rfl
  · intro heq
    -- a dot in `a` would be a second one in the reference
    have hfree : DotFree a := by
      intro hmem
      have hcount := congrArg (fun s : String => s.toList.count '.') heq
      simp only [String.toList_append, List.count_append,
        List.count_eq_zero.mpr ha, List.count_eq_zero.mpr hb] at hcount
      have hpos := List.count_pos_iff.mpr hmem
      have hdot : ".".toList.count '.' = 1 := by decide
      omega
    have hsplit := congrArg splitPortRef heq
    rwa [splitPortRef_append ha, splitPortRef_append hfree] at hsplit

end AxonVex
