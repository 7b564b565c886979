import Mathlib.Data.Nat.Notation
import Mathlib.Data.List.Basic

/-!
# Machinery/Roster — a list of distinct members, edited at its end

A member is added at the end of the list unless it is there, and can be removed again, alone or with
all others.  The list is determined by the edits: its members are those with an addition that no
later edit has taken back (`Stays`), and they stand in the order of the first such addition
(`ComesBefore`).  `Reflects` says both, and every edit keeps it.
-/

namespace Machinery

variable {α : Type*}

inductive Edit (α : Type*)
  | add (a : α)
  | remove (a : α)
  | clear
  deriving DecidableEq

namespace Edit

/-- The list after an edit. -/
def apply [DecidableEq α] : Edit α → List α → List α
  | .add a, l => if a ∈ l then l else l ++ [a]
  | .remove a, l => l.erase a
  | .clear, _ => []

/-- The edit takes the member away. -/
def Removes (e : Edit α) (a : α) : Prop := e = .remove a ∨ e = .clear

theorem not_removes_add (a b : α) : ¬ (Edit.add a).Removes b := by
  simp [Removes]

end Edit

variable {edits : List (Edit α)} {e : Edit α} {a b : α} {l : List α} {i j : ℕ}

/-- The `i`-th edit adds the member, and none after it takes it away. -/
structure Stays (edits : List (Edit α)) (a : α) (i : ℕ) : Prop where
  added : edits[i]? = some (.add a)
  kept (j : ℕ) (e : Edit α) : i < j → edits[j]? = some e → ¬ e.Removes a

/-- `a` was added, since it was last absent, before `b` was. -/
def ComesBefore (edits : List (Edit α)) (a b : α) : Prop :=
  ∃ i, Stays edits a i ∧ ∀ j, Stays edits b j → i < j

/-- The list holds distinct members, those that are there by the edits, in the order in which they
came. -/
structure Reflects (l : List α) (edits : List (Edit α)) : Prop where
  nodup : l.Nodup
  mem_iff (a : α) : a ∈ l ↔ ∃ i, Stays edits a i
  order : l.Pairwise (ComesBefore edits)

theorem Stays.lt (h : Stays edits a i) : i < edits.length :=
  (List.getElem?_eq_some_iff.mp h.added).1

theorem Stays.append (h : Stays edits a i) (he : ¬ e.Removes a) : Stays (edits ++ [e]) a i where
  added := by rw [List.getElem?_append_left h.lt, h.added]
  kept j e' hj hget := by
    rcases Nat.lt_trichotomy j edits.length with hlt | rfl | hgt
    · rw [List.getElem?_append_left hlt] at hget
      exact h.kept j e' hj hget
    · obtain rfl : e = e' := by simpa using hget
      exact he
    · rw [List.getElem?_eq_none (by simp; omega)] at hget
      exact absurd hget (by simp)

/-- The addition of the last edit. -/
theorem stays_last (edits : List (Edit α)) (a : α) : Stays (edits ++ [.add a]) a edits.length where
  added := by simp
  kept j e' hj hget := by
    rw [List.getElem?_eq_none (by simp; omega)] at hget
    exact absurd hget (by simp)

/-- **What one more edit does to the additions.** -/
theorem stays_append : Stays (edits ++ [e]) a i ↔
    (Stays edits a i ∧ ¬ e.Removes a) ∨ (i = edits.length ∧ e = .add a) := by
  constructor
  · intro h
    have hi : i < edits.length + 1 := by simpa using h.lt
    rcases Nat.lt_succ_iff_lt_or_eq.mp hi with hlt | rfl
    · have hadded : edits[i]? = some (.add a) := by
        rw [← h.added, List.getElem?_append_left hlt]
      refine .inl ⟨⟨hadded, fun j e' hj hget => ?_⟩, h.kept edits.length e hlt (by simp)⟩
      have hjlt : j < edits.length := (List.getElem?_eq_some_iff.mp hget).1
      exact h.kept j e' hj (by rw [List.getElem?_append_left hjlt, hget])
    · exact .inr ⟨rfl, by simpa using h.added⟩
  · rintro (⟨h, he⟩ | ⟨rfl, rfl⟩)
    · exact h.append he
    · exact stays_last edits a

/-- A member that is not taken away stays before those that came later. -/
theorem ComesBefore.append (h : ComesBefore edits a b) (he : ¬ e.Removes a) :
    ComesBefore (edits ++ [e]) a b := by
  obtain ⟨i, hi, hfirst⟩ := h
  refine ⟨i, hi.append he, fun j hj => ?_⟩
  rcases stays_append.mp hj with ⟨hj, -⟩ | ⟨rfl, -⟩
  · exact hfirst j hj
  · exact hi.lt

theorem Reflects.nil : Reflects ([] : List α) [] where
  nodup := List.nodup_nil
  mem_iff a := by
    refine ⟨fun h => absurd h (by simp), fun ⟨i, h⟩ => ?_⟩
    exact absurd h.lt (by simp)
  order := List.Pairwise.nil

/-- An edit that only takes members away. -/
theorem Reflects.sublist {l' : List α} (h : Reflects l edits) (hsub : l'.Sublist l)
    (hmem : ∀ b, b ∈ l' ↔ b ∈ l ∧ ¬ e.Removes b) (he : ∀ b, e ≠ .add b) :
    Reflects l' (edits ++ [e]) where
  nodup := h.nodup.sublist hsub
  mem_iff b := by
    rw [hmem, h.mem_iff]
    constructor
    · rintro ⟨⟨i, hi⟩, hb⟩
      exact ⟨i, hi.append hb⟩
    · rintro ⟨i, hi⟩
      rcases stays_append.mp hi with ⟨hi, hb⟩ | ⟨-, heq⟩
      · exact ⟨⟨i, hi⟩, hb⟩
      · exact absurd heq (he b)
  order := (h.order.sublist hsub).imp_of_mem fun hb _ hbc => hbc.append ((hmem _).mp hb).2

variable [DecidableEq α]

theorem Reflects.add (h : Reflects l edits) (a : α) :
    Reflects (Edit.apply (.add a) l) (edits ++ [.add a]) := by
  have hmem (b : α) : b ∈ Edit.apply (.add a) l ↔ b ∈ l ∨ b = a := by
    rw [Edit.apply]
    split
    next ha => exact ⟨.inl, fun hb => hb.elim id fun heq => heq ▸ ha⟩
    next ha => simp
  refine ⟨?_, fun b => ?_, ?_⟩
  · rw [Edit.apply]
    split
    next ha => exact h.nodup
    next ha =>
      refine List.nodup_append.mpr ⟨h.nodup, by simp, fun b hb c hc hbc => ha ?_⟩
      rwa [← List.mem_singleton.mp hc, ← hbc]
  · rw [hmem, h.mem_iff]
    constructor
    · rintro (⟨i, hi⟩ | rfl)
      · exact ⟨i, hi.append (Edit.not_removes_add a b)⟩
      · exact ⟨edits.length, stays_last edits b⟩
    · rintro ⟨i, hi⟩
      rcases stays_append.mp hi with ⟨hi, -⟩ | ⟨-, heq⟩
      · exact .inl ⟨i, hi⟩
      · exact .inr (Edit.add.inj heq).symm
  · have hold : l.Pairwise (ComesBefore (edits ++ [.add a])) :=
      h.order.imp fun hbc => hbc.append (Edit.not_removes_add a _)
    rw [Edit.apply]
    split
    next ha => exact hold
    next ha =>
      refine List.pairwise_append.mpr ⟨hold, List.pairwise_singleton _ _, fun b hb c hc => ?_⟩
      obtain rfl := List.mem_singleton.mp hc
      obtain ⟨i, hi⟩ := (h.mem_iff b).mp hb
      refine ⟨i, hi.append (Edit.not_removes_add c b), fun j hj => ?_⟩
      rcases stays_append.mp hj with ⟨hj, -⟩ | ⟨rfl, -⟩
      · exact absurd ((h.mem_iff c).mpr ⟨j, hj⟩) ha
      · exact hi.lt

/-- **Every edit keeps the list and the edits together.** -/
theorem Reflects.edit (h : Reflects l edits) (e : Edit α) :
    Reflects (e.apply l) (edits ++ [e]) := by
  cases e with
  | add a => exact h.add a
  | remove a =>
    refine h.sublist List.erase_sublist (fun b => ?_) (fun _ => by simp)
    rw [Edit.apply, h.nodup.mem_erase_iff, Edit.Removes]
    constructor
    · rintro ⟨hne, hb⟩
      exact ⟨hb, by simpa using fun heq => hne heq.symm⟩
    · rintro ⟨hb, hne⟩
      exact ⟨fun heq => hne (.inl (heq ▸ rfl)), hb⟩
  | clear =>
    refine h.sublist (List.nil_sublist l) (fun b => ?_) (fun _ => by simp)
    simp [Edit.apply, Edit.Removes]

end Machinery
