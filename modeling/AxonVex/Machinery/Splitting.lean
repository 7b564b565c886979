import Mathlib.Data.List.Basic

/-!
# Machinery/Splitting — the pieces of a sequence between separators

    xs  =  w₀ s₁ w₁ s₂ w₂ … sₙ wₙ        no separator in any wᵢ

A sequence without separators is one piece; any other is a piece, a separator and the rest
(`split_induction`).  A piece is a stretch without separators that is as long as it can be
(`mem_splitOnP_iff`), so that a piece between coarser separators which contains no finer one is a
piece between those too (`mem_splitOnP_of_finer`).
-/

namespace Machinery

variable {α : Type*} {p q : α → Bool} {xs w : List α}

/-- **Along the separators**: a sequence is one piece, or a piece, a separator and the rest. -/
theorem split_induction {motive : List α → Prop}
    (piece : ∀ w, (∀ c ∈ w, p c = false) → motive w)
    (cut : ∀ w s rest, (∀ c ∈ w, p c = false) → p s = true → motive rest → motive (w ++ s :: rest))
    (xs : List α) : motive xs := by
  -- the piece read so far goes along, so that the induction can be on the sequence
  have hall : ∀ w, (∀ c ∈ w, p c = false) → motive (w ++ xs) := by
    induction xs with
    | nil =>
      intro w hw
      rw [List.append_nil]
      exact piece w hw
    | cons c rest ih =>
      intro w hw
      cases hc : p c with
      | true => exact cut w c rest hw hc (ih [] (by simp))
      | false =>
        have hnext : ∀ d ∈ w ++ [c], p d = false := by
          intro d hd
          rcases List.mem_append.mp hd with hd | hd
          · exact hw d hd
          · obtain rfl := List.mem_singleton.mp hd
            exact hc
        have hrest := ih (w ++ [c]) hnext
        rwa [List.append_assoc, List.singleton_append] at hrest
  exact hall [] (by simp)

/-- **A piece** is without separators, and has one, or nothing, on either side. -/
theorem mem_splitOnP_iff : w ∈ xs.splitOnP p ↔ (∀ c ∈ w, p c = false) ∧
    ∃ a b, xs = a ++ w ++ b ∧ (∀ s ∈ a.getLast?, p s = true) ∧ ∀ s ∈ b.head?, p s = true := by
  constructor
  · induction xs using split_induction (p := p) with
    | piece v hv =>
      intro hw
      rw [List.splitOnP_eq_singleton hv] at hw
      obtain rfl := List.mem_singleton.mp hw
      exact ⟨hv, [], [], by simp, by simp, by simp⟩
    | cut v s rest hv hs ih =>
      intro hw
      rw [List.splitOnP_append_cons_of_forall_mem hv s hs] at hw
      rcases List.mem_cons.mp hw with rfl | hw
      · exact ⟨hv, [], s :: rest, by simp, by simp, by simpa using hs⟩
      · obtain ⟨hplain, a, b, rfl, ha, hb⟩ := ih hw
        refine ⟨hplain, v ++ s :: a, b, by simp, ?_, hb⟩
        intro t ht
        cases a with
        | nil =>
          obtain rfl : s = t := by simpa using ht
          exact hs
        | cons x a => exact ha t (by simpa using ht)
  · rintro ⟨hplain, a, b, rfl, ha, hb⟩
    have hright : w ∈ (w ++ b).splitOnP p := by
      cases b with
      | nil => simp [List.splitOnP_eq_singleton hplain]
      | cons s b =>
        have hs : p s = true := hb s (by simp)
        rw [List.splitOnP_append_cons_of_forall_mem hplain s hs]
        exact List.mem_cons_self
    rw [List.append_assoc]
    rcases List.eq_nil_or_concat a with rfl | ⟨a, s, rfl⟩
    · exact hright
    · have hs : p s = true := ha s (by simp)
      rw [List.concat_eq_append, List.append_assoc, List.singleton_append,
        List.splitOnP_append_cons a _ hs]
      exact List.mem_append_right _ hright

/-- **A piece between coarser separators** without a finer one is a piece between those. -/
theorem mem_splitOnP_of_finer (hqp : ∀ c, q c = true → p c = true)
    (hplain : ∀ c ∈ w, p c = false) (hw : w ∈ xs.splitOnP q) : w ∈ xs.splitOnP p := by
  obtain ⟨-, a, b, hxs, ha, hb⟩ := mem_splitOnP_iff.mp hw
  exact mem_splitOnP_iff.mpr
    ⟨hplain, a, b, hxs, fun s hs => hqp s (ha s hs), fun s hs => hqp s (hb s hs)⟩

end Machinery
