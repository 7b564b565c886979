import Mathlib.Data.List.Infix
import Mathlib.Data.List.Nodup

/-!
# Machinery/Placeholders — a text cut at a mark of two letters

    text = p₀ ab p₁ ab p₂ …        no pᵢ contains ab

Two occurrences of a mark `ab` of two different letters never overlap.  So a text is cut at its marks
in exactly one way (`existsUnique_splits`), and a search from left to right that goes on behind what
it has found finds them one after the other (`Splits.find_none`, `Splits.find_some`).
-/

namespace Machinery

namespace Placeholders

variable {α : Type*}

/-- The first position, from `pos` on, at which `needle` stands in `s`. -/
def find [DecidableEq α] (needle s : List α) (pos : ℕ) : Option ℕ :=
  (List.range (s.length + 1)).find? fun i => decide (pos ≤ i) && needle.isPrefixOf (s.drop i)

/-- The pieces of a text: the first, and those behind the marks. -/
abbrev Pieces (α : Type*) := List α × List (List α)

/-- **The text is cut at its marks** into these pieces. -/
structure Splits (a b : α) (s : List α) (pieces : Pieces α) : Prop where
  first : ¬ [a, b] <:+: pieces.1
  behind : ∀ p ∈ pieces.2, ¬ [a, b] <:+: p
  join : s = pieces.1 ++ pieces.2.flatMap ([a, b] ++ ·)

variable {a b : α} {s p q t : List α} {rest : List (List α)} {n i : ℕ}

/-- What stands in a part of a text from some position on stands in the text. -/
theorem infix_of_mark_drop (h : [a, b] <+: p.drop i) : [a, b] <:+: p :=
  h.isInfix.trans (List.drop_suffix i p).isInfix

/-- **Before a mark there is no other**, not even one that reaches into it. -/
theorem not_mark_before (hab : a ≠ b) (hp : ¬ [a, b] <:+: p) (hi : i < p.length) :
    ¬ [a, b] <+: (p ++ ([a, b] ++ t)).drop i := by
  rintro ⟨u, hu⟩
  have hentry (k : ℕ) : ([a, b] ++ u)[k]? = (p ++ ([a, b] ++ t))[i + k]? := by
    rw [hu, List.getElem?_drop]
  have h₀ : some a = p[i]? := by
    have h := hentry 0
    rwa [Nat.add_zero, List.getElem?_append_left hi] at h
  rcases Nat.lt_or_ge (i + 1) p.length with hin | hout
  · -- the mark lies in the piece
    have h₁ : some b = p[i + 1]? := by
      have h := hentry 1
      rwa [List.getElem?_append_left hin] at h
    refine hp (infix_of_mark_drop (i := i) ⟨p.drop (i + 2), ?_⟩)
    obtain ⟨_, ha⟩ := List.getElem?_eq_some_iff.mp h₀.symm
    obtain ⟨_, hb⟩ := List.getElem?_eq_some_iff.mp h₁.symm
    rw [List.drop_eq_getElem_cons hi, List.drop_eq_getElem_cons hin, ha, hb]
    rfl
  · -- its second letter is the first of the mark behind the piece
    have hlast : i + 1 = p.length := by omega
    have h₁ : some b = some a := by
      have h := hentry 1
      rw [hlast, List.getElem?_append_right le_rfl, Nat.sub_self] at h
      exact h
    exact hab (Option.some.inj h₁).symm

/-- The part of the text from the next mark on. -/
theorem Splits.drop (h : Splits a b (s.drop n) (p, q :: rest)) :
    Splits a b (s.drop (n + p.length + 2)) (q, rest) where
  first := h.behind q List.mem_cons_self
  behind r hr := h.behind r (List.mem_cons_of_mem q hr)
  join := by
    have hjoin := h.join
    rw [List.flatMap_cons, ← List.append_assoc, ← List.append_assoc] at hjoin
    have hsum : n + p.length + 2 = n + (p ++ [a, b]).length := by simp [Nat.add_assoc]
    rw [hsum, ← List.drop_drop, hjoin, List.append_assoc, List.append_assoc,
      ← List.append_assoc p, List.drop_left]

/-- The text up to the next mark. -/
theorem Splits.take (h : Splits a b (s.drop n) (p, rest)) : (s.drop n).take p.length = p := by
  rw [h.join, List.take_left]

variable [DecidableEq α]

theorem find_eq_some_iff {needle : List α} :
    find needle s n = some i ↔ (n ≤ i ∧ needle <+: s.drop i) ∧ i < s.length + 1 ∧
      ∀ j < i, n ≤ j → ¬ needle <+: s.drop j := by
  simp only [find, List.find?_range_eq_some, Bool.and_eq_true, decide_eq_true_eq,
    List.isPrefixOf_iff_prefix, List.mem_range, Bool.not_eq_true', Bool.eq_false_iff, ne_eq, not_and]

theorem find_eq_none_iff {needle : List α} :
    find needle s n = none ↔ ∀ i < s.length + 1, n ≤ i → ¬ needle <+: s.drop i := by
  simp only [find, List.find?_range_eq_none, Bool.not_eq_true', Bool.eq_false_iff, ne_eq,
    Bool.and_eq_true, decide_eq_true_eq, List.isPrefixOf_iff_prefix, not_and]

/-- **Nothing is found in the last piece.** -/
theorem Splits.find_none (h : Splits a b (s.drop n) (p, [])) : find [a, b] s n = none := by
  refine find_eq_none_iff.mpr fun i _ hi hmark => h.first ?_
  have hp : s.drop n = p := by simpa using h.join
  rw [show i = n + (i - n) by omega, ← List.drop_drop, hp] at hmark
  exact infix_of_mark_drop hmark

/-- **The mark behind the first piece is found.** -/
theorem Splits.find_some (hab : a ≠ b) (hpos : n ≤ s.length)
    (h : Splits a b (s.drop n) (p, q :: rest)) : find [a, b] s n = some (n + p.length) := by
  have hfirst : ¬ [a, b] <:+: p := h.first
  have hjoin : s.drop n = p ++ ([a, b] ++ (q ++ rest.flatMap ([a, b] ++ ·))) := by
    simpa using h.join
  have hlength : p.length ≤ s.length - n := by
    rw [← List.length_drop, hjoin, List.length_append]
    exact Nat.le_add_right ..
  refine find_eq_some_iff.mpr ⟨⟨Nat.le_add_right .., ?_⟩, by omega, fun j hj hposj hmark => ?_⟩
  · rw [← List.drop_drop, hjoin, List.drop_left]
    exact List.prefix_append ..
  · rw [show j = n + (j - n) by omega, ← List.drop_drop, hjoin] at hmark
    exact not_mark_before hab hfirst (by omega) hmark

theorem exists_splits (a b : α) (s : List α) : ∃ pieces, Splits a b s pieces := by
  -- by the length of the text: the pieces behind the first mark are those of a shorter one
  induction hn : s.length using Nat.strong_induction_on generalizing s with
  | _ n ih =>
    cases hfind : find [a, b] s 0 with
    | none =>
      refine ⟨(s, []), ⟨?_, fun _ h => absurd h List.not_mem_nil, by simp⟩⟩
      rintro ⟨before, behind, rfl⟩
      refine find_eq_none_iff.mp hfind before.length ?_ (Nat.zero_le _) ?_
      · rw [List.append_assoc, List.length_append]
        omega
      · rw [List.append_assoc, List.drop_left]
        exact List.prefix_append ..
    | some i =>
      obtain ⟨⟨-, t, ht⟩, -, hleast⟩ := find_eq_some_iff.mp hfind
      have hs : s = s.take i ++ ([a, b] ++ t) := by rw [ht, List.take_append_drop]
      have hlt : t.length < n := by
        have hlength := congrArg List.length ht
        rw [List.length_append, List.length_drop] at hlength
        simp only [List.length_cons, List.length_nil] at hlength
        omega
      obtain ⟨⟨q, rest⟩, hq⟩ := ih t.length hlt t rfl
      refine ⟨(s.take i, q :: rest), ⟨?_, ?_, ?_⟩⟩
      · rintro ⟨before, behind, htake : before ++ [a, b] ++ behind = s.take i⟩
        have hbefore : before.length < i := by
          have hlength := congrArg List.length htake
          rw [List.length_append, List.length_append, List.length_take] at hlength
          simp only [List.length_cons, List.length_nil] at hlength
          omega
        refine hleast before.length hbefore (Nat.zero_le _) ⟨behind ++ ([a, b] ++ t), ?_⟩
        rw [hs, ← htake, List.append_assoc, List.append_assoc, List.drop_left]
      · rintro r hr
        rcases List.mem_cons.mp hr with rfl | hr
        · exact hq.first
        · exact hq.behind r hr
      · rw [List.flatMap_cons, List.append_assoc, ← hq.join]
        exact hs

theorem splits_unique (hab : a ≠ b) {p' : List α} {rest' : List (List α)}
    (h : Splits a b s (p, rest)) (h' : Splits a b s (p', rest')) :
    (p, rest) = (p', rest') := by
  induction rest generalizing s p p' rest' with
  | nil =>
    cases rest' with
    | nil =>
      have hp : s = p := by simpa using h.join
      have hp' : s = p' := by simpa using h'.join
      rw [← hp, ← hp']
    | cons q' rest' =>
      have hnone := h.find_none (n := 0)
      exact absurd (hnone.symm.trans (h'.find_some (n := 0) hab (Nat.zero_le _))) (by simp)
  | cons q rest ih =>
    have hfound := h.find_some (n := 0) hab (Nat.zero_le _)
    cases rest' with
    | nil => exact absurd (hfound.symm.trans (h'.find_none (n := 0))) (by simp)
    | cons q' rest' =>
      have hlength : p.length = p'.length := by
        have hsame := hfound.symm.trans (h'.find_some (n := 0) hab (Nat.zero_le _))
        simpa using hsame
      have hp : p = p' := by rw [← h.take (n := 0), ← h'.take (n := 0), hlength]
      subst hp
      have hrest := ih (h.drop (n := 0)) (h'.drop (n := 0))
      obtain ⟨rfl, rfl⟩ := Prod.mk.inj hrest
      rfl

/-- **A text is cut at its marks in exactly one way.** -/
theorem existsUnique_splits (hab : a ≠ b) (s : List α) : ∃! pieces, Splits a b s pieces := by
  obtain ⟨pieces, h⟩ := exists_splits a b s
  exact ⟨pieces, h, fun _ h' => splits_unique hab h' h⟩

end Placeholders

end Machinery
