import Mathlib.Data.List.Nodup
import Mathlib.Data.List.Perm.Subperm
import Mathlib.Data.List.Sort
import Mathlib.Data.List.TakeWhile

/-!
# Machinery/Rounds — everybody on a list has a turn, while the list is edited

A round goes through a list that changes under it.  It is **kept** if nobody has two turns, and of
those who were there at its beginning whoever is still listed has had a turn or has it to come.  A
turn keeps it, and so does an edit that lists nobody of them anew and leaves before the round
whoever it leaves on the list.
-/

namespace Machinery

variable {α : Type*}

/-- A round: who is on the list, who is still before the round, and who has had a turn. -/
structure Round (α : Type*) where
  listed : List α
  ahead : List α
  served : List α

namespace Round

/-- **The round is kept** for those who were there at its beginning. -/
structure Kept (there : List α) (r : Round α) : Prop where
  once : r.served.Nodup
  turn : ∀ a ∈ there, a ∈ r.listed → a ∈ r.served ∨ a ∈ r.ahead

variable {there : List α} {r s : Round α} {a : α} {rest : List α}

theorem kept_begin (there listed : List α) : Kept there ⟨listed, there, []⟩ :=
  ⟨List.nodup_nil, fun _ ha _ => .inr ha⟩

/-- The next one has a turn. -/
theorem Kept.take (h : Kept there r) (hahead : r.ahead = a :: rest) (hfresh : a ∉ r.served) :
    Kept there ⟨r.listed, rest, r.served ++ [a]⟩ where
  once := List.nodup_append'.mpr ⟨h.once, List.nodup_singleton a,
    List.disjoint_singleton.mpr hfresh⟩
  turn b hb hlisted := by
    rcases h.turn b hb hlisted with hserved | hb
    · exact .inl (List.mem_append_left _ hserved)
    · rw [hahead] at hb
      rcases List.mem_cons.mp hb with rfl | hrest
      · exact .inl (List.mem_append_right _ (List.mem_singleton.mpr rfl))
      · exact .inr hrest

/-- The list is edited. -/
theorem Kept.edit (h : Kept there r) (hserved : s.served = r.served)
    (hlisted : ∀ a ∈ there, a ∈ s.listed → a ∈ r.listed)
    (hahead : ∀ a ∈ there, a ∈ s.listed → a ∈ r.ahead → a ∈ s.ahead) : Kept there s where
  once := hserved ▸ h.once
  turn a ha hs := by
    rcases h.turn a ha (hlisted a ha hs) with hserved' | hr
    · exact .inl (hserved ▸ hserved')
    · exact .inr (hahead a ha hs hr)

/-- **The round breaks off.** -/
theorem Kept.ends_iff (h : Kept there r) (hfresh : ∀ a ∈ r.ahead, a ∉ r.served) :
    Kept there ⟨r.listed, [], r.served⟩ ↔ ∀ a ∈ r.ahead, a ∈ there → a ∉ r.listed := by
  refine ⟨fun hend a ha hthere hlisted => ?_, fun hnone => ?_⟩
  · rcases hend.turn a hthere hlisted with hserved | hnil
    · exact hfresh a ha hserved
    · exact List.not_mem_nil hnil
  · exact h.edit rfl (fun _ _ hlisted => hlisted)
      fun a hthere hlisted ha => absurd hlisted (hnone a ha hthere)

/-- Somebody is listed, and the round has passed by. -/
theorem not_kept_of_passed (hthere : a ∈ there) (hlisted : a ∈ r.listed) (hserved : a ∉ r.served)
    (hahead : a ∉ r.ahead) : ¬ Kept there r :=
  fun h => (h.turn a hthere hlisted).elim hserved hahead

end Round

/-! ## Numbered members -/

/-- Different numbers below a bound are no more than it. -/
theorem length_le_of_nodup {l : List ℕ} {n : ℕ} (h : l.Nodup) (hlt : ∀ a ∈ l, a < n) :
    l.length ≤ n := by
  have hsub : l ⊆ List.range n := fun a ha => List.mem_range.mpr (hlt a ha)
  have hle := (h.subperm hsub).length_le
  rwa [List.length_range] at hle

/-- Of ascending numbers each is at least its position. -/
theorem add_le_of_ascending {l : List ℕ} (h : l.Pairwise (· < ·)) {k i a : ℕ}
    (hk : ∀ b ∈ l, k ≤ b) (hi : l[i]? = some a) : k + i ≤ a := by
  induction l generalizing k i with
  | nil => cases hi
  | cons b l ih =>
    obtain ⟨hb, hl⟩ := List.pairwise_cons.mp h
    have hkb := hk b List.mem_cons_self
    cases i with
    | zero =>
      obtain ⟨⟩ := hi
      exact hkb
    | succ i =>
      have hle := ih hl (fun c hc => Nat.lt_of_le_of_lt hkb (hb c hc)) hi
      omega

/-- What stands behind the first `i` of ascending numbers is at least `i`. -/
theorem le_of_mem_drop {l : List ℕ} (h : l.Pairwise (· < ·)) {i a : ℕ} (ha : a ∈ l.drop i) :
    i ≤ a := by
  obtain ⟨j, hj⟩ := List.mem_iff_getElem?.mp ha
  rw [List.getElem?_drop] at hj
  have hle := add_le_of_ascending h (fun b _ => Nat.zero_le b) hj
  omega

/-! ## Members in the order of their places -/

section Places

variable {β : Type*} [Preorder β] {place : α → β} {l front rest : List α} {a : α}

/-- A member is put before the first one that it has to stand before. -/
theorem pairwise_orderedInsert {r : α → α → Prop} [DecidableRel r]
    (h : l.Pairwise fun b c => place b < place c)
    (hbefore : ∀ b ∈ l, r a b → place a < place b)
    (hafter : ∀ b ∈ l, ¬ r a b → place b < place a) :
    (l.orderedInsert r a).Pairwise fun b c => place b < place c := by
  induction l with
  | nil => exact List.pairwise_singleton ..
  | cons b l ih =>
    obtain ⟨hb, hl⟩ := List.pairwise_cons.mp h
    rw [List.orderedInsert_cons]
    split_ifs with hab
    · have hlt := hbefore b List.mem_cons_self hab
      refine List.pairwise_cons.mpr ⟨fun c hc => ?_, h⟩
      rcases List.mem_cons.mp hc with rfl | hc
      · exact hlt
      · exact hlt.trans (hb c hc)
    · have htail := ih hl (fun c hc => hbefore c (List.mem_cons_of_mem _ hc))
        fun c hc => hafter c (List.mem_cons_of_mem _ hc)
      refine List.pairwise_cons.mpr ⟨fun c hc => ?_, htail⟩
      rcases (List.mem_orderedInsert r).mp hc with rfl | hc
      · exact hafter b List.mem_cons_self hab
      · exact hb c hc

/-- Who has a place behind a member's stands behind it. -/
theorem filter_behind [DecidableLT β]
    (h : (front ++ a :: rest).Pairwise fun b c => place b < place c) :
    (front ++ a :: rest).filter (fun b => place a < place b) = rest := by
  obtain ⟨-, hrest, hfront⟩ := List.pairwise_append.mp h
  have hnone : front.filter (fun b => place a < place b) = [] := by
    refine List.filter_eq_nil_iff.mpr fun b hb hlt => ?_
    exact lt_asymm (of_decide_eq_true hlt) (hfront b hb a List.mem_cons_self)
  have hall : rest.filter (fun b => place a < place b) = rest :=
    List.filter_eq_self.mpr fun b hb => decide_eq_true ((List.pairwise_cons.mp hrest).1 b hb)
  rw [List.filter_append, hnone, List.filter_cons, hall, if_neg (by simp), List.nil_append]

variable [DecidableEq α]

/-- The way to a member goes past those before it. -/
theorem exists_dropWhile_ne (ha : a ∈ l) :
    ∃ front rest, l = front ++ a :: rest ∧ l.dropWhile (· != a) = a :: rest := by
  induction l with
  | nil => exact absurd ha List.not_mem_nil
  | cons b l ih =>
    by_cases hab : b = a
    · subst hab
      exact ⟨[], l, rfl, List.dropWhile_cons_of_neg (by simp)⟩
    · have hmem : a ∈ l := (List.mem_cons.mp ha).resolve_left (Ne.symm hab)
      obtain ⟨front, rest, hl, hdrop⟩ := ih hmem
      refine ⟨b :: front, rest, by rw [hl, List.cons_append], ?_⟩
      rw [List.dropWhile_cons_of_pos (by simpa using hab), hdrop]

theorem dropWhile_ne_eq_nil (ha : a ∉ l) : l.dropWhile (· != a) = [] :=
  List.dropWhile_eq_nil_iff.mpr fun _ hb => bne_iff_ne.mpr fun hba => ha (hba ▸ hb)

end Places

end Machinery
