import Mathlib.Data.List.Nodup
import Mathlib.Data.List.Perm.Subperm
import Mathlib.Logic.Function.Basic

/-!
# Machinery/Holdings — everything that is given out is in one place

Things are given out and come back.  In between each is in somebody's hand or in a queue
(`Holdings.Exact`): whoever is given one has it in his hand, puts it into the queue, takes the first
one out of the queue, and gives one back from his hand.
-/

namespace Machinery

variable {A H : Type*}

structure Holdings (A H : Type*) where
  queued : List A
  hand : H → Option A

namespace Holdings

/-- **What has been given out is in exactly one place**, and nothing else is in any. -/
structure Exact (given : A → Prop) (s : Holdings A H) : Prop where
  nodup : s.queued.Nodup
  apart : ∀ h a, s.hand h = some a → a ∉ s.queued
  single : ∀ h h' a, s.hand h = some a → s.hand h' = some a → h = h'
  given_iff : ∀ a, given a ↔ a ∈ s.queued ∨ ∃ h, s.hand h = some a

variable {given : A → Prop} {s : Holdings A H} {h : H} {a : A} {rest : List A}

theorem Exact.congr (hs : Exact given s) {given' : A → Prop} (hiff : ∀ a, given' a ↔ given a) :
    Exact given' s :=
  ⟨hs.nodup, hs.apart, hs.single, fun a => (hiff a).trans (hs.given_iff a)⟩

/-- Nothing is given out exactly if all places are empty. -/
theorem Exact.none_given_iff (hs : Exact given s) :
    (∀ a, ¬ given a) ↔ s.queued = [] ∧ ∀ h, s.hand h = none := by
  constructor
  · intro hnone
    refine ⟨List.eq_nil_iff_forall_not_mem.mpr fun a ha => hnone a ((hs.given_iff a).mpr (.inl ha)),
      fun h => Option.eq_none_iff_forall_ne_some.mpr fun a ha => ?_⟩
    exact hnone a ((hs.given_iff a).mpr (.inr ⟨h, ha⟩))
  · rintro ⟨hqueued, hhand⟩ a ha
    rcases (hs.given_iff a).mp ha with hmem | ⟨h, hmem⟩
    · rw [hqueued] at hmem
      exact List.not_mem_nil hmem
    · exact absurd ((hhand h).symm.trans hmem) (by simp)

theorem exact_empty (hqueued : s.queued = []) (hhand : ∀ h, s.hand h = none)
    (hnone : ∀ a, ¬ given a) : Exact given s where
  nodup := hqueued ▸ List.nodup_nil
  apart h a ha := absurd ((hhand h).symm.trans ha) (by simp)
  single h _ a ha := absurd ((hhand h).symm.trans ha) (by simp)
  given_iff a := iff_of_false (hnone a) fun hplace => by
    rcases hplace with hmem | ⟨h, hmem⟩
    · rw [hqueued] at hmem
      exact List.not_mem_nil hmem
    · exact absurd ((hhand h).symm.trans hmem) (by simp)

/-- **All hands but one are empty**: what has been given out is counted by the queue and that hand. -/
theorem Exact.perm (hs : Exact given s) (hothers : ∀ h', h' ≠ h → s.hand h' = none) {l : List A}
    (hl : l.Nodup) (hgiven : ∀ a, a ∈ l ↔ given a) :
    l.Perm (s.queued ++ (s.hand h).toList) := by
  have hnodup : (s.queued ++ (s.hand h).toList).Nodup := by
    refine List.nodup_append'.mpr ⟨hs.nodup, ?_, fun a ha hmem => ?_⟩
    · cases s.hand h <;> simp
    · exact hs.apart h a (Option.mem_toList.mp hmem) ha
  refine (List.perm_ext_iff_of_nodup hl hnodup).mpr fun a => ?_
  rw [hgiven, hs.given_iff, List.mem_append, Option.mem_toList]
  refine or_congr_right ⟨fun ⟨h', ha⟩ => ?_, fun ha => ⟨h, ha⟩⟩
  by_cases hh : h' = h
  · exact hh ▸ ha
  · exact absurd ((hothers h' hh).symm.trans ha) (by simp)

variable [DecidableEq H]

def setHand (s : Holdings A H) (h : H) (a : Option A) : Holdings A H :=
  { s with hand := Function.update s.hand h a }

theorem setHand_eq_self {x : Option A} (hs : s.hand h = x) : s.setHand h x = s := by
  rw [setHand, ← hs, Function.update_eq_self]

theorem setHand_eq_some {x : Option A} {h' : H} : (s.setHand h x).hand h' = some a ↔
    h' = h ∧ x = some a ∨ h' ≠ h ∧ s.hand h' = some a := by
  change Function.update s.hand h x h' = some a ↔ _
  by_cases hh : h' = h
  · subst hh
    rw [Function.update_self]
    simp
  · rw [Function.update_of_ne hh]
    simp [hh]

/-- **One is given out**, into a hand that was empty. -/
theorem Exact.give (hs : Exact given s) (hempty : s.hand h = none) (hnew : ¬ given a) :
    Exact (fun b => b = a ∨ given b) (s.setHand h (some a)) where
  nodup := hs.nodup
  apart h' b hb := by
    rcases setHand_eq_some.mp hb with ⟨-, hb⟩ | ⟨-, hb⟩
    · obtain ⟨⟩ := hb
      exact fun hmem => hnew ((hs.given_iff a).mpr (.inl hmem))
    · exact hs.apart h' b hb
  single h₁ h₂ b h₁b h₂b := by
    rcases setHand_eq_some.mp h₁b with ⟨hh₁, hb⟩ | ⟨-, hin₁⟩ <;>
      rcases setHand_eq_some.mp h₂b with ⟨hh₂, hb'⟩ | ⟨-, hin₂⟩
    · exact hh₁.trans hh₂.symm
    · exact absurd ((hs.given_iff b).mpr (.inr ⟨h₂, hin₂⟩)) (Option.some.inj hb ▸ hnew)
    · exact absurd ((hs.given_iff b).mpr (.inr ⟨h₁, hin₁⟩)) (Option.some.inj hb' ▸ hnew)
    · exact hs.single h₁ h₂ b hin₁ hin₂
  given_iff b := by
    constructor
    · rintro (rfl | hb)
      · exact .inr ⟨h, setHand_eq_some.mpr (.inl ⟨rfl, rfl⟩)⟩
      · rcases (hs.given_iff b).mp hb with hmem | ⟨h', hmem⟩
        · exact .inl hmem
        · refine .inr ⟨h', setHand_eq_some.mpr (.inr ⟨?_, hmem⟩)⟩
          rintro rfl
          exact absurd (hempty.symm.trans hmem) (by simp)
    · rintro (hmem | ⟨h', hmem⟩)
      · exact .inr ((hs.given_iff b).mpr (.inl hmem))
      · rcases setHand_eq_some.mp hmem with ⟨-, hb⟩ | ⟨-, hmem⟩
        · exact .inl (Option.some.inj hb).symm
        · exact .inr ((hs.given_iff b).mpr (.inr ⟨h', hmem⟩))

/-- **One comes back** from a hand. -/
theorem Exact.release (hs : Exact given s) (hhand : s.hand h = some a) :
    Exact (fun b => b ≠ a ∧ given b) (s.setHand h none) where
  nodup := hs.nodup
  apart h' b hb := by
    rcases setHand_eq_some.mp hb with ⟨-, hb⟩ | ⟨-, hb⟩
    · cases hb
    · exact hs.apart h' b hb
  single h₁ h₂ b h₁b h₂b := by
    rcases setHand_eq_some.mp h₁b with ⟨-, hb⟩ | ⟨-, h₁b⟩
    · cases hb
    · rcases setHand_eq_some.mp h₂b with ⟨-, hb⟩ | ⟨-, h₂b⟩
      · cases hb
      · exact hs.single h₁ h₂ b h₁b h₂b
  given_iff b := by
    constructor
    · rintro ⟨hne, hb⟩
      rcases (hs.given_iff b).mp hb with hmem | ⟨h', hmem⟩
      · exact .inl hmem
      · refine .inr ⟨h', setHand_eq_some.mpr (.inr ⟨?_, hmem⟩)⟩
        rintro rfl
        exact hne (Option.some.inj (hmem.symm.trans hhand))
    · rintro (hmem | ⟨h', hmem⟩)
      · refine ⟨?_, (hs.given_iff b).mpr (.inl hmem)⟩
        rintro rfl
        exact hs.apart h b hhand hmem
      · rcases setHand_eq_some.mp hmem with ⟨-, hb⟩ | ⟨hne, hmem⟩
        · cases hb
        · refine ⟨?_, (hs.given_iff b).mpr (.inr ⟨h', hmem⟩)⟩
          rintro rfl
          exact hne (hs.single h' h b hmem hhand)

/-- **One goes from a hand into the queue.** -/
theorem Exact.put (hs : Exact given s) (hhand : s.hand h = some a) :
    Exact given { s.setHand h none with queued := s.queued ++ [a] } := by
  have hreleased := hs.release hhand
  refine ⟨List.nodup_append'.mpr ⟨hs.nodup, List.nodup_singleton a,
    List.disjoint_singleton.mpr (hs.apart h a hhand)⟩, fun h' b hb hmem => ?_, hreleased.single,
    fun b => ?_⟩
  · rcases List.mem_append.mp hmem with hmem | hmem
    · exact hreleased.apart h' b hb hmem
    · have hb' := (hreleased.given_iff b).mpr (.inr ⟨h', hb⟩)
      exact hb'.1 (List.mem_singleton.mp hmem)
  · change _ ↔ b ∈ s.queued ++ [a] ∨ ∃ h', (s.setHand h none).hand h' = some b
    rw [List.mem_append, List.mem_singleton]
    by_cases hba : b = a
    · subst hba
      exact iff_of_true ((hs.given_iff b).mpr (.inr ⟨h, hhand⟩)) (.inl (.inr rfl))
    · have hiff := hreleased.given_iff b
      rw [and_iff_right hba] at hiff
      rw [hiff, or_iff_left hba]
      rfl

/-- **The first one goes from the queue into a hand** that was empty. -/
theorem Exact.take (hs : Exact given s) (hqueued : s.queued = a :: rest) (hempty : s.hand h = none) :
    Exact given { s.setHand h (some a) with queued := rest } := by
  obtain ⟨hfirst, hrest⟩ := List.nodup_cons.mp (hqueued ▸ hs.nodup)
  have hmem : a ∈ s.queued := by
    rw [hqueued]
    exact List.mem_cons_self
  refine ⟨hrest, fun h' b hb hin => ?_, fun h₁ h₂ b h₁b h₂b => ?_, fun b => ?_⟩
  · rcases setHand_eq_some.mp hb with ⟨-, hb⟩ | ⟨-, hb⟩
    · exact hfirst (Option.some.inj hb ▸ hin)
    · exact hs.apart h' b hb (hqueued ▸ List.mem_cons_of_mem _ hin)
  · rcases setHand_eq_some.mp h₁b with ⟨hh₁, hb⟩ | ⟨-, hin₁⟩ <;>
      rcases setHand_eq_some.mp h₂b with ⟨hh₂, hb'⟩ | ⟨-, hin₂⟩
    · exact hh₁.trans hh₂.symm
    · exact absurd (Option.some.inj hb ▸ hmem) (hs.apart h₂ b hin₂)
    · exact absurd (Option.some.inj hb' ▸ hmem) (hs.apart h₁ b hin₁)
    · exact hs.single h₁ h₂ b hin₁ hin₂
  · rw [hs.given_iff, hqueued, List.mem_cons]
    constructor
    · rintro ((rfl | hin) | ⟨h', hin⟩)
      · exact .inr ⟨h, setHand_eq_some.mpr (.inl ⟨rfl, rfl⟩)⟩
      · exact .inl hin
      · refine .inr ⟨h', setHand_eq_some.mpr (.inr ⟨?_, hin⟩)⟩
        rintro rfl
        exact absurd (hempty.symm.trans hin) (by simp)
    · rintro (hin | ⟨h', hin⟩)
      · exact .inl (.inr hin)
      · rcases setHand_eq_some.mp hin with ⟨-, hb⟩ | ⟨-, hin⟩
        · exact .inl (.inl (Option.some.inj hb).symm)
        · exact .inr ⟨h', hin⟩

end Holdings

end Machinery
