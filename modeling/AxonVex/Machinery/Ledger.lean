import Mathlib.Data.List.Nodup
import Mathlib.Logic.Function.Basic

/-!
# Machinery/Ledger — what is issued is returned once

A **ledger** follows objects that are issued into slots and given back out of them.  Each object gets
a serial number when it is issued, so a slot that is used again does not confuse the object that was
there with the one that is there now; giving back an empty slot is a **fault**.

`Sound` — each object issued is in one slot, or has been returned, once — is kept by issuing into an
empty slot (`Sound.issue`) and by giving back full ones (`Sound.giveBackAll`).
-/

namespace Machinery

variable {B : Type*}

/-- The objects issued, the slots they are in, and the objects returned, in order. -/
structure Ledger (B : Type*) where
  /-- the serial number of the next object -/
  issued : ℕ := 0
  /-- the object in a slot -/
  holder : B → Option ℕ := fun _ => none
  returned : List ℕ := []
  /-- how often an empty slot was given back -/
  faults : ℕ := 0

namespace Ledger

variable [DecidableEq B]

/-- A new object in the slot `b`. -/
def issue (L : Ledger B) (b : B) : Ledger B :=
  { L with issued := L.issued + 1, holder := Function.update L.holder b (some L.issued) }

/-- The object in the slot `b` is returned. -/
def giveBack (L : Ledger B) (b : B) : Ledger B :=
  match L.holder b with
  | some n => { L with holder := Function.update L.holder b none, returned := L.returned ++ [n] }
  | none => { L with faults := L.faults + 1 }

/-- Slots given back one after the other. -/
def giveBackAll (L : Ledger B) (bs : List B) : Ledger B := bs.foldl giveBack L

omit [DecidableEq B] in
/-- **Each object issued is in one slot, or has been returned, once.** -/
structure Sound (L : Ledger B) : Prop where
  below : ∀ {b n}, L.holder b = some n → n < L.issued
  single : ∀ {b c n}, L.holder b = some n → L.holder c = some n → b = c
  out : ∀ {b n}, L.holder b = some n → n ∉ L.returned
  past : ∀ n ∈ L.returned, n < L.issued
  once : L.returned.Nodup
  covered : ∀ n < L.issued, n ∈ L.returned ∨ ∃ b, L.holder b = some n
  noFault : L.faults = 0

variable {L : Ledger B} {b c : B} {bs : List B} {n : ℕ}

/-! ## The slots -/

@[simp] theorem holder_issue_self : (L.issue b).holder b = some L.issued :=
  Function.update_self ..

theorem holder_issue_ne (h : c ≠ b) : (L.issue b).holder c = L.holder c :=
  Function.update_of_ne h ..

@[simp] theorem returned_issue : (L.issue b).returned = L.returned := rfl

@[simp] theorem giveBackAll_nil : L.giveBackAll [] = L := rfl

@[simp] theorem giveBackAll_cons : L.giveBackAll (b :: bs) = (L.giveBack b).giveBackAll bs := rfl

theorem giveBack_of_holder (h : L.holder b = some n) : L.giveBack b =
    { L with holder := Function.update L.holder b none, returned := L.returned ++ [n] } := by
  rw [giveBack, h]

@[simp] theorem holder_giveBack_self : (L.giveBack b).holder b = none := by
  unfold giveBack
  split
  · exact Function.update_self ..
  next h => exact h

theorem holder_giveBack_ne (h : c ≠ b) : (L.giveBack b).holder c = L.holder c := by
  unfold giveBack
  split
  · exact Function.update_of_ne h ..
  · rfl

theorem holder_giveBackAll_of_mem (h : b ∈ bs) : (L.giveBackAll bs).holder b = none := by
  induction bs generalizing L with
  | nil => exact absurd h List.not_mem_nil
  | cons c bs ih =>
    by_cases hb : b ∈ bs
    · exact ih hb
    · obtain rfl : b = c := (List.mem_cons.mp h).resolve_right hb
      -- once empty, a slot stays empty
      have hnone {M : Ledger B} (hM : M.holder b = none) (cs : List B) :
          (M.giveBackAll cs).holder b = none := by
        induction cs generalizing M with
        | nil => exact hM
        | cons c cs ihc =>
          refine ihc ?_
          by_cases hbc : b = c
          · subst hbc
            exact holder_giveBack_self
          · rw [holder_giveBack_ne hbc, hM]
      exact hnone holder_giveBack_self bs

theorem holder_giveBackAll_of_notMem (h : b ∉ bs) : (L.giveBackAll bs).holder b = L.holder b := by
  induction bs generalizing L with
  | nil => rfl
  | cons c bs ih =>
    rw [List.mem_cons, not_or] at h
    rw [giveBackAll_cons, ih h.2, holder_giveBack_ne h.1]

/-- **Full slots given back**: their objects are returned, in order. -/
theorem returned_giveBackAll (hnd : bs.Nodup) (hfull : ∀ b ∈ bs, (L.holder b).isSome = true) :
    (L.giveBackAll bs).returned = L.returned ++ bs.filterMap L.holder := by
  induction bs generalizing L with
  | nil => simp
  | cons b bs ih =>
    obtain ⟨hb, hnd⟩ := List.nodup_cons.mp hnd
    obtain ⟨n, hn⟩ := Option.isSome_iff_exists.mp (hfull b (List.mem_cons_self ..))
    have hsame (c : B) (hc : c ∈ bs) : (L.giveBack b).holder c = L.holder c :=
      holder_giveBack_ne fun hcb => hb (hcb ▸ hc)
    rw [giveBackAll_cons, ih hnd fun c hc => by
      rw [hsame c hc]; exact hfull c (List.mem_cons_of_mem b hc)]
    rw [List.filterMap_cons_some hn, List.filterMap_congr hsame, giveBack_of_holder hn,
      List.append_assoc, List.singleton_append]

/-! ## Soundness -/

theorem sound_empty : Sound ({} : Ledger B) where
  below h := absurd h (by simp)
  single h := absurd h (by simp)
  out h := absurd h (by simp)
  past n h := absurd h List.not_mem_nil
  once := List.nodup_nil
  covered n h := absurd h (Nat.not_lt_zero n)
  noFault := rfl

/-- **Issuing into an empty slot.** -/
theorem Sound.issue (h : L.Sound) (hb : L.holder b = none) : (L.issue b).Sound where
  below {c n} hc := by
    by_cases hcb : c = b
    · subst hcb
      exact Option.some.inj (holder_issue_self.symm.trans hc) ▸ Nat.lt_succ_self _
    · exact Nat.lt_succ_of_lt (h.below (holder_issue_ne hcb ▸ hc))
  single {c d n} hc hd := by
    have hnew {c : B} (hcb : c ≠ b) (hc : (L.issue b).holder c = some n) : n ≠ L.issued :=
      Nat.ne_of_lt (h.below (holder_issue_ne hcb ▸ hc))
    by_cases hcb : c = b <;> by_cases hdb : d = b
    · exact hcb.trans hdb.symm
    · subst hcb
      exact absurd (Option.some.inj (holder_issue_self.symm.trans hc)).symm (hnew hdb hd)
    · subst hdb
      exact absurd (Option.some.inj (holder_issue_self.symm.trans hd)).symm (hnew hcb hc)
    · exact h.single (holder_issue_ne hcb ▸ hc) (holder_issue_ne hdb ▸ hd)
  out {c n} hc := by
    by_cases hcb : c = b
    · subst hcb
      obtain rfl := Option.some.inj (holder_issue_self.symm.trans hc)
      exact fun hr => Nat.lt_irrefl _ (h.past _ hr)
    · exact h.out (holder_issue_ne hcb ▸ hc)
  past n hn := Nat.lt_succ_of_lt (h.past n hn)
  once := h.once
  covered n hn := by
    rcases Nat.lt_succ_iff_lt_or_eq.mp hn with hn | rfl
    · refine (h.covered n hn).imp_right fun ⟨c, hc⟩ => ⟨c, ?_⟩
      rwa [holder_issue_ne]
      rintro rfl
      exact absurd (hb.symm.trans hc) (by simp)
    · exact .inr ⟨b, holder_issue_self⟩
  noFault := h.noFault

/-- **Giving a full slot back.** -/
theorem Sound.giveBack (h : L.Sound) (hb : L.holder b = some n) : (L.giveBack b).Sound := by
  have hret : (L.giveBack b).returned = L.returned ++ [n] := by rw [giveBack_of_holder hb]
  have hne {c : B} {m : ℕ} (hc : (L.giveBack b).holder c = some m) : c ≠ b := by
    rintro rfl
    exact absurd (holder_giveBack_self.symm.trans hc) (by simp)
  have hold {c : B} {m : ℕ} (hc : (L.giveBack b).holder c = some m) : L.holder c = some m :=
    holder_giveBack_ne (hne hc) ▸ hc
  have hissued : (L.giveBack b).issued = L.issued := by rw [giveBack_of_holder hb]
  refine ⟨fun hc => hissued ▸ h.below (hold hc), fun hc hd => h.single (hold hc) (hold hd),
    fun hc hm => ?_, fun m hm => ?_, ?_, fun m hm => ?_, ?_⟩
  · rw [hret, List.mem_append, List.mem_singleton] at hm
    rcases hm with hm | rfl
    · exact h.out (hold hc) hm
    · exact hne hc (h.single (hold hc) hb)
  · rw [hret, List.mem_append, List.mem_singleton] at hm
    rw [hissued]
    exact hm.elim (h.past m) fun he => he ▸ h.below hb
  · rw [hret]
    refine List.nodup_append'.mpr ⟨h.once, List.nodup_singleton n, fun m hm hm' => ?_⟩
    exact h.out hb (List.mem_singleton.mp hm' ▸ hm)
  · rw [hret, List.mem_append, List.mem_singleton]
    rcases h.covered m (hissued ▸ hm) with hm | ⟨c, hc⟩
    · exact .inl (.inl hm)
    · by_cases hcb : c = b
      · subst hcb
        exact .inl (.inr (Option.some.inj (hc.symm.trans hb)))
      · exact .inr ⟨c, (holder_giveBack_ne hcb).trans hc⟩
  · rw [giveBack_of_holder hb]
    exact h.noFault

/-- **Giving full slots back, each once.** -/
theorem Sound.giveBackAll (h : L.Sound) (hnd : bs.Nodup)
    (hfull : ∀ b ∈ bs, (L.holder b).isSome = true) : (L.giveBackAll bs).Sound := by
  induction bs generalizing L with
  | nil => exact h
  | cons b bs ih =>
    obtain ⟨hb, hnd⟩ := List.nodup_cons.mp hnd
    obtain ⟨n, hn⟩ := Option.isSome_iff_exists.mp (hfull b (List.mem_cons_self ..))
    refine ih (h.giveBack hn) hnd fun c hc => ?_
    rw [holder_giveBack_ne fun hcb : c = b => hb (hcb ▸ hc)]
    exact hfull c (List.mem_cons_of_mem b hc)

end Ledger

end Machinery
