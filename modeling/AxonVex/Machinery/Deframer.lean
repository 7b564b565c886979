import Mathlib.Data.List.Basic

/-!
# Machinery/Deframer — cutting a stream into items

A **deframer** looks at the head of a stream and finds an item, finds that the stream is not one of
its own, or waits for more.  What it has found it finds again when more follows, and a stream that
an encoder has written is read back (`Deframer.scan_encode`).
-/

namespace Machinery

variable {α β : Type*}

/-- What stands at the head of a stream. -/
inductive Next (α β : Type*)
  | wait
  | reject
  | item (b : β) (rest : List α)
  deriving DecidableEq, Repr

/-- A way of cutting a stream into items. -/
structure Deframer (α β : Type*) where
  next : List α → Next α β
  item_shorter : ∀ {s : List α} {b : β} {rest : List α}, next s = .item b rest →
    rest.length < s.length
  item_append : ∀ {s : List α} {b : β} {rest : List α}, next s = .item b rest → ∀ t,
    next (s ++ t) = .item b (rest ++ t)
  reject_append : ∀ {s : List α}, next s = .reject → ∀ t, next (s ++ t) = .reject

/-- What has been read of a stream; after a rejection nothing more is. -/
structure Scan (α β : Type*) where
  items : List β
  rejected : Bool
  rest : List α

namespace Scan

/-- The same, behind these items. -/
def behind (items : List β) (q : Scan α β) : Scan α β := { q with items := items ++ q.items }

@[simp] theorem behind_nil (q : Scan α β) : q.behind [] = q := rfl

theorem behind_behind (l l' : List β) (q : Scan α β) :
    (q.behind l').behind l = q.behind (l ++ l') := by
  simp [behind]

end Scan

namespace Deframer

variable (D : Deframer α β)

/-- All that can be read of a stream. -/
def scan (s : List α) : Scan α β :=
  match h : D.next s with
  | .wait => ⟨[], false, s⟩
  | .reject => ⟨[], true, []⟩
  | .item b rest => (scan rest).behind [b]
termination_by s.length
decreasing_by exact D.item_shorter h

variable {D} {s t : List α} {b : β} {rest : List α}

theorem scan_of_wait (h : D.next s = .wait) : D.scan s = ⟨[], false, s⟩ := by
  rw [scan]
  split <;> simp_all

theorem scan_of_reject (h : D.next s = .reject) : D.scan s = ⟨[], true, []⟩ := by
  rw [scan]
  split <;> simp_all

theorem scan_of_item (h : D.next s = .item b rest) : D.scan s = (D.scan rest).behind [b] := by
  rw [scan]
  split <;> simp_all

/-- A beginning of what is an item when it is whole waits for the rest. -/
theorem next_of_prefix {w : List α} (hw : D.next w = .item b []) (h : s <+: w) (hne : s ≠ w) :
    D.next s = .wait := by
  obtain ⟨t, rfl⟩ := h
  cases hs : D.next s with
  | wait => rfl
  | reject => cases (D.reject_append hs t).symm.trans hw
  | item b' rest =>
    obtain ⟨-, hrest⟩ := Next.item.inj ((D.item_append hs t).symm.trans hw)
    obtain rfl := (List.append_eq_nil_iff.mp hrest).2
    exact absurd (List.append_nil s).symm hne

/-- **An encoded stream is read back**, up to what is not yet whole. -/
theorem scan_encode_append {encode : β → List α} {items : List β} (ht : D.next t = .wait)
    (hencode : ∀ b ∈ items, ∀ rest, D.next (encode b ++ rest) = .item b rest) :
    D.scan ((items.map encode).flatten ++ t) = ⟨items, false, t⟩ := by
  induction items with
  | nil => exact scan_of_wait ht
  | cons b items ih =>
    rw [List.map_cons, List.flatten_cons, List.append_assoc,
      scan_of_item (hencode b List.mem_cons_self _),
      ih fun b' hb' => hencode b' (List.mem_cons_of_mem _ hb')]
    rfl

theorem scan_encode {encode : β → List α} {items : List β} (hnil : D.next [] = .wait)
    (hencode : ∀ b ∈ items, ∀ rest, D.next (encode b ++ rest) = .item b rest) :
    D.scan (items.map encode).flatten = ⟨items, false, []⟩ :=
  List.append_nil (items.map encode).flatten ▸ scan_encode_append hnil hencode

end Deframer

end Machinery
